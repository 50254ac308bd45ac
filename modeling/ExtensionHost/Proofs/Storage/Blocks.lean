import ExtensionHost.Storage.Allocator

/-!
# `ExtensionHost.Proofs.Storage.Blocks`: what happens to the table of blocks

Blocks are named by their place in one table, and an operation on the
memory of a process touches few of them. The lemmas here say which: each
primitive (`setKind`, `modifyPayload`, `addBlock`) has an equation for the
entry at an address, and each request to the system has a lemma with the
cases of its outcome (`acquireArena_cases`, `heapAlloc_cases`,
`heapRealloc_cases`), the refused ones included. All later proofs about
storage go through these cases and never open the operations again.

A block is *live* when what is written in front of it says that it is in
use. That is what `free` and `realloc` look at, so it is the notion that
their callers have to keep right.
-/

set_option autoImplicit false

namespace ExtensionHost

namespace Process

variable {p p' : Process} {a b : Address}

/-- The block at an address is in use. -/
def Live (p : Process) (a : Address) : Prop := (p.kind a).isLive

/-- Nothing but the record of requests and events has changed. -/
def SameBut (p p' : Process) : Prop :=
  ∃ requests events, p.requests ≤ requests ∧ p' = { p with requests, events }

/-- Nothing has changed. -/
theorem SameBut.refl (p : Process) : SameBut p p := ⟨p.requests, p.events, Nat.le_refl _, rfl⟩

/-- A report changes no block. -/
theorem SameBut.report (h : SameBut p p') (event : Event) : SameBut p (p'.report event) := by
  obtain ⟨requests, events, hle, rfl⟩ := h
  exact ⟨requests, events.push event, hle, rfl⟩

/-- The table of blocks is the same. -/
theorem SameBut.blocks (h : SameBut p p') : p'.blocks = p.blocks := by
  obtain ⟨_, _, _, rfl⟩ := h
  rfl

/-! ### Reading the table -/

/-- A block that is the same has the same mark. -/
theorem kind_congr (h : p'.blocks[a]? = p.blocks[a]?) : p'.kind a = p.kind a := by
  simp only [kind, h]

/-- A block that is the same holds the same bytes. -/
theorem payload_congr (h : p'.blocks[a]? = p.blocks[a]?) : p'.payload a = p.payload a := by
  simp only [payload, h]

/-- A block that is the same lies at the same place. -/
theorem site_congr (h : p'.blocks[a]? = p.blocks[a]?) : p'.site a = p.site a := by
  simp only [site, h]

/-- A block that is the same is in use or not, as before. -/
theorem live_congr (h : p'.blocks[a]? = p.blocks[a]?) : p'.Live a ↔ p.Live a := by
  simp only [Live, kind_congr h]

/-- An address with anything but a foreign block in front of it is in the
table. -/
theorem lt_size_of_kind (h : p.kind a ≠ .foreign) : a < p.blocks.size := by
  by_cases ha : a < p.blocks.size
  · exact ha
  · exact absurd (by simp [kind, ha]) h

/-- A block in use is in the table. -/
theorem lt_size_of_live (h : p.Live a) : a < p.blocks.size := by
  apply lt_size_of_kind
  intro hk
  simp [Live, hk, BlockKind.isLive] at h

/-- A small block that is handed out is in use. -/
theorem live_pool {cls : SizeClass} (h : p.kind a = .pool cls) : p.Live a := by
  simp [Live, h, BlockKind.isLive]

/-- A large block is in use. -/
theorem live_heap {size : Nat} (h : p.kind a = .heap size) : p.Live a := by
  simp [Live, h, BlockKind.isLive]

/-- A freed block is in use no more. -/
theorem not_live_freed {cls : SizeClass} (h : p.kind a = .freed cls) : ¬ p.Live a := by
  simp [Live, h, BlockKind.isLive]

/-- A block of nobody is not in use. -/
theorem not_live_foreign (h : p.kind a = .foreign) : ¬ p.Live a := by
  simp [Live, h, BlockKind.isLive]

/-- An allocator answers for what is in use. -/
theorem ne_foreign_of_live (h : p.Live a) : p.kind a ≠ .foreign :=
  fun heq => not_live_foreign heq h

/-- An allocator answers for what waits, too. -/
theorem ne_foreign_of_freed {cls : SizeClass} (h : p.kind a = .freed cls) :
    p.kind a ≠ .foreign := by
  simp [h]

/-- A live block is a small or a large one. -/
theorem live_cases (h : p.Live a) :
    (∃ cls, p.kind a = .pool cls) ∨ ∃ size, p.kind a = .heap size := by
  unfold Live at h
  cases hk : p.kind a with
  | pool cls => exact .inl ⟨cls, rfl⟩
  | heap size => exact .inr ⟨size, rfl⟩
  | freed cls => simp [hk, BlockKind.isLive] at h
  | foreign => simp [hk, BlockKind.isLive] at h

/-- There is no block in use behind the end of the table. -/
theorem not_live_size (p : Process) : ¬ p.Live p.blocks.size :=
  fun h => Nat.lt_irrefl _ (lt_size_of_live h)

/-! ### Writing the table -/

/-- A report changes no block. -/
@[simp] theorem blocks_report (p : Process) (event : Event) :
    (p.report event).blocks = p.blocks := rfl

/-- Marking a block changes the mark of that block. -/
theorem getElem?_setKind (p : Process) (a : Address) (kind : BlockKind) (b : Address) :
    (p.setKind a kind).blocks[b]? =
      if a = b then p.blocks[b]?.map ({ · with kind }) else p.blocks[b]? := by
  simp only [setKind, Array.getElem?_modify]

/-- Writing to a block changes what that block holds. -/
theorem getElem?_modifyPayload (p : Process) (a : Address) (f : Payload → Payload) (b : Address) :
    (p.modifyPayload a f).blocks[b]? =
      if a = b then p.blocks[b]?.map (fun block => { block with payload := f block.payload })
      else p.blocks[b]? := by
  simp only [modifyPayload, Array.getElem?_modify]

/-- A block that is added comes last. -/
theorem getElem?_addBlock (p : Process) (block : Block) (b : Address) :
    (p.addBlock block).2.blocks[b]? =
      if b = p.blocks.size then some block else p.blocks[b]? := by
  simp only [addBlock, Array.getElem?_push]

/-- Marking a block adds none. -/
@[simp] theorem size_setKind (p : Process) (a : Address) (kind : BlockKind) :
    (p.setKind a kind).blocks.size = p.blocks.size := by
  simp [setKind]

/-- Writing to a block adds none. -/
@[simp] theorem size_modifyPayload (p : Process) (a : Address) (f : Payload → Payload) :
    (p.modifyPayload a f).blocks.size = p.blocks.size := by
  simp [modifyPayload]

/-- The other blocks stay as they are when a block is marked. -/
theorem getElem?_setKind_of_ne (h : b ≠ a) (kind : BlockKind) :
    (p.setKind a kind).blocks[b]? = p.blocks[b]? := by
  rw [getElem?_setKind, if_neg (Ne.symm h)]

/-- The other blocks stay as they are when a block is written. -/
theorem getElem?_modifyPayload_of_ne (h : b ≠ a) (f : Payload → Payload) :
    (p.modifyPayload a f).blocks[b]? = p.blocks[b]? := by
  rw [getElem?_modifyPayload, if_neg (Ne.symm h)]

/-- A block has the mark that it was given. -/
theorem kind_setKind_self (h : a < p.blocks.size) (kind : BlockKind) :
    (p.setKind a kind).kind a = kind := by
  simp [Process.kind, getElem?_setKind, Array.getElem?_eq_getElem h]

/-- Marking a block leaves what it holds. -/
@[simp] theorem payload_setKind (p : Process) (a : Address) (kind : BlockKind) (b : Address) :
    (p.setKind a kind).payload b = p.payload b := by
  simp only [payload, getElem?_setKind]
  by_cases h : a = b
  · cases p.blocks[b]? <;> simp [h]
  · simp [h]

/-- Marking a block does not move it. -/
@[simp] theorem site_setKind (p : Process) (a : Address) (kind : BlockKind) (b : Address) :
    (p.setKind a kind).site b = p.site b := by
  simp only [site, getElem?_setKind]
  by_cases h : a = b
  · cases p.blocks[b]? <;> simp [h]
  · simp [h]

/-- Writing a block leaves what stands in front of it. -/
@[simp] theorem kind_modifyPayload (p : Process) (a : Address) (f : Payload → Payload)
    (b : Address) : (p.modifyPayload a f).kind b = p.kind b := by
  simp only [kind, getElem?_modifyPayload]
  by_cases h : a = b
  · cases p.blocks[b]? <;> simp [h]
  · simp [h]

/-- Writing to a block leaves in use what is in use. -/
@[simp] theorem live_modifyPayload (p : Process) (a : Address) (f : Payload → Payload)
    (b : Address) : (p.modifyPayload a f).Live b ↔ p.Live b := by
  simp only [Live, kind_modifyPayload]

/-- Writing to a block does not move it. -/
@[simp] theorem site_modifyPayload (p : Process) (a : Address) (f : Payload → Payload)
    (b : Address) : (p.modifyPayload a f).site b = p.site b := by
  simp only [site, getElem?_modifyPayload]
  by_cases h : a = b
  · cases p.blocks[b]? <;> simp [h]
  · simp [h]

/-- A block holds what was written to it. -/
theorem payload_modifyPayload_self (h : a < p.blocks.size) (f : Payload → Payload) :
    (p.modifyPayload a f).payload a = f (p.payload a) := by
  simp [payload, getElem?_modifyPayload, Array.getElem?_eq_getElem h]

/-- Writing to a block leaves the other ones. -/
theorem payload_modifyPayload_of_ne (h : b ≠ a) (f : Payload → Payload) :
    (p.modifyPayload a f).payload b = p.payload b :=
  payload_congr (getElem?_modifyPayload_of_ne h f)

/-! ### Requests to the system -/

/-- An arena is the answer to a request of its own, or nothing has changed
but the record of requests. -/
theorem acquireArena_cases {size : Nat} {found : Option Arena}
    (h : p.acquireArena size = (found, p')) :
    (found = none ∧ SameBut p p') ∨
      (size ≠ 0 ∧ found = some { region := p.requests, size } ∧
        p' = { p with requests := p.requests + 1 }) := by
  unfold acquireArena request at h
  by_cases hsize : size = 0 ∨ Size.addressable - (Size.alignment - 1) < size
  · rw [if_pos hsize] at h
    cases h
    exact .inl ⟨rfl, .refl _⟩
  · rw [if_neg hsize] at h
    cases hserved : p.system.serves p.requests size with
    | true =>
      simp only [hserved, if_true] at h
      cases h
      exact .inr ⟨fun hzero => hsize (.inl hzero), rfl, rfl⟩
    | false =>
      simp only [hserved, Bool.false_eq_true, if_false] at h
      cases h
      exact .inl ⟨rfl, p.requests + 1, p.events, Nat.le_succ _, rfl⟩

/-- The system is asked for the bytes of a large block and of its prefix. -/
theorem regionSize?_eq_some {size total : Nat} (h : regionSize? size = some total) :
    total = size + blockPrefixSize := by
  unfold regionSize? at h
  cases hsum : Size.add? size blockPrefixSize with
  | none => simp [hsum] at h
  | some sum =>
    obtain ⟨-, rfl⟩ := Size.add?_eq_some.1 hsum
    simp only [hsum] at h
    split at h
    · cases h
    · exact (Option.some.inj h).symm

/-- The process after a large block of `size` usable bytes was made in the
region of the next request. -/
def withLarge (p : Process) (size : Nat) : Process :=
  { p with
    requests := p.requests + 1
    heapBlocks := p.heapBlocks + 1
    heapBytes := p.heapBytes + size
    blocks := p.blocks.push
      ⟨.region p.requests, .heap size, p.system.fresh p.requests blockPrefixSize⟩ }

/-- A large block is made in a region of its own, or nothing has changed
but the record of requests. -/
theorem heapAlloc_cases {size : Nat} {made : Option Address}
    (h : p.heapAlloc size = (made, p')) :
    (made = none ∧ SameBut p p') ∨
      (made = some p.blocks.size ∧ p' = p.withLarge (max size 1)) := by
  unfold heapAlloc request at h
  simp only at h
  cases hregion : regionSize? (max size 1) with
  | none =>
    simp only [hregion] at h
    cases h
    exact .inl ⟨rfl, .refl _⟩
  | some total =>
    simp only [hregion] at h
    cases hserved : p.system.serves p.requests total with
    | true =>
      simp only [hserved, if_true] at h
      cases h
      exact .inr ⟨rfl, rfl⟩
    | false =>
      simp only [hserved, Bool.false_eq_true, if_false] at h
      cases h
      exact .inl ⟨rfl, p.requests + 1, p.events, Nat.le_succ _, rfl⟩

/-- What a large block that was resized holds: its old contents as far as
both sizes reach. -/
def resizedPayload (p : Process) (a : Address) (old size : Nat) : Payload :=
  (p.system.fresh p.requests blockPrefixSize).copyFrom (p.payload a) (min old size)

/-- The process after a request and a change in the bytes of large
blocks. -/
def afterResize (p : Process) (old size : Nat) : Process :=
  { p with requests := p.requests + 1, heapBytes := p.heapBytes + size - old }

/-- A large block that is resized stays where it is or moves to a region of
its own, or nothing has changed but the record of requests. -/
theorem heapRealloc_cases {old size : Nat} {moved : Option Address}
    (h : p.heapRealloc a old size = (moved, p')) :
    (moved = none ∧ SameBut p p') ∨
      (moved = some a ∧
        p' = ((p.afterResize old (max size 1)).setKind a (.heap (max size 1))).modifyPayload a
          fun _ => p.resizedPayload a old (max size 1)) ∨
      (moved = some p.blocks.size ∧
        p' = (((p.afterResize old (max size 1)).setKind a .foreign).addBlock
          ⟨.region p.requests, .heap (max size 1), p.resizedPayload a old (max size 1)⟩).2) := by
  unfold heapRealloc request at h
  simp only at h
  cases hregion : regionSize? (max size 1) with
  | none =>
    simp only [hregion] at h
    cases h
    exact .inl ⟨rfl, .refl _⟩
  | some total =>
    simp only [hregion] at h
    cases hserved : p.system.serves p.requests total with
    | true =>
      simp only [hserved, if_true] at h
      cases hstays : p.system.keepsPlace p.requests with
      | true =>
        simp only [hstays, if_true] at h
        cases h
        exact .inr (.inl ⟨rfl, rfl⟩)
      | false =>
        simp only [hstays, Bool.false_eq_true, if_false, addBlock, size_setKind] at h
        cases h
        exact .inr (.inr ⟨rfl, rfl⟩)
    | false =>
      simp only [hserved, Bool.false_eq_true, if_false] at h
      cases h
      -- the system was asked in vain, and the request still counts
      exact .inl ⟨rfl, p.requests + 1, p.events, Nat.le_succ _, rfl⟩

/-- A large block that was resized: its address, what is written in front
of it, what it holds, and what became of the other addresses. -/
theorem heapRealloc_some {old size : Nat} (h : p.heapRealloc a old size = (some b, p'))
    (hkind : p.kind a = .heap old) :
    (b = a ∨ b = p.blocks.size ∧ p'.kind a = .foreign) ∧ p'.kind b = .heap (max size 1) ∧
      p'.payload b = p.resizedPayload a old (max size 1) ∧
      ∀ c, c ≠ a → c ≠ b → p'.blocks[c]? = p.blocks[c]? := by
  have ha : a < p.blocks.size := lt_size_of_live (live_heap hkind)
  have hafter : a < (p.afterResize old (max size 1)).blocks.size := ha
  rcases heapRealloc_cases h with ⟨hb, -⟩ | ⟨hb, rfl⟩ | ⟨hb, rfl⟩
  · cases hb
  · obtain rfl : b = a := by simpa using hb
    refine ⟨.inl rfl, ?_, ?_, fun c hc _ => ?_⟩
    · rw [kind_modifyPayload, kind_setKind_self hafter]
    · rw [payload_modifyPayload_self (by rw [size_setKind]; exact hafter)]
    · rw [getElem?_modifyPayload_of_ne hc, getElem?_setKind_of_ne hc]
      rfl
  · obtain rfl : b = p.blocks.size := by simpa using hb
    -- the block is the next one in the table, behind the old one, which is marked as gone
    have hsize : ((p.afterResize old (max size 1)).setKind a .foreign).blocks.size
        = p.blocks.size := size_setKind _ _ _
    refine ⟨.inr ⟨rfl, ?_⟩, ?_, ?_, fun c hc hcb => ?_⟩
    · have hold : (((p.afterResize old (max size 1)).setKind a .foreign).addBlock
          ⟨.region p.requests, .heap (max size 1),
            p.resizedPayload a old (max size 1)⟩).2.blocks[a]?
          = ((p.afterResize old (max size 1)).setKind a .foreign).blocks[a]? := by
        rw [getElem?_addBlock, hsize, if_neg (Nat.ne_of_lt ha)]
      rw [kind_congr hold, kind_setKind_self hafter]
    · simp only [kind, getElem?_addBlock, hsize, if_true]
    · simp only [payload, getElem?_addBlock, hsize, if_true]
    · rw [getElem?_addBlock, hsize, if_neg hcb, getElem?_setKind_of_ne hc]
      rfl

/-- What both sizes reach is kept when a large block is resized. -/
theorem cell_resizedPayload {old size i : Nat} (h : i < min old size) :
    (p.resizedPayload a old size).cell i = (p.payload a).cell i := by
  rw [resizedPayload, Payload.cell_copyFrom, if_pos h]

/-- The other blocks stay as they are when a large block goes back to the
system. -/
theorem getElem?_heapFree_of_ne (h : b ≠ a) (size : Nat) :
    (p.heapFree a size).blocks[b]? = p.blocks[b]? :=
  getElem?_setKind_of_ne h .foreign

/-- A large block that is taken back is a block of nobody. -/
theorem kind_heapFree_self (h : a < p.blocks.size) (size : Nat) :
    (p.heapFree a size).kind a = .foreign :=
  kind_setKind_self h .foreign

/-! ### What a caller sees

Callers of storage see three effects, whoever brings them about: a block
is handed out, a block is resized, a block is released. What a block holds is
known at all offsets, so that a write beyond the bytes that it is about would
show. -/

/-- At the offsets from `count` on nobody wrote to the block at `a`: there it
holds what it held before, or what the system gave with a region. -/
def Unwritten (p p' : Process) (a : Address) (count : Nat) : Prop :=
  ∃ given : Payload, (a < p.blocks.size ∧ given = p.payload a ∨
    ∃ region start, given = p.system.fresh region start) ∧
    ∀ i, count ≤ i → (p'.payload a).cell i = given.cell i

/-- A request for `size` bytes was answered: what was handed out, if
anything, was not in use before and is now, with room for the request. Nobody
wrote to it behind the bytes that were asked for, and nothing else has
changed. -/
structure Hands (p : Process) (size : Nat) (made : Option Address) (p' : Process) : Prop where
  others : ∀ b, made ≠ some b → p'.blocks[b]? = p.blocks[b]?
  fresh : ∀ a, made = some a → ¬ p.Live a
  live : ∀ a, made = some a → p'.Live a
  room : ∀ a, made = some a → size ≤ (p'.kind a).usable
  unwritten : ∀ a, made = some a → p.Unwritten p' a size

/-- A request to resize the block at `a` was answered: where the block is
now, if it was resized, it holds what both sizes reach, and nobody wrote to it
behind the room that both blocks have nor behind the new size, which counts as
one if it is zero. Nothing but its old and its new address has changed. -/
structure Moves (p : Process) (a : Address) (size : Nat) (moved : Option Address)
    (p' : Process) : Prop where
  others : ∀ c, c ≠ a → moved ≠ some c → p'.blocks[c]? = p.blocks[c]?
  unmoved : moved = none → p'.blocks[a]? = p.blocks[a]?
  fresh : ∀ b, moved = some b → b ≠ a → ¬ p.Live b ∧ ¬ p'.Live a
  live : ∀ b, moved = some b → p'.Live b
  room : ∀ b, moved = some b → size ≤ (p'.kind b).usable
  kept : ∀ b, moved = some b → ∀ i, i < min (p.kind a).usable size →
    (p'.payload b).cell i = (p.payload a).cell i
  unwritten : ∀ b, moved = some b →
    p.Unwritten p' b (min (min (p.kind a).usable (p'.kind b).usable) (max size 1))

/-- The block at `a` was released, and no other one was touched. -/
structure Frees (p : Process) (a : Address) (p' : Process) : Prop where
  others : ∀ b, b ≠ a → p'.blocks[b]? = p.blocks[b]?
  ended : ¬ p'.Live a

/-- Nothing is handed out when no block changes. -/
theorem SameBut.hands (h : p.SameBut p') (size : Nat) : p.Hands size none p' :=
  ⟨fun b _ => by rw [h.blocks], nofun, nofun, nofun, nofun⟩

/-- Nobody has written to a large block that is new. -/
theorem unwritten_withLarge (size : Nat) : p.Unwritten (p.withLarge size) p.blocks.size 0 :=
  ⟨p.system.fresh p.requests blockPrefixSize, .inr ⟨_, _, rfl⟩, fun i _ => by
    simp [payload, withLarge]⟩

/-- What was not written from some byte on was not written from a later one on. -/
theorem Unwritten.mono {count more : Nat} (h : p.Unwritten p' a count) (hle : count ≤ more) :
    p.Unwritten p' a more := by
  obtain ⟨given, hgiven, hcells⟩ := h
  exact ⟨given, hgiven, fun i hi => hcells i (Nat.le_trans hle hi)⟩

/-- Nobody has written to a large block that was just made. -/
theorem unwritten_heapAlloc {size : Nat} (h : p.heapAlloc size = (some a, p')) :
    p.Unwritten p' a 0 := by
  rcases heapAlloc_cases h with ⟨hnone, -⟩ | ⟨hmade, rfl⟩
  · cases hnone
  · cases hmade
    exact unwritten_withLarge _

/-- A large block is handed out, or nothing is. -/
theorem hands_heapAlloc {size : Nat} {made : Option Address}
    (h : p.heapAlloc size = (made, p')) : p.Hands size made p' := by
  rcases heapAlloc_cases h with ⟨rfl, hsame⟩ | ⟨rfl, rfl⟩
  · exact hsame.hands size
  · have hkind : (p.withLarge (max size 1)).kind p.blocks.size = .heap (max size 1) := by
      simp [kind, withLarge]
    refine ⟨fun b hb => ?_, ?_, ?_, ?_, ?_⟩
    · have hne : b ≠ p.blocks.size := fun heq => hb (by rw [heq])
      simp only [withLarge, Array.getElem?_push, if_neg hne]
    · rintro a ⟨⟩
      exact not_live_size p
    · rintro a ⟨⟩
      exact live_heap hkind
    · rintro a ⟨⟩
      rw [hkind]
      exact Nat.le_max_left _ _
    · rintro a ⟨⟩
      exact (unwritten_withLarge _).mono (Nat.zero_le size)

/-- Bytes that nobody wrote to are not written by a change of the bytes before
them. -/
theorem Unwritten.modifyPayload {count : Nat} (h : p.Unwritten p' a count) {f : Payload → Payload}
    (hf : ∀ payload i, count ≤ i → (f payload).cell i = payload.cell i) :
    p.Unwritten (p'.modifyPayload a f) a count := by
  obtain ⟨given, hgiven, hcells⟩ := h
  refine ⟨given, hgiven, fun i hi => ?_⟩
  by_cases ha : a < p'.blocks.size
  · rw [payload_modifyPayload_self ha, hf _ i hi, hcells i hi]
  · have hnone : (p'.modifyPayload a f).payload a = p'.payload a :=
      payload_congr (by simp [Nat.not_lt.1 ha])
    rw [hnone, hcells i hi]

/-- The block that is handed out may be written to, as far as was asked for. -/
theorem Hands.modifyPayload {size : Nat} (h : p.Hands size (some a) p') {f : Payload → Payload}
    (hf : ∀ payload i, size ≤ i → (f payload).cell i = payload.cell i) :
    p.Hands size (some a) (p'.modifyPayload a f) where
  others b hb := by
    rw [getElem?_modifyPayload_of_ne (fun heq => hb (by rw [heq]))]
    exact h.others b hb
  fresh := h.fresh
  live c hc := (live_modifyPayload _ _ _ _).2 (h.live c hc)
  room c hc := by
    rw [kind_modifyPayload]
    exact h.room c hc
  unwritten := by
    rintro _ ⟨⟩
    exact (h.unwritten a rfl).modifyPayload hf

/-- The block that is handed out may be zeroed. -/
theorem Hands.zero {size : Nat} (h : p.Hands size (some a) p') :
    p.Hands size (some a) (p'.modifyPayload a (·.zero size)) :=
  h.modifyPayload fun payload i hi => by rw [Payload.zero, Payload.cell_fill, if_neg (by omega)]

/-- A text may be written into the block that is handed out, if there is room
for it in what was asked for. -/
theorem Hands.write {size start : Nat} {bytes : ByteArray} (h : p.Hands size (some a) p')
    (hroom : start + bytes.size ≤ size) :
    p.Hands size (some a) (p'.modifyPayload a (·.write start bytes)) :=
  h.modifyPayload fun payload i hi => by rw [Payload.cell_write, if_neg (by omega)]

/-- Events are no blocks. -/
theorem Hands.report {size : Nat} {made : Option Address} (h : p.Hands size made p')
    (event : Event) : p.Hands size made (p'.report event) :=
  ⟨h.others, h.fresh, h.live, h.room, h.unwritten⟩

/-- A large block is resized to hold what it held as far as both sizes reach, or it stays. -/
theorem moves_heapRealloc {old size : Nat} {moved : Option Address}
    (h : p.heapRealloc a old size = (moved, p')) (hkind : p.kind a = .heap old) :
    p.Moves a size moved p' := by
  cases moved with
  | none =>
    rcases heapRealloc_cases h with ⟨-, hsame⟩ | ⟨hb, -⟩ | ⟨hb, -⟩
    · exact ⟨fun c _ _ => by rw [hsame.blocks], fun _ => by rw [hsame.blocks], nofun, nofun, nofun,
        nofun, nofun⟩
    · cases hb
    · cases hb
  | some b =>
    obtain ⟨hplace, hb, hpayload, hothers⟩ := heapRealloc_some h hkind
    refine ⟨fun c hc hcb => hothers c hc (fun heq => hcb (by rw [heq])), nofun, ?_, ?_, ?_, ?_, ?_⟩
    · rintro _ ⟨⟩ hne
      obtain ⟨rfl, hold⟩ := hplace.resolve_left hne
      exact ⟨not_live_size p, not_live_foreign hold⟩
    · rintro _ ⟨⟩
      exact live_heap hb
    · rintro _ ⟨⟩
      rw [hb]
      exact Nat.le_max_left _ _
    · rintro _ ⟨⟩ i hi
      rw [hkind] at hi
      simp only [BlockKind.usable] at hi
      rw [hpayload, cell_resizedPayload (by omega)]
    · rintro _ ⟨⟩
      -- behind what was kept it holds what the system gave for this request
      refine ⟨p.system.fresh p.requests blockPrefixSize, .inr ⟨_, _, rfl⟩, fun i hi => ?_⟩
      rw [hkind, hb] at hi
      simp only [BlockKind.usable] at hi
      rw [hpayload, resizedPayload, Payload.cell_copyFrom, if_neg (by omega)]

/-- What waits goes on waiting when a large block is resized: neither where the
block was nor where it is afterwards is a block that waits. -/
theorem freed_heapRealloc {old size : Nat} {moved : Option Address} {cls : SizeClass}
    (h : p.heapRealloc a old size = (moved, p')) (hkind : p.kind a = .heap old)
    (hb : p.kind b = .freed cls) : p'.kind b = .freed cls := by
  have hba : b ≠ a := by
    rintro rfl
    rw [hkind] at hb
    cases hb
  have hmoved : moved ≠ some b := by
    rintro rfl
    obtain ⟨hplace, -, -, -⟩ := heapRealloc_some h hkind
    obtain ⟨rfl, -⟩ := hplace.resolve_left hba
    exact Nat.lt_irrefl _ (lt_size_of_kind (by rw [hb]; nofun))
  exact (kind_congr ((moves_heapRealloc h hkind).others b hba hmoved)).trans hb

/-- Taking a large block back frees it and nothing else. -/
theorem frees_heapFree (ha : a < p.blocks.size) (size : Nat) : p.Frees a (p.heapFree a size) where
  others _ hb := getElem?_heapFree_of_ne hb size
  ended := not_live_foreign (kind_heapFree_self ha size)

/-- Marking a small block as freed frees it and nothing else. -/
theorem frees_setKind (ha : a < p.blocks.size) (cls : SizeClass) :
    p.Frees a (p.setKind a (.freed cls)) where
  others _ hb := getElem?_setKind_of_ne hb _
  ended := not_live_freed (kind_setKind_self ha (.freed cls))

/-- A block that moves: another one is handed out, what it is to hold is
copied, and the old one is released. -/
theorem Hands.moves {size count : Nat} {p₁ p₂ : Process} (hhands : p.Hands size (some b) p₁)
    (hnew : p.Unwritten p₁ b 0) (hlive : p.Live a) (hcount : count = min (p.kind a).usable size)
    (hfrees : (p₁.modifyPayload b (·.copyFrom (p₁.payload a) count)).Frees a p₂) :
    p.Moves a size (some b) p₂ := by
  -- the old block is in use, so it is not the one handed out, and neither step is about the
  -- other
  have hab : a ≠ b := fun heq => hhands.fresh b rfl (heq ▸ hlive)
  have ha₁ : p₁.payload a = p.payload a :=
    payload_congr (hhands.others a (by simpa using Ne.symm hab))
  have hb₂ := hfrees.others b (Ne.symm hab)
  have hlive₁ := hhands.live b rfl
  have hsize₁ := lt_size_of_live hlive₁
  have hroom : (p₂.kind b) = p₁.kind b := by rw [kind_congr hb₂, kind_modifyPayload]
  refine ⟨fun c hc hcb => ?_, nofun, ?_, ?_, ?_, ?_, ?_⟩
  · have hne : c ≠ b := fun heq => hcb (by rw [heq])
    rw [hfrees.others c hc, getElem?_modifyPayload_of_ne hne, hhands.others c hcb]
  · rintro _ ⟨⟩ -
    exact ⟨hhands.fresh b rfl, hfrees.ended⟩
  · rintro _ ⟨⟩
    rw [Live, hroom]
    exact hlive₁
  · rintro _ ⟨⟩
    rw [hroom]
    exact hhands.room b rfl
  · rintro _ ⟨⟩ i hi
    rw [payload_congr hb₂, payload_modifyPayload_self hsize₁, Payload.cell_copyFrom, hcount,
      if_pos hi, ha₁]
  · rintro _ ⟨⟩
    have hle := hhands.room b rfl
    obtain ⟨given, hgiven, hcells⟩ := hnew
    refine ⟨given, hgiven, fun i hi => ?_⟩
    rw [hroom] at hi
    rw [payload_congr hb₂, payload_modifyPayload_self hsize₁, Payload.cell_copyFrom, hcount,
      if_neg (by omega), hcells i (Nat.zero_le i)]

end Process

end ExtensionHost
