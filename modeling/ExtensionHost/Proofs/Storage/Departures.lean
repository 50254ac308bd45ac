import ExtensionHost.Proofs.Storage.Calls

/-!
# `ExtensionHost.Proofs.Storage.Departures`: what storage never does

Two things that are true of every path through the storage layers, and that
nothing which is said elsewhere about marks and counters tells: no path reports
that an object went, since objects are not known down there; and no path makes
a block of more bytes than one region can have. Both are about all primitives
alike, so they go through the layers together, as `Process.SameDepartures`.
-/

set_option autoImplicit false

namespace ExtensionHost

namespace Event

/-- The name of the type of the object that went, if the event reports one. -/
def released? : Event → Option String
  | objectReleased typeName => some typeName
  | _ => none

end Event

namespace SizeClass

/-- A small block has at most 1024 bytes. -/
theorem bytes_le_threshold (cls : SizeClass) : cls.bytes ≤ threshold := by
  have hlt := cls.isLt
  show (cls.val + 1) * 16 ≤ 1024
  omega

end SizeClass

namespace Process

variable {p p' p'' : Process} {a : Address} {size : Nat} {made : Option Address}

/-- The types of the objects that were reported to have gone, in order. -/
def departures (p : Process) : List String := p.events.toList.filterMap Event.released?

/-- No block has more bytes than a region can have. -/
def Bounded (p : Process) : Prop := ∀ a, (p.kind a).usable ≤ Size.addressable

/-- Nothing was reported to have gone, and no block became too large. -/
structure SameDepartures (p p' : Process) : Prop where
  departures : p'.departures = p.departures
  bounded : p.Bounded → p'.Bounded

/-- Without blocks, no block is too large. -/
theorem bounded_new (system : System) : Bounded { system } := fun a => by
  show ((Process.kind { system } a).usable ≤ Size.addressable)
  simp [kind, BlockKind.usable]

/-- Nothing done reports nothing. -/
theorem SameDepartures.refl (p : Process) : p.SameDepartures p := ⟨rfl, id⟩

/-- What reports no departure twice reports none. -/
theorem SameDepartures.trans (h : p.SameDepartures p') (h' : p'.SameDepartures p'') :
    p.SameDepartures p'' :=
  ⟨h'.departures.trans h.departures, fun hbounded => h'.bounded (h.bounded hbounded)⟩

/-- Neither events nor blocks have changed. -/
theorem sameDepartures_of_same (hevents : p'.events = p.events) (hblocks : p'.blocks = p.blocks) :
    p.SameDepartures p' where
  departures := by rw [departures, departures, hevents]
  bounded h a := by
    rw [kind_congr (p := p) (by rw [hblocks])]
    exact h a

/-- A report is a departure if it is one of an object. -/
theorem departures_report (p : Process) (event : Event) :
    (p.report event).departures = p.departures ++ event.released?.toList := by
  show (p.events.push event).toList.filterMap Event.released? = _
  rw [Array.toList_push, List.filterMap_append]
  cases hevent : event.released? <;> simp [hevent, departures]

/-- A report about something else is no departure. -/
theorem sameDepartures_report (p : Process) {event : Event} (hevent : event.released? = none) :
    p.SameDepartures (p.report event) where
  departures := by rw [departures_report, hevent, Option.toList_none, List.append_nil]
  bounded := id

/-- Writing to a block is no departure. -/
theorem sameDepartures_modifyPayload (p : Process) (a : Address) (f : Payload → Payload) :
    p.SameDepartures (p.modifyPayload a f) where
  departures := rfl
  bounded h b := by
    rw [kind_modifyPayload]
    exact h b

/-- Marking a block is no departure, and the mark may not be too large. -/
theorem sameDepartures_setKind (p : Process) (a : Address) (kind : BlockKind)
    (hkind : kind.usable ≤ Size.addressable) : p.SameDepartures (p.setKind a kind) where
  departures := rfl
  bounded h b := by
    by_cases hba : b = a
    · subst hba
      by_cases hb : b < p.blocks.size
      · rw [kind_setKind_self hb]
        exact hkind
      · have hnone : (p.setKind b kind).blocks[b]? = none :=
          Array.getElem?_eq_none (by rw [size_setKind]; exact Nat.le_of_not_lt hb)
        simp only [Process.kind, hnone, BlockKind.usable, Nat.zero_le]
    · rw [kind_congr (getElem?_setKind_of_ne hba kind)]
      exact h b

/-- Adding a block is no departure, and the block may not be too large. -/
theorem sameDepartures_addBlock (p : Process) (block : Block)
    (hblock : block.kind.usable ≤ Size.addressable) : p.SameDepartures (p.addBlock block).2 where
  departures := rfl
  bounded h b := by
    by_cases hb : b = p.blocks.size
    · have hlast : (p.addBlock block).2.kind b = block.kind := by
        simp only [kind, getElem?_addBlock, if_pos hb]
      rw [hlast]
      exact hblock
    · rw [kind_congr ((getElem?_addBlock p block b).trans (if_neg hb))]
      exact h b

/-- A small block may have any mark of its class. -/
theorem usable_pool_le (cls : SizeClass) : (BlockKind.pool cls).usable ≤ Size.addressable :=
  Nat.le_trans (SizeClass.bytes_le_threshold cls) (by decide)

/-- A region has room for the block and its prefix. -/
theorem usable_heap_le {total : Nat} (h : regionSize? size = some total) :
    (BlockKind.heap size).usable ≤ Size.addressable := by
  unfold regionSize? at h
  cases hsum : Size.add? size blockPrefixSize with
  | none => simp [hsum] at h
  | some sum =>
    obtain ⟨-, rfl⟩ := Size.add?_eq_some.1 hsum
    simp only [hsum] at h
    split at h
    · cases h
    · show size ≤ Size.addressable
      omega

/-! ### Requests to the system -/

/-- Asking the system for a region is no departure. -/
theorem sameDepartures_request (p : Process) (bytes : Nat) : p.SameDepartures (p.request bytes).2 :=
  sameDepartures_of_same rfl rfl

/-- Making a large block is no departure. -/
theorem sameDepartures_heapAlloc (p : Process) (size : Nat) :
    p.SameDepartures (p.heapAlloc size).2 := by
  unfold heapAlloc
  dsimp only
  cases hregion : regionSize? (max size 1) with
  | none => exact .refl p
  | some total =>
    have hrequest := p.sameDepartures_request total
    dsimp only
    split
    · rename_i q hq
      rw [hq] at hrequest
      exact hrequest
    · rename_i region q hq
      rw [hq] at hrequest
      have hcounted : p.SameDepartures
          { q with
            heapBlocks := q.heapBlocks + 1, heapBytes := q.heapBytes + (max size 1 : Nat) } :=
        hrequest.trans (sameDepartures_of_same rfl rfl)
      exact hcounted.trans (sameDepartures_addBlock _ ⟨.region region, .heap (max size 1), _⟩
        (usable_heap_le hregion))

/-- Resizing a large block is no departure. -/
theorem sameDepartures_heapRealloc (p : Process) (a : Address) (old size : Nat) :
    p.SameDepartures (p.heapRealloc a old size).2 := by
  unfold heapRealloc
  dsimp only
  cases hregion : regionSize? (max size 1) with
  | none => exact .refl p
  | some total =>
    have hrequest := p.sameDepartures_request total
    have hsize := usable_heap_le hregion
    dsimp only
    split
    · rename_i q hq
      rw [hq] at hrequest
      exact hrequest
    · rename_i region q hq
      rw [hq] at hrequest
      have hresized : p.SameDepartures
          { q with heapBytes := q.heapBytes + (max size 1 : Nat) - old } :=
        hrequest.trans (sameDepartures_of_same rfl rfl)
      split
      · have hmarked := hresized.trans (sameDepartures_setKind _ a _ hsize)
        exact hmarked.trans (sameDepartures_modifyPayload _ a fun _ => _)
      · have hmarked := hresized.trans (sameDepartures_setKind _ a .foreign (Nat.zero_le _))
        exact hmarked.trans
          (sameDepartures_addBlock _ ⟨.region region, .heap (max size 1), _⟩ hsize)

/-- Taking a large block back is no departure. -/
theorem sameDepartures_heapFree (p : Process) (a : Address) (size : Nat) :
    p.SameDepartures (p.heapFree a size) :=
  (sameDepartures_setKind p a .foreign (Nat.zero_le _)).trans (sameDepartures_of_same rfl rfl)

/-- Acquiring an arena is no departure. -/
theorem sameDepartures_acquireArena (p : Process) (size : Nat) :
    p.SameDepartures (p.acquireArena size).2 := by
  unfold acquireArena
  have hrequest := p.sameDepartures_request size
  split
  · exact .refl p
  · split
    · rename_i q hq
      rw [hq] at hrequest
      exact hrequest
    · rename_i region q hq
      rw [hq] at hrequest
      exact hrequest

end Process

namespace ArenaPool

open Process

/-- Growing a pool is no departure. -/
theorem sameDepartures_grow (pool : ArenaPool) (p : Process) (least : Nat) :
    p.SameDepartures (pool.grow p least).2.2 := by
  unfold grow
  split
  · exact .refl p
  · rename_i aligned _
    have htimed (q : Process) :
        q.SameDepartures (if q.timing then q.report (.timed "arena_acquire") else q) := by
      split
      · exact sameDepartures_report q rfl
      · exact .refl q
    have hacquire := p.sameDepartures_acquireArena (max pool.currentSize aligned)
    dsimp only
    split
    · split
      · rename_i q hq
        rw [hq] at hacquire
        exact hacquire.trans (htimed q)
      · rename_i arena q hq
        rw [hq] at hacquire
        exact (hacquire.trans (sameDepartures_report q rfl)).trans (htimed _)
    · exact .refl p

/-- Cutting a piece is no departure. -/
theorem sameDepartures_carve (pool : ArenaPool) (p : Process) (size : Nat) :
    p.SameDepartures (pool.carve p size).2.2 := by
  unfold carve
  have hgrow := pool.sameDepartures_grow p size
  split
  · exact .refl p
  · split
    · rename_i larger q hq
      rw [hq] at hgrow
      exact hgrow
    · rename_i larger q hq
      rw [hq] at hgrow
      split
      · exact hgrow
      · exact hgrow

end ArenaPool

namespace Storage

open Process

/-- Serving a request is no departure. -/
theorem sameDepartures_alloc (s : Storage) (size : Nat) :
    s.process.SameDepartures (s.alloc size).2.process := by
  obtain ⟨allocator, p⟩ := s
  unfold alloc
  split
  · rename_i cls _
    -- what is reported is about arenas and limits, never about objects
    have hcarve := allocator.arenas.sameDepartures_carve p (blockPrefixSize + cls.bytes)
    unfold allocPooled
    dsimp only
    split
    · exact sameDepartures_setKind p _ _ (usable_pool_le cls)
    · split
      · rename_i arenas q hq
        rw [hq] at hcarve
        exact hcarve
      · rename_i place arenas q hq
        rw [hq] at hcarve
        exact hcarve.trans (sameDepartures_addBlock q _ (usable_pool_le cls))
  · have hheap := p.sameDepartures_heapAlloc size
    unfold allocHeap
    dsimp only
    split
    · split
      · rename_i q hq
        rw [hq] at hheap
        exact hheap
      · rename_i a q hq
        rw [hq] at hheap
        exact hheap
    · exact sameDepartures_report p rfl

variable {s s' : Storage} {a : Address} {size old : Nat}

/-- Freeing a block is no departure. -/
theorem sameDepartures_free (h : free a s = .ok () s') : s.process.SameDepartures s'.process := by
  unfold free at h
  split at h
  · cases h
    exact sameDepartures_setKind _ a _ (Nat.zero_le _)
  · cases h
    exact sameDepartures_heapFree _ a _
  · cases h
  · cases h

/-- Moving a block is no departure. -/
theorem sameDepartures_move {moved : Option Address} (h : move a old size s = .ok moved s') :
    s.process.SameDepartures s'.process := by
  have halloc := s.sameDepartures_alloc size
  unfold move at h
  split at h
  · rename_i s₁ hs
    rw [hs] at halloc
    cases h
    exact halloc
  · rename_i b s₁ hs
    rw [hs] at halloc
    dsimp only at h
    split at h
    · rename_i s₂ hfree
      cases h
      have hcopied := halloc.trans (sameDepartures_modifyPayload s₁.process b
        (·.copyFrom (s₁.process.payload a) (min old size)))
      exact hcopied.trans (sameDepartures_free hfree)
    · cases h

/-- Resizing a block is no departure. -/
theorem sameDepartures_realloc {moved : Option Address} (h : realloc a size s = .ok moved s') :
    s.process.SameDepartures s'.process := by
  obtain ⟨allocator, p⟩ := s
  unfold realloc at h
  dsimp only at h
  split at h
  · split at h
    · cases h
      exact .refl _
    · exact sameDepartures_move h
  · rename_i old _
    split at h
    · exact sameDepartures_move h
    · have hheap := p.sameDepartures_heapRealloc a old size
      split at h
      · split at h
        · rename_i q hq
          rw [hq] at hheap
          cases h
          exact hheap
        · rename_i b q hq
          rw [hq] at hheap
          cases h
          exact hheap
      · cases h
        exact .refl _
  · cases h
  · cases h

end Storage

namespace Memory

open Process

variable {m m' : Memory} {a : Address} {count size : Nat}

/-- Serving a request through an entry point is no departure. -/
theorem sameDepartures_serve (m : Memory) (size : Nat) :
    m.process.SameDepartures (m.serve size).2.process := by
  unfold serve
  split
  · exact m.process.sameDepartures_heapAlloc size
  · exact m.storage.sameDepartures_alloc size

/-- A request for bytes is no departure. -/
theorem sameDepartures_malloc (m : Memory) (size : Nat) :
    m.process.SameDepartures (m.malloc size).2.process := by
  have hserve := m.sameDepartures_serve size
  unfold malloc
  split
  · rename_i m₁ hm
    rw [hm] at hserve
    exact hserve
  · rename_i a m₁ hm
    rw [hm] at hserve
    exact hserve.trans (sameDepartures_report _ rfl)

/-- A request for zeroed bytes is no departure. -/
theorem sameDepartures_calloc (m : Memory) (count size : Nat) :
    m.process.SameDepartures (m.calloc count size).2.process := by
  unfold calloc
  split
  · exact .refl _
  · rename_i total _
    have hserve := m.sameDepartures_serve total
    unfold serveZeroed
    cases hm : m.serve total with
    | mk found m₁ =>
      rw [hm] at hserve
      cases found with
      | none => exact hserve
      | some a =>
        exact (hserve.trans (sameDepartures_modifyPayload _ a _)).trans
          (sameDepartures_report _ rfl)

/-- What an operation on the storage answered, it answered for the storage that the
thread sees. -/
theorem onStorage_eq_ok {α : Type} {operation : Operation Storage α} {x : α}
    (h : onStorage operation m = .ok x m') :
    ∃ s, operation m.storage = .ok x s ∧ m' = m.withStorage s := by
  unfold onStorage at h
  dsimp only at h
  split at h
  · rename_i s hs
    cases h
    exact ⟨s, hs, rfl⟩
  · cases h

/-- Only with the allocator at hand: without it a block is moved in steps that
are told apart in `Process.RequestEffect`. -/
theorem sameDepartures_realloc {block moved : Option Address} (hlent : m.lent = false)
    (h : realloc block size m = .ok moved m') : m.process.SameDepartures m'.process := by
  cases block with
  | none =>
    have hmalloc := m.sameDepartures_malloc size
    cases h
    exact hmalloc
  | some a =>
    simp only [realloc, hlent, Bool.false_eq_true, if_false] at h
    obtain ⟨s, hs, rfl⟩ := onStorage_eq_ok h
    exact Storage.sameDepartures_realloc hs

/-- A release through an entry point is no departure. -/
theorem sameDepartures_free (hlent : m.lent = false) (h : free a m = .ok () m') :
    m.process.SameDepartures m'.process := by
  have hlent' : (m.report .blockFreed).lent = false := hlent
  simp only [free, hlent', Bool.false_eq_true, if_false] at h
  obtain ⟨s, hs, rfl⟩ := onStorage_eq_ok h
  exact (sameDepartures_report m.process rfl).trans (Storage.sameDepartures_free hs)

end Memory

end ExtensionHost
