import ExtensionHost.Proofs.Storage.Requests

/-!
# `ExtensionHost.Proofs.Storage.FreeLists`: the lists are in order

`Allocator.Listed` is the invariant that ties the free lists of an
allocator to what is written in front of the blocks: every block on a list
is marked as freed with the class of the list, and stands there once. So a
block that is handed out was not in use (`Served.not_live`), which is what
every caller relies on.

The invariant is stated for one allocator. Several allocators on one
process need one thing more, that no block is on the lists of two of them;
`Served.mem_of_mem` and `Freed.mem_of_mem` say how the lists change, which
is all that takes.
-/

set_option autoImplicit false

namespace ExtensionHost

/-- The free lists of an allocator hold blocks that are marked as freed
with the class of their list, each of them once. -/
structure Allocator.Listed (allocator : Allocator) (p : Process) : Prop where
  nodup : ∀ cls : SizeClass, (allocator.freeLists[cls]).Nodup
  freed : ∀ (cls : SizeClass) (a : Address), a ∈ allocator.freeLists[cls] → p.kind a = .freed cls

namespace Allocator

variable {allocator : Allocator} {p p' : Process}

/-- A new allocator has no block on a list. -/
@[simp] theorem getElem_new (settings : AllocatorSettings) (cls : SizeClass) :
    (new settings).freeLists[cls] = [] := by
  simp [new]

/-- A new allocator has its lists in order, on any process. -/
theorem listed_new (settings : AllocatorSettings) (p : Process) : (new settings).Listed p where
  nodup cls := by rw [getElem_new]; exact List.nodup_nil
  freed cls a h := by rw [getElem_new] at h; cases h

/-- No block on a list is in use. -/
theorem Listed.not_live (h : allocator.Listed p) {cls : SizeClass} {a : Address}
    (ha : a ∈ allocator.freeLists[cls]) : ¬ p.Live a :=
  Process.not_live_freed (h.freed cls a ha)

/-- The lists stay in order as long as what is written in front of the
blocks on them stays. -/
theorem Listed.of_kind (h : allocator.Listed p)
    (hkind : ∀ (cls : SizeClass) (a : Address), a ∈ allocator.freeLists[cls] →
      p'.kind a = p.kind a) : allocator.Listed p' where
  nodup := h.nodup
  freed cls a ha := (hkind cls a ha).trans (h.freed cls a ha)

/-- The lists stay in order when what waits goes on waiting. -/
theorem Listed.of_others (h : allocator.Listed p)
    (hothers : ∀ b cls, p.kind b = .freed cls → p'.kind b = .freed cls) : allocator.Listed p' where
  nodup := h.nodup
  freed cls b hb := hothers b cls (h.freed cls b hb)

/-- A large block that is resized is on no list, wherever it is afterwards. -/
theorem listed_heapRealloc {a : Address} {old size : Nat} {moved : Option Address}
    (hlisted : allocator.Listed p) (hkind : p.kind a = .heap old)
    (h : p.heapRealloc a old size = (moved, p')) : allocator.Listed p' :=
  hlisted.of_others fun _ _ hb => Process.freed_heapRealloc h hkind hb

end Allocator

namespace Storage

variable {s s' : Storage} {a b : Address} {size : Nat} {made : Option Address}

/-! ### Requests -/

/-- A request touches no block but the one that it hands out. -/
theorem Served.getElem?_of_ne (h : Served s size made s') (hb : made ≠ some b) :
    s'.process.blocks[b]? = s.process.blocks[b]? := by
  cases h with
  | reused hcls hlist =>
    exact Process.getElem?_setKind_of_ne (fun heq => hb (by rw [heq])) _
  | carved hcls hlist hcarve =>
    have hblocks := (ArenaPool.sameBut_carve hcarve).blocks
    rw [Process.getElem?_addBlock, if_neg (fun heq => hb (by rw [heq])), hblocks]
  | uncarved hcls hlist hcarve => rw [(ArenaPool.sameBut_carve hcarve).blocks]
  | large hcls hlimit =>
    have hne : b ≠ s.process.blocks.size := fun heq => hb (by rw [heq])
    simp only [Process.withLarge, Array.getElem?_push, if_neg hne]
  | refused hcls hsame => rw [hsame.blocks]

/-- A request that is not served touches no block. -/
theorem Served.blocks_of_none (h : Served s size none s') :
    s'.process.blocks = s.process.blocks := by
  cases h with
  | uncarved hcls hlist hcarve => exact (ArenaPool.sameBut_carve hcarve).blocks
  | refused hcls hsame => exact hsame.blocks

/-- The block that a request hands out was not in use. -/
theorem Served.not_live (h : Served s size (some a) s')
    (hlisted : s.allocator.Listed s.process) : ¬ s.process.Live a := by
  cases h with
  | @reused cls _ rest hcls hlist =>
    have hmem : a ∈ s.allocator.freeLists[cls] := by rw [hlist]; exact List.mem_cons_self
    exact hlisted.not_live hmem
  | carved hcls hlist hcarve =>
    rw [(ArenaPool.sameBut_carve hcarve).blocks]
    exact Process.not_live_size _
  | large hcls hlimit => exact Process.not_live_size _

/-- What is written in front of the block that a request hands out. -/
theorem Served.kind (h : Served s size (some a) s') (hlisted : s.allocator.Listed s.process) :
    s'.process.kind a =
      match SizeClass.ofSize? size with
      | some cls => .pool cls
      | none => .heap (max size 1) := by
  cases h with
  | @reused cls _ rest hcls hlist =>
    have hkind := hlisted.freed cls a (by rw [hlist]; exact List.mem_cons_self)
    rw [hcls]
    exact Process.kind_setKind_self (Process.lt_size_of_kind (by rw [hkind]; simp)) _
  | carved hcls hlist hcarve =>
    rw [hcls]
    simp [Process.kind, Process.getElem?_addBlock, carvedBlock]
  | large hcls hlimit =>
    rw [hcls]
    simp [Process.kind, Process.withLarge]

/-- The block that a request hands out is in use. -/
theorem Served.live (h : Served s size (some a) s') (hlisted : s.allocator.Listed s.process) :
    s'.process.Live a := by
  have hkind := h.kind hlisted
  split at hkind
  · exact Process.live_pool hkind
  · exact Process.live_heap hkind

/-- The block that a request hands out is large enough. -/
theorem Served.le_usable (h : Served s size (some a) s')
    (hlisted : s.allocator.Listed s.process) : size ≤ (s'.process.kind a).usable := by
  rw [h.kind hlisted]
  split
  · rename_i cls hcls
    exact (SizeClass.le_bytes_of_ofSize? hcls).1
  · exact Nat.le_max_left _ _

/-- A block that is handed out holds what it held when it was freed, or what
the system gave. -/
theorem Served.unwritten (h : Served s size (some a) s') (hlisted : s.allocator.Listed s.process) :
    s.process.Unwritten s'.process a 0 := by
  cases h with
  | @reused cls _ rest hcls hlist =>
    have hfreed := hlisted.freed cls a (by rw [hlist]; exact List.mem_cons_self)
    have hlt := Process.lt_size_of_kind (p := s.process) (by rw [hfreed]; simp)
    exact ⟨_, .inl ⟨hlt, rfl⟩, fun i _ => by rw [Process.payload_setKind]⟩
  | @carved cls region start arenas process hcls hlist hcarve =>
    obtain ⟨requests, events, -, rfl⟩ := ArenaPool.sameBut_carve hcarve
    exact ⟨_, .inr ⟨region, start + blockPrefixSize, rfl⟩, fun i _ => by
      simp [Process.payload, Process.addBlock, carvedBlock]⟩
  | large hcls hlimit => exact Process.unwritten_withLarge _

/-- What a caller sees of a request. -/
theorem Served.hands (h : Served s size made s') (hlisted : s.allocator.Listed s.process) :
    s.process.Hands size made s'.process where
  others _ hb := h.getElem?_of_ne hb
  fresh := by rintro a rfl; exact h.not_live hlisted
  live := by rintro a rfl; exact h.live hlisted
  room := by rintro a rfl; exact h.le_usable hlisted
  unwritten := by rintro a rfl; exact (h.unwritten hlisted).mono (Nat.zero_le size)

/-- A request for zeroed bytes is one for bytes, which are zeroed then. -/
theorem allocZeroed_cases (h : s.allocZeroed size = (made, s')) :
    ∃ s₁, Served s size made s₁ ∧
      (made = none ∧ s' = s₁ ∨
        ∃ a, made = some a ∧
          s' = { s₁ with process := s₁.process.modifyPayload a (·.zero size) }) := by
  cases hmade : s.alloc size with
  | mk found s₁ =>
    have hserved := served_alloc hmade
    cases found with
    | none =>
      simp only [allocZeroed, hmade, Prod.mk.injEq] at h
      obtain ⟨rfl, rfl⟩ := h
      exact ⟨_, hserved, .inl ⟨rfl, rfl⟩⟩
    | some a =>
      simp only [allocZeroed, hmade, Prod.mk.injEq] at h
      obtain ⟨rfl, rfl⟩ := h
      exact ⟨_, hserved, .inr ⟨a, rfl, rfl⟩⟩

/-- What a caller sees of a request for zeroed bytes. -/
theorem hands_allocZeroed (h : s.allocZeroed size = (made, s'))
    (hlisted : s.allocator.Listed s.process) : s.process.Hands size made s'.process := by
  obtain ⟨s₁, hserved, ⟨rfl, rfl⟩ | ⟨a, rfl, rfl⟩⟩ := allocZeroed_cases h
  · exact hserved.hands hlisted
  · exact (hserved.hands hlisted).zero

/-- What is on a list after a request was there before, and is not what was
handed out. -/
theorem Served.mem_of_mem (h : Served s size made s') (hlisted : s.allocator.Listed s.process)
    {cls : SizeClass} (hb : b ∈ s'.allocator.freeLists[cls]) :
    b ∈ s.allocator.freeLists[cls] ∧ made ≠ some b := by
  cases h with
  | @reused served c rest hcls hlist =>
    simp only [PerClass.getElem_set] at hb
    have hnodup := hlisted.nodup served
    rw [hlist, List.nodup_cons] at hnodup
    by_cases hc : served = cls
    · subst hc
      rw [if_pos rfl] at hb
      refine ⟨by rw [hlist]; exact List.mem_cons_of_mem _ hb, fun heq => ?_⟩
      cases heq
      exact hnodup.1 hb
    · rw [if_neg hc] at hb
      refine ⟨hb, fun heq => ?_⟩
      cases heq
      -- The block would be marked with two classes.
      have hserved := hlisted.freed served b (by rw [hlist]; exact List.mem_cons_self)
      rw [hlisted.freed cls b hb] at hserved
      exact hc (by cases hserved; rfl)
  | carved hcls hlist hcarve =>
    refine ⟨hb, fun heq => ?_⟩
    cases heq
    have hkind := hlisted.freed cls _ hb
    rw [(ArenaPool.sameBut_carve hcarve).blocks] at hkind
    exact Nat.lt_irrefl _ (Process.lt_size_of_kind (by rw [hkind]; simp))
  | uncarved hcls hlist hcarve => exact ⟨hb, nofun⟩
  | large hcls hlimit =>
    refine ⟨hb, fun heq => ?_⟩
    cases heq
    have hkind := hlisted.freed cls _ hb
    exact Nat.lt_irrefl _ (Process.lt_size_of_kind (by rw [hkind]; simp))
  | refused hcls hsame => exact ⟨hb, nofun⟩

/-- A request keeps the lists in order. -/
theorem Served.listed (h : Served s size made s') (hlisted : s.allocator.Listed s.process) :
    s'.allocator.Listed s'.process where
  nodup cls := by
    cases h with
    | @reused served c rest hcls hlist =>
      simp only [PerClass.getElem_set]
      split
      · have hnodup := hlisted.nodup served
        rw [hlist, List.nodup_cons] at hnodup
        exact hnodup.2
      · exact hlisted.nodup cls
    | carved hcls hlist hcarve => exact hlisted.nodup cls
    | uncarved hcls hlist hcarve => exact hlisted.nodup cls
    | large hcls hlimit => exact hlisted.nodup cls
    | refused hcls hsame => exact hlisted.nodup cls
  freed cls b hb := by
    obtain ⟨hmem, hne⟩ := h.mem_of_mem hlisted hb
    rw [Process.kind_congr (h.getElem?_of_ne hne)]
    exact hlisted.freed cls b hmem

/-! ### Releases -/

/-- What a caller sees of a release. -/
theorem Freed.frees (h : Freed s a s') : s.process.Frees a s'.process := by
  cases h with
  | pool hkind =>
    exact Process.frees_setKind (Process.lt_size_of_live (Process.live_pool hkind)) _
  | heap hkind =>
    exact Process.frees_heapFree (Process.lt_size_of_live (Process.live_heap hkind)) _

/-- What is on a list after a release was there before, or is the block
that was released. -/
theorem Freed.mem_of_mem (h : Freed s a s') {cls : SizeClass}
    (hb : b ∈ s'.allocator.freeLists[cls]) : b ∈ s.allocator.freeLists[cls] ∨ b = a := by
  cases h with
  | @pool freed hkind =>
    simp only [withFreed, PerClass.getElem_set] at hb
    by_cases hc : freed = cls
    · subst hc
      rw [if_pos rfl] at hb
      rcases List.mem_cons.1 hb with rfl | hb
      · exact .inr rfl
      · exact .inl hb
    · rw [if_neg hc] at hb
      exact .inl hb
  | heap hkind => exact .inl hb

/-- A release keeps the lists in order. -/
theorem Freed.listed (h : Freed s a s') (hlisted : s.allocator.Listed s.process) :
    s'.allocator.Listed s'.process := by
  cases h with
  | @pool freed hkind =>
    have hlive := Process.live_pool hkind
    refine ⟨fun cls => ?_, fun cls b hb => ?_⟩
    · simp only [withFreed, PerClass.getElem_set]
      split
      -- a block in use is on no list, so it comes onto this one once
      · exact List.nodup_cons.2 ⟨fun hmem => hlisted.not_live hmem hlive, hlisted.nodup freed⟩
      · exact hlisted.nodup cls
    · simp only [withFreed, PerClass.getElem_set] at hb
      -- of the blocks on the lists only the one that was freed is marked anew
      by_cases hba : b = a
      · subst hba
        by_cases hc : freed = cls
        · subst hc
          exact Process.kind_setKind_self (Process.lt_size_of_live hlive) _
        · rw [if_neg hc] at hb
          exact absurd hlive (hlisted.not_live hb)
      · have hmem : b ∈ s.allocator.freeLists[cls] := by
          split at hb
          · rename_i hc
            subst hc
            exact (List.mem_cons.1 hb).resolve_left hba
          · exact hb
        exact (Process.kind_congr (Process.getElem?_setKind_of_ne hba _)).trans
          (hlisted.freed cls b hmem)
  | heap hkind =>
    refine ⟨hlisted.nodup, fun cls b hb => ?_⟩
    have hba : b ≠ a := fun heq => hlisted.not_live hb (heq ▸ Process.live_heap hkind)
    exact (Process.kind_congr (Process.getElem?_heapFree_of_ne hba _)).trans
      (hlisted.freed cls b hb)

/-- What waits after a release holds what it held before. -/
theorem Freed.payload (h : Freed s a s') {cls : SizeClass} (hb : s'.process.kind b = .freed cls) :
    s'.process.payload b = s.process.payload b := by
  by_cases hba : b = a
  · subst hba
    cases h with
    | pool hkind => exact Process.payload_setKind _ _ _ _
    | heap hkind =>
      rw [withReturned, Process.kind_heapFree_self
        (Process.lt_size_of_live (Process.live_heap hkind))] at hb
      cases hb
  · exact Process.payload_congr (h.frees.others b hba)

/-! ### Resizes -/

/-- A copy keeps the lists in order. -/
theorem listed_withCopy (h : s.allocator.Listed s.process) (count : Nat) :
    (s.withCopy a b count).allocator.Listed (s.withCopy a b count).process :=
  h.of_kind fun _ c _ => kind_withCopy s a b count c

/-- A block is still in use when another one was handed out and it was copied. -/
theorem Served.live_withCopy (h : Served s size (some b) s') (hba : b ≠ a)
    (hlive : s.process.Live a) (count : Nat) : (s'.withCopy a b count).process.Live a := by
  have hsame : s'.process.blocks[a]? = s.process.blocks[a]? :=
    h.getElem?_of_ne (by simpa using hba)
  rw [withCopy, Process.live_modifyPayload, Process.live_congr hsame]
  exact hlive

/-- A live block can be moved. The block that is handed out for it is another
one, so the old one is still in use when it is released. -/
theorem resized_move (hlive : s.process.Live a) (hlisted : s.allocator.Listed s.process)
    (hkind : ∀ cls, s.process.kind a = .pool cls → SizeClass.ofSize? size ≠ some cls) :
    ∃ moved s', move a (s.process.kind a).usable size s = .ok moved s' ∧
      Resized s a size moved s' := by
  cases hmade : s.alloc size with
  | mk made s₁ =>
    have hserved := served_alloc hmade
    cases made with
    | none => exact ⟨none, s₁, move_none hmade, .unmoved hserved⟩
    | some b =>
      have hba : b ≠ a := fun heq => hserved.not_live hlisted (heq ▸ hlive)
      obtain ⟨s₂, hfree, hfreed⟩ := freed_free
        (hserved.live_withCopy hba hlive (min (s.process.kind a).usable size))
      exact ⟨some b, s₂, move_some hmade hfree, .moved hkind hserved hfreed⟩

/-- A large block that stays large is resized by the system, if that is within
the limit of the allocator. -/
theorem resized_large {old : Nat} (hkind : s.process.kind a = .heap old)
    (hcls : SizeClass.ofSize? size = none) :
    ∃ moved s', realloc a size s = .ok moved s' ∧ Resized s a size moved s' := by
  cases hlimit : s.allocator.withinLimit (max size 1 - old) with
  | false => exact ⟨none, s, by simp [realloc, hkind, hcls, hlimit], .refused (.refl _)⟩
  | true =>
    cases hheap : s.process.heapRealloc a old size with
    | mk moved process =>
      cases moved with
      | none =>
        rcases Process.heapRealloc_cases hheap with ⟨-, hsame⟩ | ⟨h, -⟩ | ⟨h, -⟩
        · exact ⟨none, _, by simp [realloc, hkind, hcls, hlimit, hheap], .refused hsame⟩
        · cases h
        · cases h
      | some b =>
        exact ⟨some b, _, by simp [realloc, hkind, hcls, hlimit, hheap],
          .resized hkind hcls hlimit hheap⟩

/-- A live block can be resized. -/
theorem resized_realloc (hlive : s.process.Live a) (hlisted : s.allocator.Listed s.process)
    (size : Nat) : ∃ moved s', realloc a size s = .ok moved s' ∧ Resized s a size moved s' := by
  rcases Process.live_cases hlive with ⟨cls, hkind⟩ | ⟨old, hkind⟩
  · by_cases hcls : SizeClass.ofSize? size = some cls
    · exact ⟨some a, s, by simp only [realloc, hkind, hcls, if_true], .stays hkind hcls⟩
    -- a small block of another class moves
    · have hother : ∀ c, s.process.kind a = .pool c → SizeClass.ofSize? size ≠ some c := by
        intro c hc
        rw [hkind] at hc
        cases hc
        exact hcls
      obtain ⟨moved, s', hmoved, hresized⟩ := resized_move hlive hlisted hother
      refine ⟨moved, s', ?_, hresized⟩
      rw [hkind] at hmoved
      simp only [realloc, hkind, if_neg hcls]
      exact hmoved
  · cases hcls : SizeClass.ofSize? size with
    | none => exact resized_large hkind hcls
    -- and so does a large block that becomes small
    | some cls =>
      have hother : ∀ c, s.process.kind a = .pool c → SizeClass.ofSize? size ≠ some c := by
        intro c hc
        rw [hkind] at hc
        cases hc
      obtain ⟨moved, s', hmoved, hresized⟩ := resized_move hlive hlisted hother
      refine ⟨moved, s', ?_, hresized⟩
      rw [hkind] at hmoved
      simp only [realloc, hkind, hcls]
      exact hmoved

/-- What a caller sees of a resize. -/
theorem Resized.moves {moved : Option Address} (h : Resized s a size moved s')
    (hlive : s.process.Live a) (hlisted : s.allocator.Listed s.process) :
    s.process.Moves a size moved s'.process := by
  cases h with
  | @stays cls hkind hcls =>
    -- nothing has happened, so all there is to see is that the class has room
    refine ⟨fun _ _ _ => rfl, nofun, ?_, ?_, ?_, ?_, ?_⟩
    · rintro _ ⟨⟩ hne
      exact absurd rfl hne
    · rintro _ ⟨⟩
      exact hlive
    · rintro _ ⟨⟩
      rw [hkind]
      exact (SizeClass.le_bytes_of_ofSize? hcls).1
    · rintro _ ⟨⟩ i -
      rfl
    · rintro _ ⟨⟩
      exact ⟨_, .inl ⟨Process.lt_size_of_live hlive, rfl⟩, fun _ _ => rfl⟩
  | moved hkind hserved hfreed =>
    exact (hserved.hands hlisted).moves (hserved.unwritten hlisted) hlive rfl hfreed.frees
  | unmoved hserved =>
    exact ⟨fun c _ _ => by rw [hserved.blocks_of_none], fun _ => by rw [hserved.blocks_of_none],
      nofun, nofun, nofun, nofun, nofun⟩
  | resized hkind hcls hlimit hheap => exact Process.moves_heapRealloc hheap hkind
  | refused hsame =>
    exact ⟨fun c _ _ => by rw [hsame.blocks], fun _ => by rw [hsame.blocks], nofun, nofun, nofun,
      nofun, nofun⟩

/-- A resize keeps the lists in order. -/
theorem Resized.listed {moved : Option Address} (h : Resized s a size moved s')
    (hlisted : s.allocator.Listed s.process) : s'.allocator.Listed s'.process := by
  cases h with
  | stays hkind hcls => exact hlisted
  | moved hkind hserved hfreed =>
    exact hfreed.listed (listed_withCopy (hserved.listed hlisted) _)
  | unmoved hserved => exact hserved.listed hlisted
  | resized hkind hcls hlimit hheap =>
    have hlisted' := Allocator.listed_heapRealloc hlisted hkind hheap
    exact ⟨hlisted'.nodup, hlisted'.freed⟩
  | refused hsame => exact hlisted.of_kind fun cls c _ => Process.kind_congr (by rw [hsame.blocks])

/-- What waits after a resize holds what it held before. -/
theorem Resized.payload {moved : Option Address} (h : Resized s a size moved s')
    (hlive : s.process.Live a) (hlisted : s.allocator.Listed s.process) {cls : SizeClass}
    (hb : s'.process.kind b = .freed cls) : s'.process.payload b = s.process.payload b := by
  have hmoves := h.moves hlive hlisted
  by_cases hba : b = a
  · subst hba
    cases h with
    | stays hkind hcls => rfl
    | @moved c s₁ _ hkind hserved hfreed =>
      have hne : c ≠ b := fun heq => (hserved.hands hlisted).fresh c rfl (heq ▸ hlive)
      rw [hfreed.payload hb]
      refine (Process.payload_modifyPayload_of_ne (Ne.symm hne) _).trans ?_
      exact Process.payload_congr (hserved.getElem?_of_ne (fun heq => hne (by cases heq; rfl)))
    | unmoved hserved => exact Process.payload_congr (hmoves.unmoved rfl)
    | resized hkind hcls hlimit hheap =>
      obtain ⟨rfl | ⟨-, hforeign⟩, hheld, -⟩ := Process.heapRealloc_some hheap hkind
      · rw [hheld] at hb
        cases hb
      · rw [hforeign] at hb
        cases hb
    | refused hsame => exact Process.payload_congr (hmoves.unmoved rfl)
  · refine Process.payload_congr (hmoves.others b hba ?_)
    rintro rfl
    exact Process.not_live_freed hb (hmoves.live b rfl)

end Storage

end ExtensionHost
