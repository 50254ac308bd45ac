import ExtensionHost.Proofs.Storage.Image

/-!
# `ExtensionHost.Proofs.Storage.InMemory`: an allocator at work in memory

An allocator that follows links in memory does what the one with lists does. Each
operation is followed step by step: it finds in memory what the other finds in its
table and its lists, answers the same, and leaves memory showing what that leaves
(`Shown.alloc`, `Shown.free`, `Shown.realloc`). So there is nothing that it could
find in memory but what an allocator put there.

Each of these says as well which bytes have been written. They are never more than
the prefixes of the blocks that the operation is about and as many bytes as were to
be copied, so nothing is written behind the end of a block.
-/

set_option autoImplicit false

namespace ExtensionHost

/-- What an allocator has in memory depends on where the blocks on its lists are. -/
theorem Allocator.flat_congr {allocator : Allocator} {front front' : Address → Place}
    (h : ∀ (cls : SizeClass) (a : Address), a ∈ allocator.freeLists[cls] → front' a = front a) :
    allocator.flat front' = allocator.flat front := by
  have hheads : allocator.freeLists.map (·.head?.map front')
      = allocator.freeLists.map (·.head?.map front) := by
    refine PerClass.ext_getElem fun cls => ?_
    rw [PerClass.getElem_map, PerClass.getElem_map]
    exact Option.map_congr fun a ha => h cls a (List.mem_of_mem_head? ha)
  rw [Allocator.flat, Allocator.flat, hheads]

/-- The head of a list is the start of its first block. -/
theorem Allocator.getElem_heads (allocator : Allocator) (front : Address → Place)
    (cls : SizeClass) :
    (allocator.flat front).heads[cls] = (allocator.freeLists[cls]).head?.map front :=
  PerClass.getElem_map _ _ _

/-- The bytes of large blocks are counted alike. -/
theorem Allocator.flat_setHeapLive (allocator : Allocator) (bytes : Nat)
    (front : Address → Place) :
    (allocator.setHeapLive bytes).flat front = (allocator.flat front).setHeapLive bytes := rfl

/-- Another list of a class has another head. -/
theorem Allocator.heads_set (allocator : Allocator) (front : Address → Place) (cls : SizeClass)
    (list : List Address) :
    (allocator.flat front).heads.set cls (list.head?.map front) =
      (allocator.freeLists.set cls list).map (·.head?.map front) := by
  refine PerClass.ext_getElem fun c => ?_
  rw [PerClass.getElem_set, PerClass.getElem_map, PerClass.getElem_set]
  split
  · rfl
  · exact allocator.getElem_heads front c

/-- The bytes that are written when the block at `a` is resized and is at `b`
afterwards. -/
inductive Process.ResizeWrites (p p' : Process) (a b : Address) (size : Nat) (x : Place) : Prop
  /-- The prefix of the block where it is afterwards. -/
  | made (h : x.Within (p'.front b) blockPrefixSize)
  /-- The prefix of the block where it was. -/
  | ended (h : x.Within (p.front a) blockPrefixSize)
  /-- What both sizes reach, in another place. -/
  | copied (hb : b ≠ a) (h : x.Within (p'.place b) (min (p.kind a).usable size))
  /-- The bytes that the system added in the same place. -/
  | stretched (hb : b = a)
      (h : x.Within ((p'.place b).shift (p.kind a).usable) (size - (p.kind a).usable))

/-- A resize in place writes the prefix and the bytes that the system added. -/
theorem Process.resizeWrites_stretched {p : Process} {a : Address} {old size : Nat}
    {memory : FlatMemory} {x : Place} (hkind : p.kind a = .heap old)
    (hx : p.stretchedMemory a old size memory x ≠ memory x) :
    p.ResizeWrites (p.stretched a old size) a a size x := by
  have husable : (p.kind a).usable = old := by rw [hkind]; rfl
  have hplace : (p.stretched a old size).place a = p.place a := by
    rw [Process.place, Process.place, p.front_stretched]
  rcases Process.within_stretchedMemory hx with hfront | ⟨hregion, hle, hlt⟩
  · exact .ended hfront
  · refine .stretched rfl ⟨hplace ▸ hregion, ?_, ?_⟩ <;> rw [husable] <;>
      simp only [hplace, Place.shift] at hle hlt ⊢ <;> omega

/-- A resize elsewhere writes the prefix of the new block and what both sizes reach. -/
theorem Process.resizeWrites_relocated {p : Process} {a : Address} {old size : Nat}
    {memory : FlatMemory} {x : Place} (hkind : p.kind a = .heap old)
    (hx : p.relocatedMemory a old size memory x ≠ memory x) :
    p.ResizeWrites (p.relocated a old size) a p.blocks.size size x := by
  have ha : p.blocks.size ≠ a := Nat.ne_of_gt (Process.lt_size_of_live (Process.live_heap hkind))
  rcases Process.within_relocatedMemory hx with hmade | hcopied
  · exact .made (by rw [p.front_relocated]; exact hmade)
  · refine .copied ha ?_
    rw [hkind, Process.place, p.front_relocated]
    exact hcopied

namespace Storage

variable {s s' : Storage} {a b : Address} {size count : Nat} {made moved : Option Address}
  {rest : List Arena} {link link' : Address → Option Address} {memory : FlatMemory}

/-- One allocator at work, as it lies in memory. -/
def flat (s : Storage) (memory : FlatMemory) : FlatStorage :=
  ⟨s.allocator.flat s.process.front, s.process.flat memory⟩

/-- What is asked of the system is asked of it in memory. -/
theorem flat_process (s : Storage) (memory : FlatMemory) :
    (s.flat memory).process = s.process.flat memory := rfl

/-- The head of a list in memory is where the prefix of its first block is. -/
theorem flat_heads (s : Storage) (memory : FlatMemory) (cls : SizeClass) :
    (s.flat memory).allocator.heads[cls] = (s.allocator.freeLists[cls]).head?.map s.process.front :=
  s.allocator.getElem_heads s.process.front cls

/-- Arenas are cut alike, whether there is a table or memory. -/
theorem flat_carve {bytes : Nat} {found : Option (Nat × Nat)} {arenas : ArenaPool}
    {process : Process}
    (hcarve : s.allocator.arenas.carve s.process bytes = (found, arenas, process))
    (memory : FlatMemory) :
    (s.flat memory).allocator.arenas.carve (s.flat memory).process.books bytes =
      (found, arenas, (process.flat memory).books) := by
  refine (ArenaPool.carve_books s.allocator.arenas s.process memory bytes).trans ?_
  rw [hcarve]

/-- Memory shows the blocks, and the lists of the allocator follow the links. -/
structure Shown (s : Storage) (link : Address → Option Address) (rest : List Arena)
    (memory : FlatMemory) : Prop where
  listed : s.allocator.Listed s.process
  linked : ∀ cls : SizeClass, SharedStorage.Linked link s.allocator.freeLists[cls]
  layout : s.process.Layout (s.allocator.arenas.arenas.toList ++ rest)
  process : s.process.Shown link (s.allocator.arenas.arenas.toList ++ rest) memory

/-- In front of a small block stands its class. -/
theorem Shown.read_pool {cls : SizeClass} (h : s.Shown link rest memory)
    (hkind : s.process.kind a = .pool cls) :
    (s.flat memory).process.prefixOf (s.process.place a) = .pool cls := by
  refine (h.process.prefixOf_flat (Process.ne_foreign_of_live (Process.live_pool hkind))).trans ?_
  rw [Process.prefixOf, hkind]

/-- In front of a large block stands its size. -/
theorem Shown.read_heap {old : Nat} (h : s.Shown link rest memory)
    (hkind : s.process.kind a = .heap old) :
    (s.flat memory).process.prefixOf (s.process.place a) = .heap old := by
  refine (h.process.prefixOf_flat (Process.ne_foreign_of_live (Process.live_heap hkind))).trans ?_
  rw [Process.prefixOf, hkind]

/-- What is on a list is in the table. -/
theorem Shown.lt_size (h : s.Shown link rest memory) {cls : SizeClass}
    (ha : a ∈ s.allocator.freeLists[cls]) : a < s.process.blocks.size :=
  Process.lt_size_of_kind (Process.ne_foreign_of_freed (h.listed.freed cls a ha))

/-- The lists and the layout are in order after a request. -/
theorem Shown.served {memory' : FlatMemory} (h : s.Shown link rest memory)
    (hserved : Served s size made s') (hlink : ∀ b, made ≠ some b → link' b = link b)
    (hprocess : s'.process.Shown link' (s'.allocator.arenas.arenas.toList ++ rest) memory') :
    s'.Shown link' rest memory' where
  listed := hserved.listed h.listed
  linked cls := (hserved.linked (h.linked cls)).congr fun b hb =>
    hlink b (hserved.mem_of_mem h.listed hb).2
  layout := hserved.layout h.listed h.layout
  process := hprocess

/-- The head of a list is handed out, and the link in its prefix becomes the head. -/
theorem Shown.reused {cls : SizeClass} {list : List Address} (h : s.Shown link rest memory)
    (hcls : SizeClass.ofSize? size = some cls) (hlist : s.allocator.freeLists[cls] = a :: list)
    (hrun : s.alloc size = (some a, s')) (hlink : ∀ b, b ≠ a → link' b = link b)
    (hnone : link' a = none) :
    (s.flat memory).alloc size = (some (s'.process.place a),
        s'.flat (memory.writePrefix (s'.process.front a) (.pool cls))) ∧
      s'.Shown link' rest (memory.writePrefix (s'.process.front a) (.pool cls)) := by
  have hserved := served_alloc hrun
  have hs' : s' = ⟨{ s.allocator with
      freeLists := s.allocator.freeLists.set cls list
      hits := s.allocator.hits + 1
      inUse := s.allocator.inUse + 1 }, s.process.setKind a (.pool cls)⟩ := by
    simp only [alloc, hcls, allocPooled, hlist] at hrun
    exact (Prod.mk.inj hrun).2.symm
  have hfreed : s.process.kind a = .freed cls :=
    h.listed.freed cls a (by rw [hlist]; exact List.mem_cons_self)
  have hne := Process.ne_foreign_of_freed hfreed
  have hfronts : s'.process.front = s.process.front := by
    rw [hs']
    exact funext fun b => Process.front_congr (Process.site_setKind _ _ _ _)
  have hprefix : memory.prefixAt (s.process.front a) = s.process.prefixOf link a := by
    rw [FlatMemory.prefixAt, (h.process.block a).front hne]
  -- the link that is read is the one to the rest of the list
  have hnext : (s.process.prefixOf link a).next = list.head?.map s.process.front := by
    have hlinked := h.linked cls
    rw [hlist] at hlinked
    rw [Process.next_prefixOf hfreed, hlinked.1]
  refine ⟨?run, h.served hserved (fun b hb => hlink b fun heq => hb (by rw [heq])) ?shown⟩
  case run =>
    have hhead : (s.flat memory).allocator.heads[cls] = some (s.process.front a) := by
      rw [flat_heads, hlist]
      rfl
    have hmemory : (s.flat memory).process.memory = memory := rfl
    simp only [FlatStorage.alloc, hcls, FlatStorage.allocPooled, hhead, hmemory, hprefix, hnext]
    rw [Process.place, hfronts, flat, flat, hfronts]
    simp only [s.allocator.heads_set]
    rw [hs']
    rfl
  case shown =>
    have hblock : (s.process.setKind a (.pool cls)).prefixOf link' a = .pool cls := by
      rw [Process.prefixOf, Process.kind_setKind_self (Process.lt_size_of_kind hne)]
    rw [hfronts, hs', ← hblock]
    refine h.process.setKind h.layout hne (.inr ⟨by rw [hfreed]; rfl, rfl⟩) hlink fun b hb => ?_
    rw [hnone] at hb
    cases hb

/-- The fronts of what is on the lists stay where they are. -/
theorem Shown.flat_eq (h : s.Shown link rest memory) {p' : Process}
    (hsites : ∀ b, b < s.process.blocks.size → p'.site b = s.process.site b) :
    s.allocator.flat p'.front = s.allocator.flat s.process.front :=
  Allocator.flat_congr fun _ b hb => Process.front_congr (hsites b (h.lt_size hb))

/-- A block is cut from an arena, and its prefix is written. -/
theorem Shown.carved {cls : SizeClass} {region start : Nat} {arenas : ArenaPool} {process : Process}
    (h : s.Shown link rest memory) (hcls : SizeClass.ofSize? size = some cls)
    (hlist : s.allocator.freeLists[cls] = [])
    (hcarve : s.allocator.arenas.carve s.process (blockPrefixSize + cls.bytes)
      = (some (region, start), arenas, process))
    (hrun : s.alloc size = (some a, s')) (hlink : ∀ b, b ≠ a → link' b = link b)
    (hnone : link' a = none) :
    (s.flat memory).alloc size = (some (s'.process.place a),
        s'.flat (memory.writePrefix (s'.process.front a) (.pool cls))) ∧
      s'.Shown link' rest (memory.writePrefix (s'.process.front a) (.pool cls)) := by
  have hserved := served_alloc hrun
  obtain ⟨rfl, rfl⟩ : a = process.blocks.size ∧ s' = ⟨{ s.allocator with
      arenas
      carved := s.allocator.carved + 1
      inUse := s.allocator.inUse + 1 },
      (process.addBlock (carvedBlock process cls region start)).2⟩ := by
    simp only [alloc, hcls, allocPooled, hlist, hcarve] at hrun
    cases hrun
    exact ⟨rfl, rfl⟩
  have hsame := ArenaPool.sameBut_carve hcarve
  have honly := Process.onlyAt_addBlock process (carvedBlock process cls region start)
  have hnew : (process.addBlock (carvedBlock process cls region start)).2.blocks[
      process.blocks.size]? = some (carvedBlock process cls region start) := by
    rw [Process.getElem?_addBlock, if_pos rfl]
  have hfront : (process.addBlock (carvedBlock process cls region start)).2.front
      process.blocks.size = ⟨region, start⟩ := by
    rw [Process.front, Process.site, hnew]
    simp only [carvedBlock, Nat.add_sub_cancel]
  have hlists : s.allocator.flat (process.addBlock (carvedBlock process cls region start)).2.front
      = s.allocator.flat s.process.front := by
    refine h.flat_eq fun b hb => ?_
    rw [← hsame.blocks] at hb
    exact (honly.sites b hb).trans (Process.site_congr (by rw [hsame.blocks]))
  refine ⟨?run, h.served hserved (fun b hb => hlink b fun heq => hb (by rw [heq])) ?shown⟩
  case run =>
    have hhead : (s.flat memory).allocator.heads[cls] = none := by
      rw [flat_heads, hlist]
      rfl
    simp only [FlatStorage.alloc, hcls, FlatStorage.allocPooled, hhead, flat_carve hcarve]
    simp only [Process.place, hfront, flat]
    have hallocator : ∀ (carved inUse : Nat), ({ s.allocator with arenas, carved, inUse } :
        Allocator).flat (process.addBlock (carvedBlock process cls region start)).2.front =
          { s.allocator.flat s.process.front with arenas, carved, inUse } := by
      intro carved inUse
      rw [← hlists]
      rfl
    rw [hallocator]
    rfl
  case shown =>
    -- the bytes that are cut are as the system gave them, since nobody had them before
    obtain ⟨hprocess, huncut⟩ := ArenaPool.shown_carve hcarve h.process
    have hblock : (process.addBlock (carvedBlock process cls region start)).2.prefixOf link'
        process.blocks.size = .pool cls := by
      rw [Process.prefixOf, Process.kind, hnew]
      rfl
    rw [← hblock]
    refine hprocess.addBlock honly hnew (hserved.layout h.listed h.layout) (by simp [carvedBlock])
      (fun i _ => ?_)
      hlink hnone
    rw [Process.place, hfront, Place.payload, Place.shift, Place.shift,
      huncut _ (by simp only; omega)]
    simp only [FlatMemory.given, carvedBlock, System.fresh, Payload.cell_mk_empty]

/-- A large block is made. -/
theorem Shown.large {p' : Process} (h : s.Shown link rest memory)
    (hcls : SizeClass.ofSize? size = none) (hlimit : s.allocator.withinLimit size = true)
    (hheap : s.process.heapAlloc size = (some a, p')) (hrun : s.alloc size = (some a, s'))
    (hlink : ∀ b, b ≠ a → link' b = link b) (hnone : link' a = none) :
    (s.flat memory).alloc size = (some (s'.process.place a),
        s'.flat (memory.writePrefix (s'.process.front a) (.heap (max size 1)))) ∧
      s'.Shown link' rest (memory.writePrefix (s'.process.front a) (.heap (max size 1))) := by
  have hserved := served_alloc hrun
  obtain rfl : s' = ⟨s.allocator.setHeapLive (s.allocator.heapLive + max size 1), p'⟩ := by
    simp only [alloc, hcls, allocHeap, hlimit, if_true, hheap] at hrun
    exact (Prod.mk.inj hrun).2.symm
  have hlists : s.allocator.flat p'.front = s.allocator.flat s.process.front := by
    refine h.flat_eq fun b hb => Process.site_congr ?_
    refine (Process.hands_heapAlloc hheap).others b ?_
    rcases Process.heapAlloc_cases hheap with ⟨hnothing, -⟩ | ⟨hmade, -⟩
    · cases hnothing
    · rw [hmade]
      exact fun heq => Nat.ne_of_gt hb (Option.some.inj heq)
  refine ⟨?run, h.served hserved (fun b hb => hlink b fun heq => hb (by rw [heq])) ?shown⟩
  case run =>
    have hlimit' : (s.flat memory).allocator.books.withinLimit size = true := hlimit
    have hheap' := Process.flat_heapAlloc_some hheap memory
    simp only [FlatStorage.alloc, hcls, FlatStorage.allocHeap, hlimit', if_true]
    rw [flat_process, hheap']
    simp only [flat, Allocator.flat_setHeapLive, hlists]
    rfl
  case shown => exact h.process.heapAlloc h.layout hheap hlink hnone

/-- A process in which nothing but marks and counters has changed has the same links. -/
theorem Shown.flat_sameBut (h : s.Shown link rest memory) {p' : Process}
    (hsame : s.process.SameBut p') :
    s.allocator.flat p'.front = s.allocator.flat s.process.front :=
  h.flat_eq fun b _ => Process.site_congr (by rw [hsame.blocks])

/-- A pool that can cut nothing has no block on the list either, in the table or in memory. -/
theorem Shown.refused_pooled {cls : SizeClass} (h : s.Shown link rest memory)
    (hrun : s.allocPooled cls = (none, s')) :
    (s.flat memory).allocPooled cls = (none, s'.flat memory) := by
  cases hlist : s.allocator.freeLists[cls] with
  | cons b list =>
    simp only [allocPooled, hlist] at hrun
    cases hrun
  | nil =>
    cases hcarve : s.allocator.arenas.carve s.process (blockPrefixSize + cls.bytes) with
    | mk found after =>
      obtain ⟨arenas, process⟩ := after
      cases found with
      | some place =>
        simp only [allocPooled, hlist, hcarve] at hrun
        cases hrun
      | none =>
        simp only [allocPooled, hlist, hcarve] at hrun
        cases hrun
        have hhead : (s.flat memory).allocator.heads[cls] = none := by
          rw [flat_heads, hlist]
          rfl
        have hallocator : ({ s.allocator with arenas } : Allocator).flat process.front =
            { s.allocator.flat s.process.front with arenas } := by
          rw [← h.flat_sameBut (ArenaPool.sameBut_carve hcarve)]
          rfl
        simp only [FlatStorage.allocPooled, hhead, flat_carve hcarve]
        simp only [flat, hallocator]
        rfl

/-- A large block is refused by the limit or by the system, for the table and for memory
alike. -/
theorem Shown.refused_heap (h : s.Shown link rest memory)
    (hrun : s.allocHeap size = (none, s')) :
    (s.flat memory).allocHeap size = (none, s'.flat memory) := by
  cases hlimit : s.allocator.withinLimit size with
  | false =>
    have hlimit' : (s.flat memory).allocator.books.withinLimit size = false := hlimit
    simp only [allocHeap, hlimit, Bool.false_eq_true, if_false] at hrun
    cases hrun
    simp only [FlatStorage.allocHeap, hlimit', Bool.false_eq_true, if_false]
    rfl
  | true =>
    have hlimit' : (s.flat memory).allocator.books.withinLimit size = true := hlimit
    cases hheap : s.process.heapAlloc size with
    | mk found process =>
      cases found with
      | some b =>
        simp only [allocHeap, hlimit, if_true, hheap] at hrun
        cases hrun
      | none =>
        simp only [allocHeap, hlimit, if_true, hheap] at hrun
        cases hrun
        -- the system refused, so only the record of requests has changed
        have hsame : s.process.SameBut process := by
          rcases Process.heapAlloc_cases hheap with ⟨-, hsame⟩ | ⟨hmade, -⟩
          · exact hsame
          · cases hmade
        have hheap' := Process.flat_heapAlloc_none hheap memory
        simp only [FlatStorage.allocHeap, hlimit', if_true]
        rw [flat_process, hheap']
        simp only [flat, h.flat_sameBut hsame]

/-- A request is refused, without anything being written. -/
theorem Shown.refused (h : s.Shown link rest memory) (hrun : s.alloc size = (none, s')) :
    (s.flat memory).alloc size = (none, s'.flat memory) ∧ s'.Shown link rest memory := by
  have hserved := served_alloc hrun
  refine ⟨?run, h.served hserved (fun _ _ => rfl) ?shown⟩
  case run =>
    cases hcls : SizeClass.ofSize? size with
    | some cls =>
      simp only [alloc, hcls] at hrun
      simp only [FlatStorage.alloc, hcls]
      exact h.refused_pooled hrun
    | none =>
      simp only [alloc, hcls] at hrun
      simp only [FlatStorage.alloc, hcls]
      exact h.refused_heap hrun
  case shown =>
    cases hserved with
    | uncarved hcls hlist hcarve => exact ArenaPool.shown_carve_none hcarve h.process
    | refused hcls hsame => exact h.process.sameBut hsame

/-- A request finds in memory what it finds in the table, and writes the prefix of what
it hands out. -/
theorem Shown.alloc (h : s.Shown link rest memory) (link' : Address → Option Address)
    (hrun : s.alloc size = (made, s'))
    (hlink : ∀ b, made ≠ some b → link' b = link b) (hnone : ∀ a, made = some a → link' a = none) :
    ∃ memory', (s.flat memory).alloc size = (made.map s'.process.place, s'.flat memory') ∧
      s'.Shown link' rest memory' ∧
      ∀ x, memory' x ≠ memory x →
        ∃ a, made = some a ∧ x.Within (s'.process.front a) blockPrefixSize := by
  cases made with
  | none =>
    obtain rfl : link' = link := funext fun b => hlink b (Option.some_ne_none b).symm
    obtain ⟨hflat, hshown⟩ := h.refused hrun
    exact ⟨memory, hflat, hshown, fun x hx => absurd rfl hx⟩
  | some a =>
    have hothers : ∀ b, b ≠ a → link' b = link b :=
      fun b hb => hlink b fun heq => hb (by cases heq; rfl)
    have hwritten : ∀ block x, memory.writePrefix (s'.process.front a) block x ≠ memory x →
        ∃ b, some a = some b ∧ x.Within (s'.process.front b) blockPrefixSize :=
      fun block x hx => ⟨a, rfl, FlatMemory.within_of_overwrite hx⟩
    cases served_alloc hrun with
    | reused hcls hlist =>
      obtain ⟨hflat, hshown⟩ := h.reused hcls hlist hrun hothers (hnone a rfl)
      exact ⟨_, hflat, hshown, hwritten _⟩
    | carved hcls hlist hcarve =>
      obtain ⟨hflat, hshown⟩ := h.carved hcls hlist hcarve hrun hothers (hnone _ rfl)
      exact ⟨_, hflat, hshown, hwritten _⟩
    | large hcls hlimit =>
      cases hheap : s.process.heapAlloc size with
      | mk found process =>
        -- the way it was served does not name the block, so the request is run once more
        have hran := hrun
        simp only [Storage.alloc, hcls, allocHeap, hlimit, if_true, hheap] at hran
        cases found with
        | none => cases hran
        | some b =>
          obtain rfl : b = s.process.blocks.size := Option.some.inj (Prod.mk.inj hran).1
          obtain ⟨hflat, hshown⟩ := h.large hcls hlimit hheap hrun hothers (hnone _ rfl)
          exact ⟨_, hflat, hshown, hwritten _⟩

/-- A block that is freed becomes the head of its list, with a link to what was the
head, or goes back to the system. Its prefix alone is written. -/
theorem Shown.free (h : s.Shown link rest memory) (link' : Address → Option Address)
    (hfreed : Freed s a s')
    (hrun : Storage.free a s = .ok () s') (hlink : ∀ b, b ≠ a → link' b = link b)
    (hhead : ∀ cls, s.process.kind a = .pool cls →
      link' a = (s.allocator.freeLists[cls]).head?)
    (hlarge : ∀ old, s.process.kind a = .heap old → link' a = link a) :
    ∃ memory', FlatStorage.free (s.process.place a) (s.flat memory) = .ok () (s'.flat memory') ∧
      s'.Shown link' rest memory' ∧
      ∀ x, memory' x ≠ memory x → x.Within (s.process.front a) blockPrefixSize := by
  have hlive : s.process.Live a := by
    cases hfreed with
    | pool hkind => exact Process.live_pool hkind
    | heap hkind => exact Process.live_heap hkind
  have hne := Process.ne_foreign_of_live hlive
  have hfronts : ∀ kind, (s.process.setKind a kind).front = s.process.front := fun kind =>
    funext fun b => Process.front_congr (Process.site_setKind _ _ _ _)
  have hshown : ∀ memory', s'.process.Shown link' (s'.allocator.arenas.arenas.toList ++ rest)
      memory' → s'.Shown link' rest memory' := fun memory' hprocess =>
    ⟨hfreed.listed h.listed, fun cls => hfreed.linked hlive h.listed hlink hhead (h.linked cls),
      hfreed.layout h.layout, hprocess⟩
  cases hfreed with
  | @pool cls hkind =>
    -- the prefix that is written links to the head that was there before
    have hblock' : (s.process.setKind a (.freed cls)).prefixOf link' a =
        .freed cls (s.flat memory).allocator.heads[cls] := by
      rw [Process.prefixOf, Process.kind_setKind_self (Process.lt_size_of_kind hne), hfronts,
        hhead cls hkind, flat_heads]
    have hheads := s.allocator.heads_set s.process.front cls (a :: s.allocator.freeLists[cls])
    rw [List.head?_cons, Option.map_some] at hheads
    refine ⟨memory.writePrefix (s.process.front a)
      (.freed cls (s.flat memory).allocator.heads[cls]),
      ?run, hshown _ ?shown, fun x hx => FlatMemory.within_of_overwrite hx⟩
    case run =>
      simp only [FlatStorage.free, h.read_pool hkind]
      rw [Process.place, Place.front_payload]
      simp only [flat, withFreed, hfronts, hheads]
      rfl
    case shown =>
      rw [← hblock']
      refine h.process.setKind h.layout hne (.inr ⟨by rw [hkind]; rfl, rfl⟩) hlink fun b hb => ?_
      rw [hhead cls hkind] at hb
      exact h.lt_size (List.mem_of_mem_head? hb)
  | @heap old hkind =>
    refine ⟨memory.writePrefix (s.process.front a) .poisoned, ?run, hshown _ ?shown,
      fun x hx => FlatMemory.within_of_overwrite hx⟩
    case run =>
      simp only [FlatStorage.free, h.read_heap hkind]
      have hfront : (s.withReturned a old).process.front = s.process.front := hfronts .foreign
      rw [FlatProcess.heapFree, Process.place, Place.front_payload]
      simp only [flat, hfront]
      rfl
    case shown =>
      -- counters are no part of what is shown
      have hmarked : (s.process.setKind a .foreign).Shown link'
          (s.allocator.arenas.arenas.toList ++ rest)
          (memory.writePrefix (s.process.front a) .poisoned) :=
        h.process.setKind h.layout hne (.inl rfl) hlink fun b hb =>
          h.process.links a b (hlarge old hkind ▸ hb)
      exact ⟨fun b => ⟨(hmarked.block b).front, (hmarked.block b).cells⟩, hmarked.links,
        hmarked.uncut, hmarked.ungiven⟩

/-- What one block holds is copied to another one, as far as both have room. -/
theorem Shown.withCopy (h : s.Shown link rest memory) (hb : s.process.kind b ≠ .foreign)
    (hfrom : count ≤ (s.process.kind a).room) (hto : count ≤ (s.process.kind b).room) :
    (s.withCopy a b count).Shown link rest
      (memory.copy (s.process.place a) (s.process.place b) count) where
  listed := listed_withCopy h.listed count
  linked := h.linked
  layout := h.layout.modifyPayload b (·.copyFrom (s.process.payload a) count)
  process := by
    have hroom : 0 + count ≤ (s.process.kind b).room := by omega
    show (s.process.modifyPayload b (·.copyFrom (s.process.payload a) count)).Shown link
      (s.allocator.arenas.arenas.toList ++ rest)
      (memory.overwrite ((s.process.place b).shift 0) count fun i =>
        memory ((s.process.place a).shift i))
    refine h.process.modifyPayload h.layout hb hroom (fun i hi => ?_) fun i hi => ?_
    · rw [Nat.zero_add, Payload.cell_copyFrom, if_pos hi]
      exact (h.process.block a).cells i (by omega)
    · rw [Payload.cell_copyFrom, if_neg (by omega)]

/-- What blocks hold is in memory alone. -/
theorem flat_modifyPayload (s : Storage) (a : Address) (fill : Payload → Payload)
    (memory : FlatMemory) :
    flat { s with process := s.process.modifyPayload a fill } memory = s.flat memory := by
  have hfronts : (s.process.modifyPayload a fill).front = s.process.front :=
    funext fun c => Process.front_congr (Process.site_modifyPayload _ _ _ _)
  rw [flat, flat, hfronts]
  rfl

/-- Copying in memory is copying in the table. -/
theorem flat_withCopy (s : Storage) (a b : Address) (count : Nat) (memory : FlatMemory) :
    ({ s.flat memory with
      process := (s.flat memory).process.write
        (·.copy (s.process.place a) (s.process.place b) count) } : FlatStorage) =
      (s.withCopy a b count).flat (memory.copy (s.process.place a) (s.process.place b) count) :=
  (flat_modifyPayload s b _ _).symm

/-- How the links change when the block at `a` is resized. -/
structure Relinks (s : Storage) (a : Address) (moved : Option Address)
    (link link' : Address → Option Address) : Prop where
  stays : moved = none ∨ moved = some a → link' = link
  made : ∀ b, moved = some b → b ≠ a → link' b = none
  others : ∀ b c, moved = some b → b ≠ a → c ≠ a → c ≠ b → link' c = link c
  head : ∀ b, moved = some b → b ≠ a → ∀ cls, s.process.kind a = .pool cls →
    link' a = (s.allocator.freeLists[cls]).head?
  large : ∀ b, moved = some b → b ≠ a → ∀ old, s.process.kind a = .heap old → link' a = link a

/-- Copying moves no block. -/
theorem place_withCopy (s : Storage) (a b : Address) (count : Nat) :
    (s.withCopy a b count).process.place = s.process.place :=
  funext fun c => by
    rw [Process.place, Process.place]
    exact congrArg Place.payload (Process.front_congr (Process.site_modifyPayload _ _ _ _))

/-- Another block is handed out, and what both have room for is copied to it. -/
theorem Shown.copied {s₁ : Storage} (h : s.Shown link rest memory) (hlive : s.process.Live a)
    (hmade : s.alloc size = (some b, s₁)) :
    ∃ memory₁, (s.flat memory).alloc size = (some (s₁.process.place b), s₁.flat memory₁) ∧
      (s₁.withCopy a b (min (s.process.kind a).usable size)).Shown
        (fun c => if c = b then none else link c) rest
        (memory₁.copy (s.process.place a) (s₁.process.place b)
          (min (s.process.kind a).usable size)) ∧
      ∀ x, memory₁ x ≠ memory x → x.Within (s₁.process.front b) blockPrefixSize := by
  have hhands := (served_alloc hmade).hands h.listed
  have hba : b ≠ a := fun heq => hhands.fresh b rfl (heq ▸ hlive)
  have hsame : s₁.process.blocks[a]? = s.process.blocks[a]? := hhands.others a (by simpa using hba)
  obtain ⟨memory₁, hflat, hshown, hwritten⟩ := h.alloc
    (fun c => if c = b then none else link c) hmade (fun c hc => if_neg fun heq => hc (by rw [heq]))
      fun c hc => by
      cases hc
      exact if_pos rfl
  have hkind : s₁.process.kind a = s.process.kind a := Process.kind_congr hsame
  have hplace : s₁.process.place a = s.process.place a := by
    rw [Process.place, Process.place, Process.front_congr (Process.site_congr hsame)]
  have hlive₁ := hhands.live b rfl
  have hroomA : (s.process.kind a).room = (s.process.kind a).usable :=
    BlockKind.room_of_isLive hlive
  have hroomB : (s₁.process.kind b).room = (s₁.process.kind b).usable :=
    BlockKind.room_of_isLive hlive₁
  have hle := hhands.room b rfl
  refine ⟨memory₁, hflat, ?_, fun x hx => ?_⟩
  · rw [← hplace]
    exact hshown.withCopy (Process.ne_foreign_of_live hlive₁) (by rw [hkind, hroomA]; omega)
      (by rw [hroomB]; omega)
  · obtain ⟨c, hc, hwithin⟩ := hwritten x hx
    cases hc
    exact hwithin

/-- A block that moves is handed out, copied and freed, one after the other. -/
theorem Shown.move {s₁ : Storage} (h : s.Shown link rest memory) (hlive : s.process.Live a)
    (hkind : ∀ cls, s.process.kind a = .pool cls → SizeClass.ofSize? size ≠ some cls)
    (hmade : s.alloc size = (some b, s₁))
    (hfree : Storage.free a (s₁.withCopy a b (min (s.process.kind a).usable size)) = .ok () s')
    (hlinks : s.Relinks a (some b) link link') :
    ∃ memory', FlatStorage.move (s.process.place a) (s.process.kind a).usable size (s.flat memory) =
        .ok (some (s'.process.place b)) (s'.flat memory') ∧
      s'.Shown link' rest memory' ∧
      ∀ x, memory' x ≠ memory x → s.process.ResizeWrites s'.process a b size x := by
  have hserved := served_alloc hmade
  have hhands := hserved.hands h.listed
  have hba : b ≠ a := fun heq => hhands.fresh b rfl (heq ▸ hlive)
  have hsame : s₁.process.blocks[a]? = s.process.blocks[a]? := hhands.others a (by simpa using hba)
  obtain ⟨memory₁, hflat₁, hcopied, hwritten₁⟩ := h.copied hlive hmade
  have hcopy := flat_withCopy s₁ a b (min (s.process.kind a).usable size) memory₁
  have hplaces := place_withCopy s₁ a b (min (s.process.kind a).usable size)
  have hkind₂ : (s₁.withCopy a b (min (s.process.kind a).usable size)).process.kind a
      = s.process.kind a :=
    (kind_withCopy s₁ a b _ a).trans (Process.kind_congr hsame)
  have hfreed : Freed (s₁.withCopy a b (min (s.process.kind a).usable size)) a s' := by
    obtain ⟨s₂, hfree', hfreed⟩ := freed_free
      (hserved.live_withCopy hba hlive (min (s.process.kind a).usable size))
    rw [hfree] at hfree'
    cases hfree'
    exact hfreed
  obtain ⟨memory', hflat', hshown', hwritten'⟩ := hcopied.free link' hfreed hfree
    (fun c hc => by
      by_cases hcb : c = b
      · rw [if_pos hcb, hcb, hlinks.made b rfl hba]
      · rw [if_neg hcb, hlinks.others b c rfl hba hc hcb])
    (fun cls hpool => by
      rw [hkind₂] at hpool
      have hlist : s₁.allocator.freeLists[cls] = s.allocator.freeLists[cls] :=
        hserved.lists_of_ne (hkind cls hpool)
      show link' a = (s₁.allocator.freeLists[cls]).head?
      rw [hlist, hlinks.head b rfl hba cls hpool])
    (fun old hheap => by
      rw [hkind₂] at hheap
      rw [if_neg (Ne.symm hba), hlinks.large b rfl hba old hheap])
  -- no block lies elsewhere than it did when it was handed out
  have hfrontA : (s₁.withCopy a b (min (s.process.kind a).usable size)).process.front a
      = s.process.front a :=
    Process.front_congr ((Process.site_modifyPayload _ _ _ _).trans (Process.site_congr hsame))
  have hfrontB : s'.process.front b = s₁.process.front b :=
    Process.front_congr ((Process.site_congr (hfreed.frees.others b hba)).trans
      (Process.site_modifyPayload _ _ _ _))
  have hplaceA : s₁.process.place a = s.process.place a := by
    rw [← hplaces, Process.place, Process.place, hfrontA]
  have hplaceB : s'.process.place b = s₁.process.place b := by
    rw [Process.place, Process.place, hfrontB]
  refine ⟨memory', ?run, hshown', fun x hx => ?written⟩
  case run =>
    rw [hplaces, hplaceA] at hflat'
    rw [hplaceA] at hcopy
    simp only [FlatStorage.move, hflat₁, hcopy, hflat', hplaceB]
  case written =>
    by_cases hfreed' : memory' x = memory₁.copy (s.process.place a) (s₁.process.place b)
        (min (s.process.kind a).usable size) x
    · by_cases hcopied' : memory₁.copy (s.process.place a) (s₁.process.place b)
          (min (s.process.kind a).usable size) x = memory₁ x
      · refine .made ?_
        rw [hfrontB]
        exact hwritten₁ x (by rw [← hcopied', ← hfreed']; exact hx)
      · exact .copied hba (by rw [hplaceB]; exact FlatMemory.within_of_overwrite hcopied')
    · have hwithin := hwritten' x hfreed'
      rw [hfrontA] at hwithin
      exact .ended hwithin

/-- A block moves, or there is none to move to. -/
theorem Shown.moveOrStay (h : s.Shown link rest memory) (hlive : s.process.Live a)
    (hkind : ∀ cls, s.process.kind a = .pool cls → SizeClass.ofSize? size ≠ some cls)
    (hrun : Storage.move a (s.process.kind a).usable size s = .ok moved s')
    (hlinks : s.Relinks a moved link link') :
    ∃ memory', FlatStorage.move (s.process.place a) (s.process.kind a).usable size (s.flat memory) =
        .ok (moved.map s'.process.place) (s'.flat memory') ∧
      s'.Shown link' rest memory' ∧
      ∀ x, memory' x ≠ memory x →
        ∃ b, moved = some b ∧ s.process.ResizeWrites s'.process a b size x := by
  cases hmade : s.alloc size with
  | mk found s₁ =>
    cases found with
    | none =>
      rw [move_none hmade] at hrun
      cases hrun
      obtain rfl := hlinks.stays (.inl rfl)
      obtain ⟨hflat, hshown⟩ := h.refused hmade
      exact ⟨memory, by simp only [FlatStorage.move, hflat]; rfl, hshown, fun x hx => absurd rfl hx⟩
    | some b =>
      have hserved := served_alloc hmade
      have hba : b ≠ a := fun heq => hserved.not_live h.listed (heq ▸ hlive)
      obtain ⟨s₂, hfree, -⟩ := freed_free
        (hserved.live_withCopy hba hlive (min (s.process.kind a).usable size))
      rw [move_some hmade hfree] at hrun
      cases hrun
      obtain ⟨memory', hflat, hshown, hwritten⟩ := h.move hlive hkind hmade hfree hlinks
      exact ⟨memory', hflat, hshown, fun x hx => ⟨b, rfl, hwritten x hx⟩⟩

/-- A large block is resized by the system. -/
theorem Shown.resized {old : Nat} {p' : Process} (h : s.Shown link rest memory)
    (hkind : s.process.kind a = .heap old) (hsize : 1 ≤ size)
    (hheap : s.process.heapRealloc a old size = (some b, p'))
    (hlinks : s.Relinks a (some b) link link') (bytes : Nat) :
    ∃ memory', (s.process.flat memory).heapRealloc (s.process.place a) old size =
        (some (p'.place b), p'.flat memory') ∧
      s.allocator.flat p'.front = s.allocator.flat s.process.front ∧
      Shown ⟨s.allocator.setHeapLive bytes, p'⟩ link' rest memory' ∧
      ∀ x, memory' x ≠ memory x →
        s.process.ResizeWrites p' a b size x := by
  have ha : a < s.process.blocks.size := Process.lt_size_of_live (Process.live_heap hkind)
  have hlayout : p'.Layout (s.allocator.arenas.arenas.toList ++ rest) :=
    layout_heapRealloc hheap hkind h.layout
  have hkept : s.allocator.Listed p' := Allocator.listed_heapRealloc h.listed hkind hheap
  have hlisted : (s.allocator.setHeapLive bytes).Listed p' := ⟨hkept.nodup, hkept.freed⟩
  have hmax : max size 1 = size := by omega
  obtain ⟨hregion, hserved, hcases⟩ := Process.heapRealloc_place hheap ha
  rw [hmax] at hregion hserved hcases
  rcases hcases with ⟨hstays, rfl, rfl⟩ | ⟨hmoves, rfl, rfl⟩
  · obtain rfl := hlinks.stays (.inr rfl)
    have hfronts := s.process.front_stretched b old size
    have hflat := Process.flat_heapRealloc_stays b old (hmax.symm ▸ hregion)
      (hmax.symm ▸ hserved) hstays memory
    rw [hmax] at hflat
    refine ⟨_, ?_, Allocator.flat_congr fun _ c _ => hfronts c, ⟨hlisted, h.linked, hlayout,
      h.process.stretched hkind hlayout⟩, fun x hx => Process.resizeWrites_stretched hkind hx⟩
    rw [hflat, Process.place, Process.place, hfronts]
  · have hba : s.process.blocks.size ≠ a := Nat.ne_of_gt ha
    have hflat := Process.flat_heapRealloc_moves a old (hmax.symm ▸ hregion)
      (hmax.symm ▸ hserved) hmoves memory
    rw [hmax] at hflat
    -- only the new block has another link than before: a large one has none that is read
    have hlink : ∀ c, c ≠ s.process.blocks.size → link' c = link c := by
      intro c hc
      by_cases hca : c = a
      · exact hca ▸ hlinks.large _ rfl hba old hkind
      · exact hlinks.others _ c rfl hba hca hc
    have hlinked : ∀ cls : SizeClass, SharedStorage.Linked link' s.allocator.freeLists[cls] :=
      fun cls => (h.linked cls).congr fun c hc => hlink c (Nat.ne_of_lt (h.lt_size hc))
    exact ⟨_, hflat, h.flat_eq fun _ hc => s.process.site_relocated a old size hc,
      ⟨hlisted, hlinked, hlayout, h.process.relocated hkind hlayout hlink (hlinks.made _ rfl hba)⟩,
      fun x hx => Process.resizeWrites_relocated hkind hx⟩

/-- A large block that stays large is resized by the system, if the limit leaves room for
it. -/
theorem Shown.realloc_heap {old : Nat} (h : s.Shown link rest memory)
    (hkind : s.process.kind a = .heap old) (hcls : SizeClass.ofSize? size = none)
    (hrun : Storage.realloc a size s = .ok moved s') (hlinks : s.Relinks a moved link link') :
    ∃ memory', FlatStorage.realloc (s.process.place a) size (s.flat memory) =
        .ok (moved.map s'.process.place) (s'.flat memory') ∧
      s'.Shown link' rest memory' ∧
      ∀ x, memory' x ≠ memory x →
        ∃ b, moved = some b ∧ s.process.ResizeWrites s'.process a b size x := by
  have hread := h.read_heap hkind
  -- a size without a class is not zero, so the block is not rounded up to one byte
  have hsize : 1 ≤ size := by
    have hlarge := SizeClass.ofSize?_eq_none_iff.1 hcls
    simp only [SizeClass.threshold] at hlarge
    omega
  simp only [Storage.realloc, hkind, hcls] at hrun
  cases hlimit : s.allocator.withinLimit (max size 1 - old) with
  | false =>
    have hlimit' : (s.flat memory).allocator.books.withinLimit (max size 1 - old) = false :=
      hlimit
    simp only [hlimit, Bool.false_eq_true, if_false] at hrun
    cases hrun
    obtain rfl := hlinks.stays (.inl rfl)
    exact ⟨memory, by simp only [FlatStorage.realloc, hread, hcls, hlimit',
      Bool.false_eq_true, if_false]; rfl, h, fun x hx => absurd rfl hx⟩
  | true =>
    have hlimit' : (s.flat memory).allocator.books.withinLimit (max size 1 - old) = true :=
      hlimit
    simp only [hlimit, if_true] at hrun
    cases hheap : s.process.heapRealloc a old size with
    | mk found process =>
      cases found with
      | none =>
        simp only [hheap] at hrun
        cases hrun
        obtain rfl := hlinks.stays (.inl rfl)
        have hsame : s.process.SameBut process := by
          rcases Process.heapRealloc_cases hheap with ⟨-, hsame⟩ | ⟨hmade, -⟩ | ⟨hmade, -⟩
          · exact hsame
          · cases hmade
          · cases hmade
        have hflat := Process.flat_heapRealloc_none hheap memory (s.process.place a)
        have hlists := h.flat_sameBut hsame
        refine ⟨memory, ?_, ⟨h.listed.of_kind fun _ b _ => Process.kind_congr (by
          rw [hsame.blocks]), h.linked, h.layout.sameBut hsame, h.process.sameBut hsame⟩,
          fun x hx => absurd rfl hx⟩
        simp only [FlatStorage.realloc, hread, hcls, hlimit', if_true]
        rw [flat_process, hflat]
        simp only [flat, hlists]
        rfl
      | some b =>
        simp only [hheap] at hrun
        cases hrun
        obtain ⟨memory', hflat, hlists, hshown, hwritten⟩ := h.resized hkind hsize hheap hlinks
          (s.allocator.heapLive - old + max size 1)
        refine ⟨memory', ?_, hshown, fun x hx => ⟨b, rfl, hwritten x hx⟩⟩
        simp only [FlatStorage.realloc, hread, hcls, hlimit', if_true]
        rw [flat_process, hflat]
        simp only [flat, Allocator.flat_setHeapLive, hlists]
        rfl

/-- A block is resized in memory as it is in the table, and no byte is written but the
prefixes, what both sizes reach and what the system adds. -/
theorem Shown.realloc (h : s.Shown link rest memory) (hlive : s.process.Live a)
    (hrun : Storage.realloc a size s = .ok moved s') (hlinks : s.Relinks a moved link link') :
    ∃ memory', FlatStorage.realloc (s.process.place a) size (s.flat memory) =
        .ok (moved.map s'.process.place) (s'.flat memory') ∧
      s'.Shown link' rest memory' ∧
      ∀ x, memory' x ≠ memory x →
        ∃ b, moved = some b ∧ s.process.ResizeWrites s'.process a b size x := by
  rcases Process.live_cases hlive with ⟨cls, hkind⟩ | ⟨old, hkind⟩
  · have hread := h.read_pool hkind
    -- a small block stays if its class serves the size too, and else it moves
    by_cases hcls : SizeClass.ofSize? size = some cls
    · simp only [Storage.realloc, hkind, hcls, if_true] at hrun
      cases hrun
      obtain rfl := hlinks.stays (.inr rfl)
      exact ⟨memory, by simp only [FlatStorage.realloc, hread, hcls, if_true]; rfl, h,
        fun x hx => absurd rfl hx⟩
    · have hother : ∀ c, s.process.kind a = .pool c → SizeClass.ofSize? size ≠ some c := by
        intro c hc
        rw [hkind] at hc
        cases hc
        exact hcls
      have husable : (s.process.kind a).usable = cls.bytes := by rw [hkind]; rfl
      simp only [Storage.realloc, hkind, if_neg hcls] at hrun
      rw [← husable] at hrun
      obtain ⟨memory', hflat, hrest⟩ := h.moveOrStay hlive hother hrun hlinks
      rw [husable] at hflat
      exact ⟨memory', by simp only [FlatStorage.realloc, hread, if_neg hcls, hflat], hrest⟩
  · have hread := h.read_heap hkind
    cases hcls : SizeClass.ofSize? size with
    | some cls =>
      have hother : ∀ c, s.process.kind a = .pool c → SizeClass.ofSize? size ≠ some c := by
        intro c hc
        rw [hkind] at hc
        cases hc
      have husable : (s.process.kind a).usable = old := by rw [hkind]; rfl
      simp only [Storage.realloc, hkind, hcls] at hrun
      rw [← husable] at hrun
      obtain ⟨memory', hflat, hrest⟩ := h.moveOrStay hlive hother hrun hlinks
      rw [husable] at hflat
      exact ⟨memory', by simp only [FlatStorage.realloc, hread, hcls, hflat], hrest⟩
    | none =>
      exact h.realloc_heap hkind hcls hrun hlinks

end Storage

end ExtensionHost
