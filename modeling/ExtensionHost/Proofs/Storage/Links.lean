import ExtensionHost.Proofs.Storage.InMemory

/-!
# `ExtensionHost.Proofs.Storage.Links`: shared storage as it lies in memory

Flat shared storage is what shared storage is in memory: allocators that have the heads
of their lists and nothing else of them, users that have the places where their blocks
start, and bytes. Its operations follow the links they find and write as many bytes as
they are told to (`FlatSharedStorage.perform`).

Memory shows shared storage when it shows the table of blocks, the heads are those of
the lists, and the users hold the same blocks (`FlatSharedStorage.Shows`). What is done
to it, memory does, with the same answers (`Shows.step`), and the other way round
(`Shows.follow`). So every memory that comes about shows shared storage that comes
about, and all such storage is shown by such a memory. Besides, `SharedStorage.Writes`
bounds the bytes that an operation writes.
-/

set_option autoImplicit false

namespace ExtensionHost

/-! ### Blocks stay where they are -/

namespace Storage

variable {s s' : Storage} {a b : Address} {size count : Nat} {made moved : Option Address}
  {rest : List Arena} {link : Address → Option Address} {memory : FlatMemory}

/-- A request leaves blocks where they are. -/
theorem Served.site (h : Served s size made s') (hb : b < s.process.blocks.size) :
    s'.process.site b = s.process.site b := by
  cases h with
  | reused hcls hlist => exact Process.site_setKind _ _ _ _
  | carved hcls hlist hcarve =>
    have hblocks := (ArenaPool.sameBut_carve hcarve).blocks
    refine (Process.site_congr ?_).trans (Process.site_congr (by rw [hblocks]))
    rw [Process.getElem?_addBlock, hblocks, if_neg (Nat.ne_of_lt hb)]
  | uncarved hcls hlist hcarve =>
    exact Process.site_congr (by rw [(ArenaPool.sameBut_carve hcarve).blocks])
  | large hcls hlimit =>
    refine Process.site_congr ?_
    simp only [Process.withLarge, Array.getElem?_push, if_neg (Nat.ne_of_lt hb)]
  | refused hcls hsame => exact Process.site_congr (by rw [hsame.blocks])

/-- A release leaves blocks where they are. -/
theorem Freed.site (h : Freed s a s') (b : Address) : s'.process.site b = s.process.site b := by
  cases h with
  | pool hkind => exact Process.site_setKind _ _ _ _
  | heap hkind => exact Process.site_setKind _ _ _ _

/-- A resize leaves blocks where they are, since one that moves is a new one. -/
theorem Resized.site (h : Resized s a size moved s') (hb : b < s.process.blocks.size) :
    s'.process.site b = s.process.site b := by
  cases h with
  | stays hkind hcls => rfl
  | moved hkind hserved hfreed =>
    exact (hfreed.site b).trans ((Process.site_modifyPayload _ _ _ _).trans (hserved.site hb))
  | unmoved hserved => exact hserved.site hb
  | @resized old c process hkind hcls hlimit hheap =>
    have ha := Process.lt_size_of_live (Process.live_heap hkind)
    obtain ⟨-, -, ⟨-, -, rfl⟩ | ⟨-, -, rfl⟩⟩ := Process.heapRealloc_place hheap ha
    · exact (Process.site_modifyPayload _ _ _ _).trans (Process.site_setKind _ _ _ _)
    · have hsize : ((s.process.afterResize old (max size 1)).setKind a .foreign).blocks.size
          = s.process.blocks.size := Process.size_setKind _ _ _
      refine (Process.site_congr ?_).trans (Process.site_setKind _ a .foreign b)
      rw [Process.relocated, Process.getElem?_addBlock, hsize, if_neg (Nat.ne_of_lt hb)]
      rfl
  | refused hsame => exact Process.site_congr (by rw [hsame.blocks])

end Storage

namespace Process

variable {p : Process} {a : Address} {arenas : List Arena} {link : Address → Option Address}
  {memory : FlatMemory} {count offset : Nat}

/-- The first bytes of a block are zeroed, as far as it has room. -/
theorem Shown.zero (h : p.Shown link arenas memory) (hlayout : p.Layout arenas)
    (ha : p.kind a ≠ .foreign) (hroom : count ≤ (p.kind a).room) :
    (p.modifyPayload a (·.zero count)).Shown link arenas (memory.zero (p.place a) count) := by
  have hroom' : 0 + count ≤ (p.kind a).room := by omega
  refine h.modifyPayload hlayout ha hroom' (fun i hi => ?_) fun i hi => ?_
  · rw [Nat.zero_add, Payload.zero, Payload.cell_fill, if_pos (by omega)]
  · rw [Payload.zero, Payload.cell_fill, if_neg (by omega)]

/-- The user of a block writes to one of its bytes. -/
theorem Shown.put (h : p.Shown link arenas memory) (hlayout : p.Layout arenas)
    (ha : p.kind a ≠ .foreign) (hoffset : offset < (p.kind a).room) (cell : Cell) :
    (p.modifyPayload a (·.put offset cell)).Shown link arenas
      (memory.put ((p.place a).shift offset) cell) := by
  refine h.modifyPayload hlayout ha hoffset (fun i hi => ?_) fun i hi => ?_
  · rw [Payload.cell_put, if_pos (by omega)]
  · rw [Payload.cell_put, if_neg (by omega)]

end Process

/-! ### Several allocators in memory -/

/-- Several allocators as they lie in memory, and the places where blocks start that
their users hold. -/
structure FlatSharedStorage where
  process : FlatProcess
  allocators : List (Option FlatAllocator) := []
  held : List Place := []

namespace FlatSharedStorage

/-- Shared storage after its `i`-th allocator has worked. -/
def withStorage (g : FlatSharedStorage) (i : Nat) (s : FlatStorage) : FlatSharedStorage :=
  { g with process := s.process, allocators := g.allocators.set i (some s.allocator) }

/-- The users get a block. -/
def handOut (g : FlatSharedStorage) : Option Place → FlatSharedStorage
  | none => g
  | some q => { g with held := q :: g.held }

/-- The users give a block back. -/
def takeBack (g : FlatSharedStorage) (q : Place) : FlatSharedStorage :=
  { g with held := g.held.filter (· ≠ q) }

/-- Runs a command: what is answered, and the storage afterwards. There is none when
the command is for an allocator that is not there or a block that is not held. -/
def perform (g : FlatSharedStorage) :
    SharedStorage.Command Place → Option (Option Place × FlatSharedStorage)
  | .start settings =>
    some (none, { g with allocators := g.allocators ++ [some (.new settings)] })
  | .drop i => do
    let allocator ← g.allocators[i]?.join
    some (none,
      { g with
        allocators := g.allocators.set i none
        process := { g.process with
          orphans := g.process.orphans ++ allocator.arenas.arenas.toList } })
  | .alloc i size => do
    let allocator ← g.allocators[i]?.join
    let (made, s) := FlatStorage.alloc ⟨allocator, g.process⟩ size
    some (made, (g.handOut made).withStorage i s)
  | .allocZeroed i size => do
    let allocator ← g.allocators[i]?.join
    let (made, s) := FlatStorage.allocZeroed ⟨allocator, g.process⟩ size
    some (made, (g.handOut made).withStorage i s)
  | .realloc i q size => do
    let allocator ← g.allocators[i]?.join
    if q ∈ g.held then
      match FlatStorage.realloc q size ⟨allocator, g.process⟩ with
      | .ok none s => some (none, g.withStorage i s)
      | .ok (some moved) s =>
        some (moved, ((g.takeBack q).handOut (some moved)).withStorage i s)
      | .error _ _ => none
    else none
  | .free i q => do
    let allocator ← g.allocators[i]?.join
    if q ∈ g.held then
      match FlatStorage.free q ⟨allocator, g.process⟩ with
      | .ok () s => some (none, (g.takeBack q).withStorage i s)
      | .error _ _ => none
    else none
  | .write q offset cell =>
    if q ∈ g.held ∧ offset < (g.process.prefixOf q).kind.usable then
      some (none, { g with process := g.process.write (·.put (q.shift offset) cell) })
    else none

/-- What comes about of it, starting without allocators on memory that nobody has
written to. -/
inductive Reachable : FlatSharedStorage → Prop
  | start (system : System) (timing : Bool) :
      Reachable { process := { system, timing, memory := .given system } }
  | step {g g' : FlatSharedStorage} {command : SharedStorage.Command Place} {made : Option Place}
      (h : Reachable g) (hstep : g.perform command = some (made, g')) : Reachable g'

/-- The `i`-th allocator is there. -/
def Has (g : FlatSharedStorage) (i : Nat) (allocator : FlatAllocator) : Prop :=
  g.allocators[i]? = some (some allocator)

end FlatSharedStorage

namespace SharedStorage

/-- The command of a user who names blocks in another way. -/
def Command.map {α β : Type} (f : α → β) : Command α → Command β
  | start settings => start settings
  | drop i => drop i
  | alloc i size => alloc i size
  | allocZeroed i size => allocZeroed i size
  | realloc i a size => realloc i (f a) size
  | free i a => free i (f a)
  | write a offset cell => write (f a) offset cell

/-- The bytes that a step may write. -/
inductive Writes (f f' : SharedStorage) (command : Command Address) (made : Option Address)
    (x : Place) :
    Prop
  /-- The prefix of the block that is handed out. -/
  | handed {b : Address} (htarget : command.target = none) (hb : made = some b)
      (h : x.Within (f'.process.front b) blockPrefixSize)
  /-- The bytes that are asked for, when they are to be zero. -/
  | zeroed {i size : Nat} {b : Address} (hcommand : command = .allocZeroed i size)
      (hb : made = some b) (h : x.Within (f'.process.place b) size)
  | resized {i size : Nat} {a b : Address} (hcommand : command = .realloc i a size)
      (hb : made = some b) (h : f.process.ResizeWrites f'.process a b size x)
  /-- The prefix of the block that is given back. -/
  | freed {i : Nat} {a : Address} (hcommand : command = .free i a)
      (h : x.Within (f.process.front a) blockPrefixSize)
  /-- The byte that a user writes. -/
  | written {a : Address} {offset : Nat} {cell : Cell} (hcommand : command = .write a offset cell)
      (h : x.Within ((f.process.place a).shift offset) 1)

end SharedStorage

namespace FlatSharedStorage

open SharedStorage (Command Writes)

variable {g g' : FlatSharedStorage} {f f' f₁ : SharedStorage} {i j : Nat} {allocator : Allocator}
  {a b : Address}
  {size : Nat} {made moved : Option Address} {s : Storage} {memory : FlatMemory}
  {p p' : Process} {arenas : List Arena}

/-- Memory shows shared storage. -/
structure Shows (g : FlatSharedStorage) (f : SharedStorage) : Prop where
  process : g.process = f.process.flat g.process.memory
  allocators : g.allocators = f.allocators.map (·.map (·.flat f.process.front))
  held : ∀ q, q ∈ g.held ↔ ∃ a ∈ f.held, f.process.place a = q
  shown : f.process.Shown f.link f.arenas g.process.memory

/-- The allocators in memory are found where they are listed. -/
theorem Shows.getElem? (h : g.Shows f) (hi : f.Has i allocator) :
    g.allocators[i]? = some (some (allocator.flat f.process.front)) := by
  rw [h.allocators, List.getElem?_map, hi]
  rfl

/-- An allocator that is there is there in memory. -/
theorem Shows.join_getElem? (h : g.Shows f) (hi : f.Has i allocator) :
    g.allocators[i]?.join = some (allocator.flat f.process.front) := by
  rw [h.getElem? hi]
  rfl

/-- The allocators in memory are those that it shows. -/
theorem Shows.exists_has (h : g.Shows f) {flat : FlatAllocator}
    (hi : g.allocators[i]?.join = some flat) :
    ∃ allocator, f.Has i allocator ∧ flat = allocator.flat f.process.front := by
  rw [h.allocators, List.getElem?_map, Option.join_eq_some_iff] at hi
  obtain ⟨member, hmember, hflat⟩ := Option.map_eq_some_iff.1 hi
  obtain ⟨allocator, rfl, rfl⟩ := Option.map_eq_some_iff.1 hflat
  exact ⟨allocator, hmember, rfl⟩

/-- One of the allocators at work, as memory has it. -/
theorem Shows.storage (h : g.Shows f) (hsound : f.Sound) (hi : f.Has i allocator) :
    (⟨allocator.flat f.process.front, g.process⟩ : FlatStorage) =
        Storage.flat ⟨allocator, f.process⟩ g.process.memory ∧
      Storage.Shown ⟨allocator, f.process⟩ f.link (f.otherArenas i) g.process.memory :=
  ⟨by rw [Storage.flat, ← h.process], hsound.listed i allocator hi,
    fun cls => hsound.linked i allocator cls hi, hsound.layout.perm (SharedStorage.arenas_perm hi),
    h.shown.perm (SharedStorage.arenas_perm hi)⟩

/-- Memory shows shared storage after one allocator has worked. -/
theorem Shows.work (h : g.Shows f) (f₁ : SharedStorage) (held : List Place) (hsound : f.Sound)
    (hi : f.Has i allocator)
    (hsame : f₁.allocators = f.allocators)
    (hsites : ∀ b, b < f.process.blocks.size → s.process.site b = f.process.site b)
    (horphans : s.process.orphans = f.process.orphans)
    (hshown : Storage.Shown s f₁.link (f.otherArenas i) memory)
    (hheld : ∀ q, q ∈ held ↔ ∃ a ∈ f₁.held, s.process.place a = q) :
    Shows (withStorage { g with held } i (s.flat memory)) (f₁.withStorage i s) := by
  refine ⟨rfl, ?allocators, hheld, ?shown⟩
  case allocators =>
    -- what waits on the lists of the others lies where it did, so their heads are the same
    have hmap : f.allocators.map (·.map (·.flat f.process.front))
        = f.allocators.map (·.map (·.flat s.process.front)) := by
      refine List.map_congr_left fun member hmember => Option.map_congr fun other hother => ?_
      obtain ⟨j, hj, hget⟩ := List.getElem_of_mem hmember
      have hlisted := hsound.listed j other (List.getElem?_eq_some_iff.2 ⟨hj, hget.trans hother⟩)
      refine (Allocator.flat_congr fun cls b hb => Process.front_congr (hsites b ?_)).symm
      exact Process.lt_size_of_kind (Process.ne_foreign_of_freed (hlisted.freed cls b hb))
    show g.allocators.set i (some (s.allocator.flat s.process.front)) =
      (f₁.allocators.set i (some s.allocator)).map _
    rw [h.allocators, hmap, hsame, List.map_set]
    rfl
  case shown =>
    -- the arenas are those of the one that worked and those of the others, in another order
    have hothers : (f₁.withStorage i s).otherArenas i = f.otherArenas i := by
      show s.process.orphans ++ ((f₁.allocators.set i _).eraseIdx i).flatMap
        SharedStorage.arenasOf = _
      rw [List.eraseIdx_set_eq, hsame, horphans]
      rfl
    have hi₁ : f₁.Has i allocator := by rw [SharedStorage.Has, hsame]; exact hi
    have hhas : (f₁.withStorage i s).Has i s.allocator := SharedStorage.has_withStorage_self hi₁
    have hperm := SharedStorage.arenas_perm hhas
    rw [hothers] at hperm
    exact hshown.process.perm hperm.symm

/-! ### The blocks that are held -/

/-- What is held in memory, in terms of the table. -/
theorem Shows.mem_held (h : g.Shows f) (hsound : f.Sound) (q : Place) :
    q ∈ g.held ↔ ∃ a, f.process.Live a ∧ f.process.place a = q := by
  rw [h.held]
  exact exists_congr fun a => and_congr_left fun _ => hsound.live a

/-- Blocks in use start in different places. -/
theorem place_inj (hlayout : p.Layout arenas) (ha : p.Live a) (hb : p.Live b)
    (hplace : p.place b = p.place a) : b = a := by
  by_contra hba
  refine hlayout.place_ne hba (Process.ne_foreign_of_live ha) (Process.ne_foreign_of_live hb) ?_
  rw [← Place.front_payload (p.front b), ← Place.front_payload (p.front a)]
  exact congrArg Place.front hplace

/-- The users hold what they held and what was handed out. -/
theorem Shows.held_handOut (h : g.Shows f) (hsound : f.Sound)
    (hhands : f.process.Hands size made p') (q : Place) :
    q ∈ (g.handOut (made.map p'.place)).held ↔ ∃ a, p'.Live a ∧ p'.place a = q := by
  have hplace : ∀ {a}, made ≠ some a → p'.place a = f.process.place a := fun ha =>
    Process.place_congr (Process.site_congr (hhands.others _ ha))
  have hmem : q ∈ (g.handOut (made.map p'.place)).held ↔
      made.map p'.place = some q ∨ q ∈ g.held := by
    cases made with
    | none => simp [handOut]
    | some b => simp [handOut, eq_comm]
  rw [hmem, h.mem_held hsound]
  constructor
  · rintro (hmade | ⟨a, ha, rfl⟩)
    · obtain ⟨b, rfl, rfl⟩ := Option.map_eq_some_iff.1 hmade
      exact ⟨b, hhands.live b rfl, rfl⟩
    · have hne : made ≠ some a := fun heq => hhands.fresh a heq ha
      exact ⟨a, (Process.live_congr (hhands.others a hne)).2 ha, hplace hne⟩
  · rintro ⟨a, ha, rfl⟩
    by_cases hmade : made = some a
    · exact .inl (by rw [hmade]; rfl)
    · exact .inr ⟨a, (Process.live_congr (hhands.others a hmade)).1 ha, (hplace hmade).symm⟩

/-- The users do not hold what they gave back. -/
theorem Shows.held_takeBack (h : g.Shows f) (hsound : f.Sound) (ha : f.process.Live a)
    (hfrees : f.process.Frees a p') (q : Place) :
    q ∈ (g.takeBack (f.process.place a)).held ↔ ∃ b, p'.Live b ∧ p'.place b = q := by
  have hplace : ∀ {b}, b ≠ a → p'.place b = f.process.place b := fun hb =>
    Process.place_congr (Process.site_congr (hfrees.others _ hb))
  have hmem : q ∈ (g.takeBack (f.process.place a)).held ↔ q ∈ g.held ∧ q ≠ f.process.place a := by
    simp [takeBack]
  rw [hmem, h.mem_held hsound]
  constructor
  · rintro ⟨⟨b, hb, rfl⟩, hne⟩
    have hba : b ≠ a := fun heq => hne (by rw [heq])
    exact ⟨b, (Process.live_congr (hfrees.others b hba)).2 hb, hplace hba⟩
  · rintro ⟨b, hb, rfl⟩
    have hba : b ≠ a := fun heq => hfrees.ended (heq ▸ hb)
    have hlive := (Process.live_congr (hfrees.others b hba)).1 hb
    refine ⟨⟨b, hlive, (hplace hba).symm⟩, fun heq => hba ?_⟩
    exact place_inj hsound.layout ha hlive ((hplace hba).symm.trans heq)

/-- The users hold a block that was resized where it is now. -/
theorem Shows.held_exchange (h : g.Shows f) (hsound : f.Sound) (ha : f.process.Live a)
    (hmoves : f.process.Moves a size (some b) p') (q : Place) :
    q ∈ ((g.takeBack (f.process.place a)).handOut (some (p'.place b))).held ↔
      ∃ c, p'.Live c ∧ p'.place c = q := by
  have hsame : ∀ {c}, c ≠ a → c ≠ b → p'.blocks[c]? = f.process.blocks[c]? := fun hca hcb =>
    hmoves.others _ hca fun heq => hcb (Option.some.inj heq).symm
  have hmem : q ∈ ((g.takeBack (f.process.place a)).handOut (some (p'.place b))).held ↔
      q = p'.place b ∨ q ∈ g.held ∧ q ≠ f.process.place a := by
    simp [handOut, takeBack]
  rw [hmem, h.mem_held hsound]
  constructor
  · rintro (rfl | ⟨⟨c, hc, rfl⟩, hne⟩)
    · exact ⟨b, hmoves.live b rfl, rfl⟩
    · have hca : c ≠ a := fun heq => hne (by rw [heq])
      have hcb : c ≠ b := by
        rintro rfl
        exact (hmoves.fresh c rfl hca).1 hc
      exact ⟨c, (Process.live_congr (hsame hca hcb)).2 hc,
        Process.place_congr (Process.site_congr (hsame hca hcb))⟩
  · rintro ⟨c, hc, rfl⟩
    by_cases hcb : c = b
    · exact .inl (by rw [hcb])
    · have hca : c ≠ a := by
        rintro rfl
        exact (hmoves.fresh b rfl (Ne.symm hcb)).2 hc
      have hlive := (Process.live_congr (hsame hca hcb)).1 hc
      have hplace : p'.place c = f.process.place c :=
        Process.place_congr (Process.site_congr (hsame hca hcb))
      refine .inr ⟨⟨c, hlive, hplace.symm⟩, fun heq => hca ?_⟩
      exact place_inj hsound.layout ha hlive (hplace.symm.trans heq)

/-! ### What is done to shared storage, memory does -/

/-- Memory shows an allocator that is added. -/
theorem Shows.started (h : g.Shows f) (settings : AllocatorSettings) :
    Shows { g with allocators := g.allocators ++ [some (.new settings)] }
      { f with allocators := f.allocators ++ [some (.new settings)] } where
  process := h.process
  allocators := by
    have hnew : (Allocator.new settings).flat f.process.front = .new settings := by
      have hheads : (Allocator.new settings).freeLists.map (·.head?.map f.process.front)
          = .replicate none := by
        refine PerClass.ext_getElem fun cls => ?_
        rw [PerClass.getElem_map, Allocator.getElem_new, PerClass.getElem_replicate]
        rfl
      rw [Allocator.flat, hheads]
      rfl
    show g.allocators ++ _ = _
    rw [h.allocators, List.map_append, List.map_singleton, Option.map_some, hnew]
  held := h.held
  shown := by
    have hsame : SharedStorage.arenas
        { f with allocators := f.allocators ++ [some (.new settings)] }
        = f.arenas := by
      simp [SharedStorage.arenas, SharedStorage.arenasOf, Allocator.new, ArenaPool.new]
    exact hsame ▸ h.shown

/-- Memory shows that an allocator is gone. -/
theorem Shows.dropped (h : g.Shows f) (hi : f.Has i allocator) :
    Shows { g with
        allocators := g.allocators.set i none
        process := { g.process with
          orphans := g.process.orphans ++ allocator.arenas.arenas.toList } }
      { f with
        allocators := f.allocators.set i none
        process := { f.process with
          orphans := f.process.orphans ++ allocator.arenas.arenas.toList } } where
  process := by rw [h.process]; rfl
  allocators := by
    show g.allocators.set i none = (f.allocators.set i none).map _
    rw [h.allocators, List.map_set]
    rfl
  held := h.held
  shown := by
    have hshown := h.shown.perm (SharedStorage.arenas_dropped hi)
    exact ⟨fun a => ⟨(hshown.block a).front, (hshown.block a).cells⟩, hshown.links, hshown.uncut,
      hshown.ungiven⟩

/-- A request is served in memory. -/
theorem Shows.handed (h : g.Shows f) (hsound : f.Sound) (hi : f.Has i allocator)
    (hrun : Storage.alloc ⟨allocator, f.process⟩ size = (made, s)) :
    ∃ memory, FlatStorage.alloc ⟨allocator.flat f.process.front, g.process⟩ size =
        (made.map s.process.place, s.flat memory) ∧
      ((g.handOut (made.map s.process.place)).withStorage i (s.flat memory)).Shows
        ((f.handOut size made).withStorage i s) ∧
      ∀ x, memory x ≠ g.process.memory x →
        ∃ a, made = some a ∧ x.Within (s.process.front a) blockPrefixSize := by
  have hserved := Storage.served_alloc hrun
  have hhands := hserved.hands (hsound.listed i allocator hi)
  obtain ⟨hflat, hshown⟩ := h.storage hsound hi
  have hallocators : (f.handOut size made).allocators = f.allocators := by cases made <;> rfl
  obtain ⟨memory, hran, hshown', hwritten⟩ := hshown.alloc (f.handOut size made).link hrun
    (fun b hb => by
      cases made with
      | none => rfl
      | some a => exact if_neg fun heq => hb (by rw [heq]))
    fun a ha => by
      subst ha
      exact if_pos rfl
  refine ⟨memory, hflat ▸ hran, ?_, hwritten⟩
  have hwork := h.work (f.handOut size made) (g.handOut (made.map s.process.place)).held hsound hi
    hallocators (fun b hb => hserved.site hb) hserved.orphans hshown' fun q => by
      rw [h.held_handOut hsound hhands]
      exact exists_congr fun a => and_congr_left fun _ => ((hsound.held_handOut hhands).1 a).symm
  cases made <;> exact hwork

/-- A block that is held is freed in memory. -/
theorem Shows.taken (h : g.Shows f) (hsound : f.Sound) (hi : f.Has i allocator) (ha : a ∈ f.held)
    (hrun : Storage.free a ⟨allocator, f.process⟩ = .ok () s) :
    ∃ memory, FlatStorage.free (f.process.place a) ⟨allocator.flat f.process.front, g.process⟩ =
        .ok () (s.flat memory) ∧
      ((g.takeBack (f.process.place a)).withStorage i (s.flat memory)).Shows
        ((f.takeBack allocator a).withStorage i s) ∧
      ∀ x, memory x ≠ g.process.memory x → x.Within (f.process.front a) blockPrefixSize := by
  have hlive := (hsound.live a).1 ha
  obtain ⟨s₁, hrun₁, hfreed⟩ := Storage.freed_free (s := ⟨allocator, f.process⟩) hlive
  obtain rfl : s = s₁ := by
    rw [hrun] at hrun₁
    cases hrun₁
    rfl
  obtain ⟨hflat, hshown⟩ := h.storage hsound hi
  obtain ⟨memory, hran, hshown', hwritten⟩ :=
    hshown.free (f.takeBack allocator a).link hfreed hrun
      (fun b hb => SharedStorage.link_takeBack_of_ne hb)
      (fun cls hkind => SharedStorage.link_takeBack_self hkind)
      fun old hkind => by
        have hkind' : f.process.kind a = .heap old := hkind
        simp only [SharedStorage.takeBack, hkind']
  refine ⟨memory, hflat ▸ hran, ?_, hwritten⟩
  refine h.work (f.takeBack allocator a) (g.takeBack (f.process.place a)).held hsound hi rfl
    (fun b _ => hfreed.site b) hfreed.orphans hshown' fun q => ?_
  rw [h.held_takeBack hsound hlive hfreed.frees]
  exact exists_congr fun b => and_congr_left fun _ =>
    ((hsound.held_takeBack allocator hfreed.frees).1 b).symm

/-- The links after a block was resized. -/
theorem relinks_exchange (f : SharedStorage) (allocator : Allocator) (a : Address) (size : Nat)
    (moved : Option Address) : Storage.Relinks ⟨allocator, f.process⟩ a moved f.link
      (f.exchange allocator a size moved).link := by
  have hmoved : ∀ b, b ≠ a → (f.exchange allocator a size (some b)).link =
      ((f.handOut size (some b)).takeBack allocator a).link := by
    intro b hb
    simp only [SharedStorage.exchange, if_neg hb]
  refine ⟨?stays, ?made, ?others, ?head, ?large⟩
  case stays =>
    rintro (rfl | rfl)
    · rfl
    · simp only [SharedStorage.exchange, if_pos]
  case made =>
    rintro b rfl hb
    rw [hmoved b hb, SharedStorage.link_takeBack_of_ne hb]
    exact if_pos rfl
  case others =>
    rintro b c rfl hb hca hcb
    rw [hmoved b hb, SharedStorage.link_takeBack_of_ne hca]
    exact if_neg hcb
  case head =>
    rintro b rfl hb cls hkind
    rw [hmoved b hb]
    exact SharedStorage.link_takeBack_self hkind
  case large =>
    rintro b rfl hb old hkind
    have hkind' : (f.handOut size (some b)).process.kind a = .heap old := hkind
    rw [hmoved b hb]
    simp only [SharedStorage.takeBack, hkind']
    exact if_neg (Ne.symm hb)

/-- A block that is held is resized in memory. -/
theorem Shows.exchanged (h : g.Shows f) (hsound : f.Sound) (hi : f.Has i allocator)
    (ha : a ∈ f.held) (hrun : Storage.realloc a size ⟨allocator, f.process⟩ = .ok moved s) :
    ∃ g', g.perform (.realloc i (f.process.place a) size) = some (moved.map s.process.place, g') ∧
      g'.Shows ((f.exchange allocator a size moved).withStorage i s) ∧
      ∀ x, g'.process.memory x ≠ g.process.memory x →
        ∃ b, moved = some b ∧ f.process.ResizeWrites s.process a b size x := by
  have hlive := (hsound.live a).1 ha
  have hlisted := hsound.listed i allocator hi
  obtain ⟨moved₁, s₁, hrun₁, hresized⟩ :=
    Storage.resized_realloc (s := ⟨allocator, f.process⟩) hlive hlisted size
  obtain ⟨rfl, rfl⟩ : moved = moved₁ ∧ s = s₁ := by
    rw [hrun] at hrun₁
    cases hrun₁
    exact ⟨rfl, rfl⟩
  have hmoves := hresized.moves hlive hlisted
  obtain ⟨hflat, hshown⟩ := h.storage hsound hi
  obtain ⟨memory, hran, hshown', hwritten⟩ := hshown.realloc hlive hrun
    (relinks_exchange f allocator a size moved)
  have hheld := (hsound.held_exchange allocator ha hmoves).1
  have hjoin := h.join_getElem? hi
  have hmem : f.process.place a ∈ g.held := (h.held _).2 ⟨a, ha, rfl⟩
  rw [← hflat] at hran
  have hspares := (hresized.sparesOthers hlive hlisted).orphans
  cases moved with
  | none =>
    refine ⟨g.withStorage i (s.flat memory), ?_, ?_, hwritten⟩
    · simp only [perform, hjoin, Option.bind_eq_bind, Option.bind_some, if_pos hmem, hran,
        Option.map_none]
    · refine h.work _ g.held hsound hi SharedStorage.allocators_exchange
        (fun b hb => hresized.site hb) hspares hshown' fun q => ?_
      -- nothing is moved, so everything that is held is where it was
      have hblocks : ∀ c, s.process.blocks[c]? = f.process.blocks[c]? := fun c => by
        by_cases hca : c = a
        · exact hca ▸ hmoves.unmoved rfl
        · exact hmoves.others c hca (Option.some_ne_none c).symm
      rw [h.held]
      refine exists_congr fun c => and_congr Iff.rfl ?_
      rw [Process.place_congr (Process.site_congr (hblocks c))]
  | some b =>
    refine ⟨((g.takeBack (f.process.place a)).handOut (some (s.process.place b))).withStorage i
      (s.flat memory), ?_, ?_, hwritten⟩
    · simp only [perform, hjoin, Option.bind_eq_bind, Option.bind_some, if_pos hmem, hran,
        Option.map_some]
    · refine h.work _ ((g.takeBack (f.process.place a)).handOut
        (some (s.process.place b))).held hsound hi SharedStorage.allocators_exchange
        (fun b hb => hresized.site hb) hspares hshown' fun q => ?_
      rw [h.held_exchange hsound hlive hmoves]
      exact exists_congr fun c => and_congr_left fun _ => (hheld c).symm

/-- What stands in front of a block that is held. -/
theorem Shows.prefixOf (h : g.Shows f) (hsound : f.Sound) (ha : a ∈ f.held) :
    g.process.prefixOf (f.process.place a) = f.process.prefixOf f.link a := by
  have hlive := (hsound.live a).1 ha
  rw [h.process]
  exact h.shown.prefixOf_flat (Process.ne_foreign_of_live hlive)

/-- Bytes of a block are written, and memory shows it. -/
theorem Shows.modifyPayload {fill : Payload → Payload} (h : g.Shows f)
    (hshown : (f.process.modifyPayload a fill).Shown f.link f.arenas memory) :
    Shows { g with process := { g.process with memory } }
      { f with process := f.process.modifyPayload a fill } where
  process := by rw [h.process]; rfl
  allocators := by
    have hfronts : (f.process.modifyPayload a fill).front = f.process.front :=
      funext fun b => Process.front_congr (Process.site_modifyPayload _ _ _ _)
    rw [hfronts]
    exact h.allocators
  held q := by
    rw [h.held]
    refine exists_congr fun b => and_congr Iff.rfl ?_
    rw [Process.place_congr (Process.site_modifyPayload _ _ _ _)]
  shown := hshown

/-- A user writes to a byte of a block. -/
theorem Shows.wrote (h : g.Shows f) (hsound : f.Sound) (ha : a ∈ f.held) {offset : Nat}
    (hoffset : offset < (f.process.kind a).usable) (cell : Cell) :
    ∃ g', g.perform (.write (f.process.place a) offset cell) = some (none, g') ∧
      g'.Shows { f with process := f.process.modifyPayload a (·.put offset cell) } ∧
      ∀ x, g'.process.memory x ≠ g.process.memory x →
        x.Within ((f.process.place a).shift offset) 1 := by
  have hlive := (hsound.live a).1 ha
  have hne := Process.ne_foreign_of_live hlive
  have hroom : (f.process.kind a).room = (f.process.kind a).usable := BlockKind.room_of_isLive hlive
  have hguard : f.process.place a ∈ g.held ∧
      offset < (g.process.prefixOf (f.process.place a)).kind.usable := by
    refine ⟨(h.held _).2 ⟨a, ha, rfl⟩, ?_⟩
    rw [h.prefixOf hsound ha, Process.kind_prefixOf]
    exact hoffset
  refine ⟨_, if_pos hguard,
    h.modifyPayload (h.shown.put hsound.layout hne (hroom ▸ hoffset) cell), fun x hx => ?_⟩
  have hput : g.process.memory.put ((f.process.place a).shift offset) cell x
      ≠ g.process.memory x := hx
  exact FlatMemory.within_of_overwrite hput

/-- A request for zeroed bytes is served in memory. -/
theorem Shows.handedZeroed (h : g.Shows f) (hsound : f.Sound) (hi : f.Has i allocator)
    (hrun : Storage.allocZeroed ⟨allocator, f.process⟩ size = (made, s)) :
    ∃ memory, FlatStorage.allocZeroed ⟨allocator.flat f.process.front, g.process⟩ size =
        (made.map s.process.place, s.flat memory) ∧
      ((g.handOut (made.map s.process.place)).withStorage i (s.flat memory)).Shows
        ((f.handOut size made).withStorage i s) ∧
      ∀ x, memory x ≠ g.process.memory x → ∃ a, made = some a ∧
        (x.Within (s.process.front a) blockPrefixSize ∨ x.Within (s.process.place a) size) := by
  cases hmade : Storage.alloc ⟨allocator, f.process⟩ size with
  | mk found s₁ =>
    obtain ⟨memory, hran, hshows, hwritten⟩ := h.handed hsound hi hmade
    cases found with
    | none =>
      rw [Storage.allocZeroed, hmade] at hrun
      cases hrun
      refine ⟨memory, ?_, hshows, fun x hx => ?_⟩
      · rw [FlatStorage.allocZeroed, hran]
        rfl
      · obtain ⟨_, hnone, -⟩ := hwritten x hx
        cases hnone
    | some a =>
      rw [Storage.allocZeroed, hmade] at hrun
      cases hrun
      have hserved := Storage.served_alloc hmade
      have hhands := hserved.hands (hsound.listed i allocator hi)
      have hlive := hhands.live a rfl
      have hne := Process.ne_foreign_of_live hlive
      -- the zeros stay inside the block, because it has room for the request
      have hroom : size ≤ (s₁.process.kind a).room := by
        rw [BlockKind.room_of_isLive hlive]
        exact hhands.room a rfl
      have hplace : (s₁.process.modifyPayload a (·.zero size)).place a = s₁.process.place a :=
        Process.place_congr (Process.site_modifyPayload _ _ _ _)
      have hfronts : (s₁.process.modifyPayload a (·.zero size)).front = s₁.process.front :=
        funext fun b => Process.front_congr (Process.site_modifyPayload _ _ _ _)
      have hzeroed := hshows.shown.zero (hsound.handed hi hserved).layout hne hroom
      refine ⟨memory.zero (s₁.process.place a) size, ?_, ?_, fun x hx => ⟨a, rfl, ?_⟩⟩
      · simp only [FlatStorage.allocZeroed, hran, Storage.flat_modifyPayload,
          Option.map_some, hplace]
        rfl
      · simp only [Storage.flat_modifyPayload, Option.map_some, hplace]
        exact hshows.modifyPayload hzeroed
      · by_cases hzero : memory.zero (s₁.process.place a) size x = memory x
        · obtain ⟨b, hb, hwithin⟩ := hwritten x (hzero ▸ hx)
          cases hb
          exact .inl (hfronts ▸ hwithin)
        · exact .inr (hplace ▸ FlatMemory.within_of_overwrite hzero)

/-- What is done to shared storage, memory does, and it writes no byte but those that it may. -/
theorem Shows.step {command : Command Address} (h : g.Shows f) (hsound : f.Sound)
    (hstep : f.Step command made f') :
    ∃ g', g.perform (command.map f.process.place) = some (made.map f'.process.place, g') ∧
      g'.Shows f' ∧
      ∀ x, g'.process.memory x ≠ g.process.memory x → Writes f f' command made x := by
  cases hstep with
  | start settings => exact ⟨_, rfl, h.started settings, fun x hx => absurd rfl hx⟩
  | drop hi =>
    refine ⟨_, ?_, h.dropped hi, fun x hx => absurd rfl hx⟩
    simp only [Command.map, perform, h.join_getElem? hi, Option.bind_eq_bind, Option.bind_some]
    rfl
  | alloc hi hrun =>
    obtain ⟨memory, hran, hshows, hwritten⟩ := h.handed hsound hi hrun
    refine ⟨_, ?_, hshows, fun x hx => ?_⟩
    · simp only [Command.map, perform, h.join_getElem? hi, Option.bind_eq_bind, Option.bind_some,
        hran]
      rfl
    · obtain ⟨a, hmade, hwithin⟩ := hwritten x hx
      exact .handed rfl hmade hwithin
  | allocZeroed hi hrun =>
    obtain ⟨memory, hran, hshows, hwritten⟩ := h.handedZeroed hsound hi hrun
    refine ⟨_, ?_, hshows, fun x hx => ?_⟩
    · simp only [Command.map, perform, h.join_getElem? hi, Option.bind_eq_bind, Option.bind_some,
        hran]
      rfl
    · obtain ⟨a, hmade, hfront | hzero⟩ := hwritten x hx
      · exact .handed rfl hmade hfront
      · exact .zeroed rfl hmade hzero
  | realloc hi ha hrun =>
    obtain ⟨g', hran, hshows, hwritten⟩ := h.exchanged hsound hi ha hrun
    refine ⟨g', hran, hshows, fun x hx => ?_⟩
    obtain ⟨b, hmoved, hwrites⟩ := hwritten x hx
    exact .resized rfl hmoved hwrites
  | free hi ha hrun =>
    obtain ⟨memory, hran, hshows, hwritten⟩ := h.taken hsound hi ha hrun
    refine ⟨_, ?_, hshows, fun x hx => .freed rfl (hwritten x hx)⟩
    have hmem := (h.held _).2 ⟨_, ha, rfl⟩
    simp only [Command.map, perform, h.join_getElem? hi, Option.bind_eq_bind, Option.bind_some,
      hran, if_pos hmem]
    rfl
  | write ha hoffset cell =>
    obtain ⟨g', hran, hshows, hwritten⟩ := h.wrote hsound ha hoffset cell
    exact ⟨g', hran, hshows, fun x hx => .written rfl (hwritten x hx)⟩

/-! ### What memory does is done to shared storage -/

/-- A command that runs in memory is one that shared storage can follow. -/
theorem Shows.exists_step {command : Command Place} {answer : Option Place} (h : g.Shows f)
    (hsound : f.Sound) (hrun : g.perform command = some (answer, g')) :
    ∃ command' made f', command'.map f.process.place = command ∧ f.Step command' made f' := by
  -- places name blocks that are held, and each of these is the place of one address
  cases command with
  | start settings => exact ⟨.start settings, none, _, rfl, .start settings⟩
  | drop i =>
    obtain ⟨flat, hflat, -⟩ := Option.bind_eq_some_iff.1 hrun
    obtain ⟨allocator, hi, -⟩ := h.exists_has hflat
    exact ⟨.drop i, none, _, rfl, .drop hi⟩
  | alloc i size =>
    obtain ⟨flat, hflat, -⟩ := Option.bind_eq_some_iff.1 hrun
    obtain ⟨allocator, hi, -⟩ := h.exists_has hflat
    exact ⟨.alloc i size, _, _, rfl, .alloc hi rfl⟩
  | allocZeroed i size =>
    obtain ⟨flat, hflat, -⟩ := Option.bind_eq_some_iff.1 hrun
    obtain ⟨allocator, hi, -⟩ := h.exists_has hflat
    exact ⟨.allocZeroed i size, _, _, rfl, .allocZeroed hi rfl⟩
  | realloc i q size =>
    obtain ⟨flat, hflat, hrest⟩ := Option.bind_eq_some_iff.1 hrun
    obtain ⟨allocator, hi, -⟩ := h.exists_has hflat
    split at hrest
    · rename_i hq
      obtain ⟨a, ha, rfl⟩ := (h.held q).1 hq
      obtain ⟨moved, s, hran, -⟩ := Storage.resized_realloc (s := ⟨allocator, f.process⟩)
        ((hsound.live a).1 ha) (hsound.listed i allocator hi) size
      exact ⟨.realloc i a size, _, _, rfl, .realloc hi ha hran⟩
    · cases hrest
  | free i q =>
    obtain ⟨flat, hflat, hrest⟩ := Option.bind_eq_some_iff.1 hrun
    obtain ⟨allocator, hi, -⟩ := h.exists_has hflat
    split at hrest
    · rename_i hq
      obtain ⟨a, ha, rfl⟩ := (h.held q).1 hq
      obtain ⟨s, hran, -⟩ := Storage.freed_free (s := ⟨allocator, f.process⟩)
        ((hsound.live a).1 ha)
      exact ⟨.free i a, _, _, rfl, .free hi ha hran⟩
    · cases hrest
  | write q offset cell =>
    simp only [perform] at hrun
    split at hrun
    · rename_i hboth
      obtain ⟨a, ha, rfl⟩ := (h.held q).1 hboth.1
      have hoffset := hboth.2
      rw [h.prefixOf hsound ha, Process.kind_prefixOf] at hoffset
      exact ⟨.write a offset cell, _, _, rfl, .write ha hoffset cell⟩
    · cases hrun

/-- What memory does is done to the storage that it shows. -/
theorem Shows.follow {command : Command Place} {answer : Option Place} (h : g.Shows f)
    (hsound : f.Sound) (hrun : g.perform command = some (answer, g')) :
    ∃ command' made f', command'.map f.process.place = command ∧
      made.map f'.process.place = answer ∧ f.Step command' made f' ∧ g'.Shows f' ∧
      ∀ x, g'.process.memory x ≠ g.process.memory x → Writes f f' command' made x := by
  obtain ⟨command', made, f', rfl, hstep⟩ := h.exists_step hsound hrun
  obtain ⟨g₁, hran, hshows, hwrites⟩ := h.step hsound hstep
  rw [hrun] at hran
  cases hran
  exact ⟨command', made, f', rfl, rfl, hstep, hshows, hwrites⟩

/-! ### Every run -/

/-- Memory that nobody has touched shows storage without blocks. -/
theorem shows_start (system : System) (timing : Bool) :
    Shows { process := { system, timing, memory := .given system } }
      { process := { system, timing } } where
  process := rfl
  allocators := rfl
  held q := by simp
  shown := Process.shown_empty system timing

/-- Memory that comes about shows shared storage that comes about. -/
theorem exists_shared_of_reachable (h : g.Reachable) :
    ∃ f : SharedStorage, f.Reachable ∧ g.Shows f := by
  induction h with
  | start system timing => exact ⟨_, .start system timing, shows_start system timing⟩
  | step hreach hstep ih =>
    obtain ⟨f, hf, hshows⟩ := ih
    obtain ⟨_, _, f', -, -, hfollows, hshows', -⟩ :=
      hshows.follow (SharedStorage.sound_of_reachable hf) hstep
    exact ⟨f', .step hf hfollows, hshows'⟩

/-- Shared storage that comes about is shown by memory that comes about. -/
theorem exists_shows_of_reachable (h : f.Reachable) :
    ∃ g : FlatSharedStorage, g.Reachable ∧ g.Shows f := by
  induction h with
  | start system timing => exact ⟨_, .start system timing, shows_start system timing⟩
  | step hreach hstep ih =>
    obtain ⟨g, hg, hshows⟩ := ih
    obtain ⟨g', hrun, hshows', -⟩ := hshows.step (SharedStorage.sound_of_reachable hreach) hstep
    exact ⟨g', .step hg hrun, hshows'⟩

end FlatSharedStorage

end ExtensionHost
