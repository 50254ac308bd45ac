import ExtensionHost.Proofs.Storage.Layout

/-!
# `ExtensionHost.Proofs.Storage.SharedStorage`: several allocators on one process

Shared storage is a process with any number of allocators, each with settings of
its own, and a record of what its users see: the blocks that they hold,
the class that each small block was cut for, and the block that the prefix
of a freed block points at. The record follows the operations and is not
read by them, so it says what is true of the storage and not what the
storage believes.

Users may call any allocator with any block they hold, whichever allocator
made it, and an allocator may go at any time, which leaves its arenas to
the process (`SharedStorage.Step`). What holds at any time is `SharedStorage.Sound`.

An operation works on one allocator while the others wait. What the others rely on is
`Storage.SparesOthers`: their blocks go on waiting, no block joins a list but one that
was in use, and the layout holds whatever arenas there are besides. Requests, releases
and resizes each have it (`Served.sparesOthers`, `Freed.sparesOthers`,
`Resized.sparesOthers`), and `SharedStorage.sound_step` uses nothing else of them but
how they change the lists.
-/

set_option autoImplicit false

namespace ExtensionHost

/-- Several allocators on one process, and what their users see. -/
structure SharedStorage where
  process : Process
  /-- The allocators; one that is gone leaves its place empty. -/
  allocators : List (Option Allocator) := []
  /-- The blocks that were handed out and not given back. -/
  held : List Address := []
  /-- The class that a small block was cut for. -/
  cutAs : Address → Option SizeClass := fun _ => none
  /-- The block that stands in the prefix of a freed block as the next
  one. -/
  link : Address → Option Address := fun _ => none

namespace SharedStorage

/-- What may be asked of shared storage whose users name blocks by `α`, and what users do
to their blocks. -/
inductive Command (α : Type)
  | start (settings : AllocatorSettings)
  | drop (i : Nat)
  | alloc (i size : Nat)
  | allocZeroed (i size : Nat)
  | realloc (i : Nat) (a : α) (size : Nat)
  | free (i : Nat) (a : α)
  | write (a : α) (offset : Nat) (cell : Cell)
deriving DecidableEq, Repr

/-- The block that a command gives back, resizes or writes to. -/
def Command.target {α : Type} : Command α → Option α
  | realloc _ a _ | free _ a | write a _ _ => some a
  | start _ | drop _ | alloc _ _ | allocZeroed _ _ => none

/-- Shared storage after its `i`-th allocator has worked. -/
def withStorage (f : SharedStorage) (i : Nat) (s : Storage) : SharedStorage :=
  { f with process := s.process, allocators := f.allocators.set i (some s.allocator) }

/-- Records that a block was handed out for a request. A block that was not
in the table before was cut for the class of the request, and the prefix of
a block in use points nowhere. -/
def handOut (f : SharedStorage) (size : Nat) : Option Address → SharedStorage
  | none => f
  | some a =>
    { f with
      held := a :: f.held
      cutAs := fun b =>
        if b = f.process.blocks.size then SizeClass.ofSize? size else f.cutAs b
      link := fun b => if b = a then none else f.link b }

/-- Records that a block was given back to an allocator. The prefix of a
small one points at what was in front of the list. -/
def takeBack (f : SharedStorage) (allocator : Allocator) (a : Address) : SharedStorage :=
  { f with
    held := f.held.erase a
    link := match f.process.kind a with
      | .pool cls => fun b => if b = a then (allocator.freeLists[cls]).head? else f.link b
      | _ => f.link }

/-- Records that a block was resized: one that moved was given back. -/
def exchange (f : SharedStorage) (allocator : Allocator) (a : Address) (size : Nat) :
    Option Address → SharedStorage
  | none => f
  | some b => if b = a then f else (f.handOut size (some b)).takeBack allocator a

/-- The `i`-th allocator is there. -/
def Has (f : SharedStorage) (i : Nat) (allocator : Allocator) : Prop :=
  f.allocators[i]? = some (some allocator)

/-- The ways in which shared storage goes on: what is answered, and the storage
afterwards. Only blocks that are held are resized, given back and written to. -/
inductive Step (f : SharedStorage) : Command Address → Option Address → SharedStorage → Prop
  | start (settings : AllocatorSettings) :
      Step f (.start settings) none { f with allocators := f.allocators ++ [some (.new settings)] }
  | drop {i : Nat} {allocator : Allocator} (hi : f.Has i allocator) :
      Step f (.drop i) none
        { f with
          allocators := f.allocators.set i none
          process := { f.process with
            orphans := f.process.orphans ++ allocator.arenas.arenas.toList } }
  | alloc {i size : Nat} {allocator : Allocator} {made : Option Address} {s : Storage}
      (hi : f.Has i allocator)
      (hrun : Storage.alloc ⟨allocator, f.process⟩ size = (made, s)) :
      Step f (.alloc i size) made ((f.handOut size made).withStorage i s)
  | allocZeroed {i size : Nat} {allocator : Allocator} {made : Option Address} {s : Storage}
      (hi : f.Has i allocator)
      (hrun : Storage.allocZeroed ⟨allocator, f.process⟩ size = (made, s)) :
      Step f (.allocZeroed i size) made ((f.handOut size made).withStorage i s)
  | realloc {i size : Nat} {a : Address} {allocator : Allocator} {moved : Option Address}
      {s : Storage} (hi : f.Has i allocator) (ha : a ∈ f.held)
      (hrun : Storage.realloc a size ⟨allocator, f.process⟩ = .ok moved s) :
      Step f (.realloc i a size) moved ((f.exchange allocator a size moved).withStorage i s)
  | free {i : Nat} {a : Address} {allocator : Allocator} {s : Storage}
      (hi : f.Has i allocator) (ha : a ∈ f.held)
      (hrun : Storage.free a ⟨allocator, f.process⟩ = .ok () s) :
      Step f (.free i a) none ((f.takeBack allocator a).withStorage i s)
  | write {a : Address} {offset : Nat} (ha : a ∈ f.held)
      (hoffset : offset < (f.process.kind a).usable) (cell : Cell) :
      Step f (.write a offset cell) none
        { f with process := f.process.modifyPayload a (·.put offset cell) }

/-- Shared storage that comes about, starting without allocators on a process
without blocks. -/
inductive Reachable : SharedStorage → Prop
  | start (system : System) (timing : Bool) : Reachable { process := { system, timing } }
  | step {f f' : SharedStorage} {command : Command Address} {made : Option Address}
      (h : Reachable f)
      (hstep : f.Step command made f') : Reachable f'

/-- The arenas of an allocator, none if it is gone. -/
def arenasOf (allocator : Option Allocator) : List Arena :=
  match allocator with
  | some allocator => allocator.arenas.arenas.toList
  | none => []

/-- All arenas of shared storage. -/
def arenas (f : SharedStorage) : List Arena := f.process.orphans ++ f.allocators.flatMap arenasOf

/-- The arenas that do not belong to the `i`-th allocator. -/
def otherArenas (f : SharedStorage) (i : Nat) : List Arena :=
  f.process.orphans ++ (f.allocators.eraseIdx i).flatMap arenasOf

/-- Each block of a list points at the next one, and the last one nowhere. -/
def Linked (link : Address → Option Address) : List Address → Prop
  | [] => True
  | a :: rest => link a = rest.head? ∧ Linked link rest

/-- What holds of shared storage at any time. -/
structure Sound (f : SharedStorage) : Prop where
  listed : ∀ (i : Nat) (allocator : Allocator), f.Has i allocator → allocator.Listed f.process
  apart : ∀ (i j : Nat) (allocator other : Allocator) (c d : SizeClass) (a : Address), i ≠ j →
    f.Has i allocator → f.Has j other → a ∈ allocator.freeLists[c] → a ∉ other.freeLists[d]
  layout : f.process.Layout f.arenas
  live : ∀ a, a ∈ f.held ↔ f.process.Live a
  once : f.held.Nodup
  cut : ∀ a cls, f.process.smallClass? a = some cls → f.cutAs a = some cls
  linked : ∀ (i : Nat) (allocator : Allocator) (cls : SizeClass), f.Has i allocator →
    Linked f.link allocator.freeLists[cls]

end SharedStorage

/-! ### What one operation does to the storage -/

/-- What the users of other allocators may rely on while one allocator
works on a request for `size` bytes. -/
structure Storage.SparesOthers (s : Storage) (size : Nat) (s' : Storage) : Prop where
  listed : s'.allocator.Listed s'.process
  layout : ∀ rest, s.process.Layout (s.allocator.arenas.arenas.toList ++ rest) →
    s'.process.Layout (s'.allocator.arenas.arenas.toList ++ rest)
  orphans : s'.process.orphans = s.process.orphans
  /-- A block that waits elsewhere goes on waiting. -/
  elsewhere : ∀ b cls, s.process.kind b = .freed cls →
    (∀ c : SizeClass, b ∉ s.allocator.freeLists[c]) → s'.process.kind b = .freed cls
  /-- Only blocks that were in use join a list. -/
  joins : ∀ (cls : SizeClass) b, b ∈ s'.allocator.freeLists[cls] →
    b ∈ s.allocator.freeLists[cls] ∨ s.process.Live b
  /-- A block keeps the class that it was cut for. -/
  cut : ∀ b cls, s'.process.smallClass? b = some cls → s.process.smallClass? b = some cls ∨
    b = s.process.blocks.size ∧ SizeClass.ofSize? size = some cls

namespace Storage

variable {s s' : Storage} {a b : Address} {size : Nat} {made moved : Option Address}

/-- What is handed out was on a list, or is new in the table. -/
theorem Served.source (h : Served s size (some a) s') :
    (∃ cls : SizeClass, a ∈ s.allocator.freeLists[cls]) ∨ a = s.process.blocks.size := by
  cases h with
  | @reused cls _ rest hcls hlist => exact .inl ⟨cls, by rw [hlist]; exact List.mem_cons_self⟩
  | carved hcls hlist hcarve =>
    exact .inr (congrArg Array.size (ArenaPool.sameBut_carve hcarve).blocks)
  | large hcls hlimit => exact .inr rfl

/-- An answer to a request drops no arena. -/
theorem Served.orphans (h : Served s size made s') : s'.process.orphans = s.process.orphans := by
  cases h with
  | reused hcls hlist => rfl
  | carved hcls hlist hcarve =>
    obtain ⟨_, _, _, rfl⟩ := ArenaPool.sameBut_carve hcarve
    rfl
  | uncarved hcls hlist hcarve =>
    obtain ⟨_, _, _, rfl⟩ := ArenaPool.sameBut_carve hcarve
    rfl
  | large hcls hlimit => rfl
  | refused hcls hsame =>
    obtain ⟨_, _, _, rfl⟩ := hsame
    rfl

/-- A block that waits elsewhere still waits there when a request was answered. -/
theorem Served.elsewhere (h : Served s size made s') {cls : SizeClass}
    (hb : s.process.kind b = .freed cls) (hwaits : ∀ c : SizeClass, b ∉ s.allocator.freeLists[c]) :
    s'.process.kind b = .freed cls := by
  rw [Process.kind_congr (h.getElem?_of_ne fun hmade => ?_), hb]
  rcases (hmade ▸ h).source with ⟨c, hmem⟩ | rfl
  · exact hwaits c hmem
  · exact Nat.lt_irrefl _ (Process.lt_size_of_kind (by rw [hb]; simp))

/-- A block that is small after a request was so before, or was cut for it. -/
theorem Served.cut (h : Served s size made s') (hlisted : s.allocator.Listed s.process)
    {cls : SizeClass} (hb : s'.process.smallClass? b = some cls) :
    s.process.smallClass? b = some cls ∨
      b = s.process.blocks.size ∧ SizeClass.ofSize? size = some cls := by
  -- no other block changes its mark, so only the one that is handed out has to be looked at
  by_cases hmade : made = some b
  · subst hmade
    have hkind := h.kind hlisted
    cases hcls : SizeClass.ofSize? size with
    | none =>
      simp only [hcls] at hkind
      simp [Process.smallClass?, hkind] at hb
    | some c =>
      simp only [hcls] at hkind
      rw [Process.smallClass?_pool hkind] at hb
      cases hb
      cases h with
      | @reused served _ rest hserved hlist =>
        rw [hcls] at hserved
        cases hserved
        exact .inl (Process.smallClass?_freed
          (hlisted.freed cls b (by rw [hlist]; exact List.mem_cons_self)))
      | carved hserved hlist hcarve =>
        exact .inr ⟨congrArg Array.size (ArenaPool.sameBut_carve hcarve).blocks, rfl⟩
      | large hserved hlimit => exact .inr ⟨rfl, rfl⟩
  · exact .inl ((Process.smallClass?_congr (Process.kind_congr (h.getElem?_of_ne hmade))).symm.trans
      hb)

/-- An allocator that answers a request spares the users of others. -/
theorem Served.sparesOthers (h : Served s size made s') (hlisted : s.allocator.Listed s.process) :
    s.SparesOthers size s' where
  listed := h.listed hlisted
  layout _ hlayout := h.layout hlisted hlayout
  orphans := h.orphans
  elsewhere _ _ := h.elsewhere
  joins _ _ hb := .inl (h.mem_of_mem hlisted hb).1
  cut _ _ := h.cut hlisted

/-- Releasing a block cuts none. -/
theorem Freed.cut (h : Freed s a s') {cls : SizeClass}
    (hb : s'.process.smallClass? b = some cls) : s.process.smallClass? b = some cls := by
  by_cases hba : b = a
  · subst hba
    cases h with
    | @pool c hkind =>
      have hlt := Process.lt_size_of_live (Process.live_pool hkind)
      have hfreed : (s.withFreed b c).process.kind b = .freed c := Process.kind_setKind_self hlt _
      rw [Process.smallClass?_freed hfreed] at hb
      rw [Process.smallClass?_pool hkind, hb]
    | @heap size hkind =>
      have hlt := Process.lt_size_of_live (Process.live_heap hkind)
      have hforeign : (s.withReturned b size).process.kind b = .foreign :=
        Process.kind_heapFree_self hlt _
      simp [Process.smallClass?, hforeign] at hb
  · exact (Process.smallClass?_congr (Process.kind_congr (h.frees.others b hba))).symm.trans hb

/-- A release drops no arena. -/
theorem Freed.orphans (h : Freed s a s') : s'.process.orphans = s.process.orphans := by
  cases h <;> rfl

/-- An allocator that takes a block back spares the users of others. -/
theorem Freed.sparesOthers (h : Freed s a s') (hlive : s.process.Live a)
    (hlisted : s.allocator.Listed s.process) (size : Nat) : s.SparesOthers size s' where
  listed := h.listed hlisted
  layout _ hlayout := h.layout hlayout
  orphans := h.orphans
  elsewhere b cls hb _ := by
    have hne : b ≠ a := fun heq => Process.not_live_freed hb (heq ▸ hlive)
    rw [Process.kind_congr (h.frees.others b hne), hb]
  joins cls b hb := by
    rcases h.mem_of_mem hb with hmem | rfl
    · exact .inl hmem
    · exact .inr hlive
  cut _ _ hb := .inl (h.cut hb)

/-- A large block that is resized is none that waits, and cuts none. -/
theorem heapRealloc_sparesOthers {p p' : Process} {old : Nat}
    (h : p.heapRealloc a old size = (moved, p'))
    (hkind : p.kind a = .heap old) : p'.orphans = p.orphans ∧
      (∀ b cls, p.kind b = .freed cls → p'.kind b = .freed cls) ∧
      ∀ b cls, p'.smallClass? b = some cls → p.smallClass? b = some cls := by
  have hmoves := Process.moves_heapRealloc h hkind
  have horphans : p'.orphans = p.orphans := by
    rcases Process.heapRealloc_cases h with ⟨-, _, _, -, rfl⟩ | ⟨-, rfl⟩ | ⟨-, rfl⟩ <;> rfl
  refine ⟨horphans, fun b cls hb => Process.freed_heapRealloc h hkind hb, fun b cls hb => ?_⟩
  cases moved with
  | none =>
    have hsame : p'.kind b = p.kind b := by
      by_cases hba : b = a
      · exact hba ▸ Process.kind_congr (hmoves.unmoved rfl)
      · exact Process.kind_congr (hmoves.others b hba nofun)
    exact (Process.smallClass?_congr hsame).symm.trans hb
  | some c =>
    obtain ⟨hplace, hc, -, -⟩ := Process.heapRealloc_some h hkind
    -- neither address has a small block afterwards
    have hbc : b ≠ c := by
      rintro rfl
      simp [Process.smallClass?, hc] at hb
    have hba : b ≠ a := by
      rintro rfl
      obtain ⟨-, hforeign⟩ := hplace.resolve_left (Ne.symm hbc)
      simp [Process.smallClass?, hforeign] at hb
    have hsame := hmoves.others b hba fun heq => hbc (Option.some.inj heq).symm
    exact (Process.smallClass?_congr (Process.kind_congr hsame)).symm.trans hb

/-- An allocator that resizes a block spares the users of others. -/
theorem Resized.sparesOthers (h : Resized s a size moved s') (hlive : s.process.Live a)
    (hlisted : s.allocator.Listed s.process) : s.SparesOthers size s' := by
  have hlisted' := h.listed hlisted
  have hlayout : ∀ rest, s.process.Layout (s.allocator.arenas.arenas.toList ++ rest) →
      s'.process.Layout (s'.allocator.arenas.arenas.toList ++ rest) :=
    fun _ hlayout => h.layout hlisted hlayout
  cases h with
  | stays hkind hcls => exact ⟨hlisted', hlayout, rfl, fun _ _ hb _ => hb, fun _ _ => .inl,
      fun _ _ => .inl⟩
  | @moved b s₁ _ hkind hserved hfreed =>
    have hserves := hserved.sparesOthers hlisted
    refine ⟨hlisted', hlayout, hfreed.orphans.trans hserves.orphans, fun c cls hc hwaits => ?_,
      fun cls c hc => ?_, fun c cls hc => hserves.cut c cls ?_⟩
    -- a block that waits elsewhere is not the one that is given back
    · have hne : c ≠ a := fun heq => Process.not_live_freed hc (heq ▸ hlive)
      rw [Process.kind_congr (hfreed.frees.others c hne)]
      exact (kind_withCopy s₁ a _ _ c).trans (hserves.elsewhere c cls hc hwaits)
    · rcases hfreed.mem_of_mem hc with hmem | rfl
      · exact hserves.joins cls c hmem
      · exact .inr hlive
    · exact (Process.smallClass?_congr (kind_withCopy s₁ a _ _ c)).symm.trans (hfreed.cut hc)
  | unmoved hserved =>
    have hserves := hserved.sparesOthers hlisted
    exact ⟨hlisted', hlayout, hserves.orphans, hserves.elsewhere, hserves.joins, hserves.cut⟩
  | resized hkind hcls hlimit hheap =>
    obtain ⟨horphans, hfreed, hcut⟩ := heapRealloc_sparesOthers hheap hkind
    exact ⟨hlisted', hlayout, horphans, fun b cls hb _ => hfreed b cls hb, fun _ _ => .inl,
      fun b cls hb => .inl (hcut b cls hb)⟩
  | refused hsame =>
    obtain ⟨_, _, _, rfl⟩ := hsame
    exact ⟨hlisted', hlayout, rfl, fun _ _ hb _ => hb, fun _ _ => .inl, fun _ _ => .inl⟩

end Storage

end ExtensionHost
