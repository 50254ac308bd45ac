import ExtensionHost.Proofs.Storage.Calls
import ExtensionHost.Proofs.Storage.Separation

/-!
# `ExtensionHost.Proofs.Storage.ThreadedStorage`: threads that make requests in any order

Threaded storage is shared storage whose allocators belong to threads. A thread makes its
requests through the entry points, its allocator comes into being when it is
first needed, and while that one is lent out, or after the thread has ended,
requests do without it. Requests of different threads may follow each other
in any order, and any thread may resize or release any block in use, by
either family of entry points. An allocator that belongs to no thread is a
member as well: nobody uses the entry points on its behalf.

`ThreadedStorage.Step` runs the entry points themselves, as a machine does
(`ThreadedStorage.step_of_entry`, `step_of_own`), and `ThreadedStorage.sound_step` carries
`SharedStorage.Sound` through each of them. Half of the work is done by shared storage,
since an allocator that answers a request does what it does there
(`Sound.pooled`). The other half are the requests that no allocator answers
(`Sound.unpooled`): the system makes, resizes and takes back large blocks, and
a small block is retired, which means that it is marked as freed and on no
list.
-/

set_option autoImplicit false

namespace ExtensionHost

/-! ### Without an allocator -/

namespace Process

variable {p p' p'' : Process} {a b : Address} {size : Nat} {ended made : Option Address}

/-- What all allocators may rely on while one thread does without its own,
besides that blocks which wait go on waiting (`RequestEffect.waits`): the layout
holds, and no small block is new. -/
structure Leaves (p p' : Process) : Prop where
  layout : ∀ arenas, p.Layout arenas → p'.Layout arenas
  orphans : p'.orphans = p.orphans
  cut : ∀ b cls, p'.smallClass? b = some cls → p.smallClass? b = some cls

/-- What all allocators may rely on they may rely on over time. -/
theorem Leaves.trans (h : p.Leaves p') (h' : p'.Leaves p'') : p.Leaves p'' where
  layout arenas hlayout := h'.layout arenas (h.layout arenas hlayout)
  orphans := h'.orphans.trans h.orphans
  cut b cls hb := h.cut b cls (h'.cut b cls hb)

/-- The record of requests and events is none of what allocators rely on. -/
theorem leaves_sameBut (h : p.SameBut p') : p.Leaves p' where
  layout _ hlayout := hlayout.sameBut h
  orphans := by
    obtain ⟨_, _, _, rfl⟩ := h
    rfl
  cut b cls hb := (smallClass?_congr (kind_congr (by rw [h.blocks]))).symm.trans hb

/-- What blocks hold is none of what allocators rely on. -/
theorem leaves_alike (h : p.Alike p') : p.Leaves p' where
  layout _ hlayout := hlayout.congr (Nat.le_of_eq h.requests.symm)
    (fun a => smallClass?_congr (h.kind a)) (fun a size ha => ⟨size, (h.kind a).symm.trans ha⟩)
    h.site
  orphans := h.orphans
  cut b _ hb := (smallClass?_congr (h.kind b)).symm.trans hb

/-- A request to the system leaves what allocators rely on. -/
theorem leaves_heapAlloc (h : p.heapAlloc size = (made, p')) : p.Leaves p' := by
  rcases heapAlloc_cases h with ⟨-, hsame⟩ | ⟨-, rfl⟩
  · exact leaves_sameBut hsame
  · have hpush : (p.withLarge (max size 1)).blocks = p.blocks.push
        ⟨.region p.requests, .heap (max size 1), p.system.fresh p.requests blockPrefixSize⟩ := rfl
    refine ⟨fun arenas hlayout => hlayout.addLarge rfl rfl, rfl, fun b cls hb => ?_⟩
    have hne : b ≠ p.blocks.size := by
      rintro rfl
      rw [smallClass?, kind_of_push hpush] at hb
      cases hb
    exact (small_of_push hpush hb hne).1

/-- A resize by the system leaves what allocators rely on. -/
theorem leaves_heapRealloc {old : Nat} (hkind : p.kind a = .heap old)
    (h : p.heapRealloc a old size = (made, p')) : p.Leaves p' := by
  obtain ⟨horphans, -, hcut⟩ := Storage.heapRealloc_sparesOthers h hkind
  exact ⟨fun arenas hlayout => Storage.layout_heapRealloc h hkind hlayout, horphans, hcut⟩

/-- A release to the system leaves what allocators rely on. -/
theorem leaves_heapFree {old : Nat} (hkind : p.kind a = .heap old) :
    p.Leaves (p.heapFree a old) where
  layout arenas hlayout := by
    have hmarked : (p.setKind a .foreign).Layout arenas := hlayout.markLarge hkind (.inl rfl)
    exact hmarked.congr (Nat.le_refl _) (fun _ => rfl) (fun b n hb => ⟨n, hb⟩) fun _ => rfl
  orphans := rfl
  cut b cls hb := by
    have hba : b ≠ a := by
      rintro rfl
      rw [smallClass?, kind_heapFree_self (lt_size_of_live (live_heap hkind))] at hb
      cases hb
    exact (smallClass?_congr (kind_congr (getElem?_heapFree_of_ne hba old))).symm.trans hb

/-- A small block that is retired keeps its class and its place. -/
theorem leaves_retire {cls : SizeClass} (hkind : p.kind a = .pool cls) :
    p.Leaves (p.setKind a (.freed cls)) where
  layout arenas hlayout := hlayout.mark (smallClass?_pool hkind) (.inr rfl)
  orphans := rfl
  cut b c hb := by
    by_cases hba : b = a
    · subst hba
      have hfreed : (p.setKind b (.freed cls)).kind b = .freed cls :=
        kind_setKind_self (lt_size_of_live (live_pool hkind)) _
      rw [smallClass?_freed hfreed] at hb
      rw [smallClass?_pool hkind, hb]
    · exact (smallClass?_congr (kind_congr (getElem?_setKind_of_ne hba _))).symm.trans hb

/-- A thread that does without its own allocator leaves what the others rely on. -/
theorem RequestEffect.leaves (h : p.RequestEffect size ended made p') : p.Leaves p' := by
  cases h with
  | made hmade => exact leaves_heapAlloc hmade
  | refused hsame => exact leaves_sameBut hsame
  | resized hkind hheap => exact leaves_heapRealloc hkind hheap
  | @evicted a b cls p₁ hkind hmade =>
    have hcopied := leaves_alike ((Alike.refl p₁).modifyPayload b
      (·.copyFrom (p₁.payload a) (min cls.bytes size)))
    refine ((leaves_heapAlloc hmade).trans hcopied).trans ?_
    exact leaves_retire (kind_evicted _ hkind hmade)
  | returned hkind => exact leaves_heapFree hkind
  | retired hkind => exact leaves_retire hkind

end Process

/-! ### The record of the users -/

namespace SharedStorage

variable {f g : SharedStorage} {i : Nat} {allocator : Allocator} {a b : Address} {size : Nat}
  {ended made : Option Address} {s : Storage} {p' : Process}

/-- Records that `ended` went out of use and `made` came into use. -/
def note (f : SharedStorage) (allocator : Allocator) (size : Nat) (ended made : Option Address) :
    SharedStorage :=
  match ended with
  | none => f.handOut size made
  | some a =>
    match made with
    | none => f.takeBack allocator a
    | some b => f.exchange allocator a size (some b)

/-- Shared storage after the member `i` has worked on its storage. -/
def withMemory (f : SharedStorage) (i : Nat) (m : Memory) : SharedStorage :=
  { f with process := m.process, allocators := f.allocators.set i m.allocator }

/-- What the users of storage record changes no allocator. -/
theorem allocators_note : (f.note allocator size ended made).allocators = f.allocators := by
  cases ended with
  | none => cases made <;> rfl
  | some a =>
    cases made with
    | none => rfl
    | some b => exact allocators_exchange

/-- The record does not depend on the allocators that there are. -/
theorem note_withAllocators (allocators : List (Option Allocator)) :
    note { f with allocators } allocator size ended made =
      { f.note allocator size ended made with allocators } := by
  cases ended with
  | none => cases made <;> rfl
  | some a =>
    cases made with
    | none => rfl
    | some b =>
      by_cases hba : b = a
      · simp only [note, exchange, hba, if_true]
      · simp only [note, exchange, if_neg hba]
        rfl

/-- An allocator that is put where it was. -/
theorem set_of_has {allocators : List (Option Allocator)} {member : Option Allocator}
    (hi : allocators[i]? = some member) : allocators.set i member = allocators := by
  obtain ⟨hlt, rfl⟩ := List.getElem?_eq_some_iff.1 hi
  exact List.set_getElem_self hlt

/-- The invariant after something was done without an allocator and the
record of the users has followed. -/
theorem Sound.beside (h : f.Sound) (hleaves : f.process.Leaves p')
    (hwaits : ∀ b cls, f.process.kind b = .freed cls → p'.kind b = .freed cls)
    (hsame : g.allocators = f.allocators) (hlive : ∀ b, b ∈ g.held ↔ p'.Live b)
    (honce : g.held.Nodup) (hcut : ∀ b cls, p'.smallClass? b = some cls → g.cutAs b = some cls)
    (hlink : ∀ b cls, f.process.kind b = .freed cls → g.link b = f.link b) :
    Sound { g with process := p' } := by
  have hhas : ∀ {j other}, Has { g with process := p' } j other → f.Has j other := fun hj => by
    rwa [Has, ← hsame]
  refine ⟨fun j other hj => (h.listed j other (hhas hj)).of_others hwaits,
    fun j k other third c d b hjk hj hk => h.apart j k other third c d b hjk (hhas hj) (hhas hk),
    ?layout, hlive, honce, hcut, fun j other c hj => ?linked⟩
  case layout =>
    have harenas : arenas { g with process := p' } = f.arenas := by
      rw [arenas, arenas, hleaves.orphans, hsame]
    rw [harenas]
    exact hleaves.layout _ h.layout
  case linked =>
    refine (h.linked j other c (hhas hj)).congr fun b hb => ?_
    exact hlink b c ((h.listed j other (hhas hj)).freed c b hb)

/-- The record is about the marks in front of the blocks. -/
theorem Sound.of_kind (h : f.Sound) (hleaves : f.process.Leaves p')
    (hkind : ∀ b, p'.kind b = f.process.kind b) : Sound { f with process := p' } := by
  refine h.beside hleaves (fun b _ hb => (hkind b).trans hb) rfl (fun b => ?_) h.once
    (fun b cls hb => h.cut b cls (hleaves.cut b cls hb)) fun _ _ _ => rfl
  rw [h.live, Process.Live, Process.Live, hkind]

/-- What blocks hold and which events were reported does not matter. -/
theorem Sound.alike (h : f.Sound) (halike : f.process.Alike p') :
    Sound { f with process := p' } :=
  h.of_kind (Process.leaves_alike halike) halike.kind

/-- Nor does how often the system was asked. -/
theorem Sound.sameBut (h : f.Sound) (hsame : f.process.SameBut p') :
    Sound { f with process := p' } :=
  h.of_kind (Process.leaves_sameBut hsame) fun _ => Process.kind_congr (by rw [hsame.blocks])

/-- An allocator answers a request as it does in shared storage. -/
theorem Sound.pooled (h : f.Sound) (hi : f.Has i allocator)
    (hended : ∀ a, ended = some a → a ∈ f.held)
    (heffect : Storage.RequestEffect ⟨allocator, f.process⟩ size ended made s) :
    ((f.note allocator size ended made).withStorage i s).Sound := by
  cases heffect with
  | served hserved => exact h.handed hi hserved
  | resized hresized => exact h.exchanged hi (hended _ rfl) hresized
  | unresized hresized =>
    cases hresized with
    | unmoved hserved => exact h.handed hi hserved
    | @refused process hsame =>
      have hstays : f.withStorage i ⟨allocator, process⟩ = { f with process } := by
        rw [withStorage, set_of_has hi]
      show (f.withStorage i ⟨allocator, process⟩).Sound
      rw [hstays]
      exact h.sameBut hsame
  | freed hfreed => exact h.taken hi (hended _ rfl) hfreed

/-- What is done without an allocator keeps shared storage sound. The record does
not say which allocator a block was given back to, because it joins no
list. -/
theorem Sound.unpooled (h : f.Sound) (allocator : Allocator)
    (hended : ∀ a, ended = some a → a ∈ f.held)
    (heffect : f.process.RequestEffect size ended made p') :
    Sound { f.note allocator size ended made with process := p' } := by
  have hleaves := heffect.leaves
  have hwaits : ∀ b cls, f.process.kind b = .freed cls → p'.kind b = .freed cls :=
    fun b cls hb => heffect.waits hb
  have hold : ∀ b cls, p'.smallClass? b = some cls → f.process.smallClass? b = some cls ∨
      b = f.process.blocks.size ∧ SizeClass.ofSize? size = some cls :=
    fun b cls hb => .inl (hleaves.cut b cls hb)
  -- no list changes, so of the record only the blocks that wait have to stay linked
  cases ended with
  | none =>
    have hhands := heffect.hands
    obtain ⟨hlive, honce⟩ := h.held_handOut hhands
    refine h.beside hleaves hwaits allocators_note hlive honce
      (h.cutAs_handOut (fun hmade b => ?_) hold) fun b cls hb => ?_
    · subst hmade
      exact Process.smallClass?_congr (Process.kind_congr (hhands.others b nofun))
    · cases made with
      | none => rfl
      | some a =>
        refine if_neg ?_
        rintro rfl
        exact Process.not_live_freed (hwaits b cls hb) (hhands.live b rfl)
  | some a =>
    have ha := hended a rfl
    have hused := (h.live a).1 ha
    cases made with
    | none =>
      obtain ⟨hlive, honce⟩ := h.held_takeBack allocator heffect.frees
      refine h.beside hleaves hwaits rfl hlive honce
        (fun b cls hb => h.cut b cls (hleaves.cut b cls hb)) fun b cls hb => link_takeBack_of_ne ?_
      rintro rfl
      exact Process.not_live_freed hb hused
    | some b =>
      have hmoves := heffect.moves
      obtain ⟨hlive, honce⟩ := h.held_exchange allocator ha hmoves
      exact h.beside hleaves hwaits allocators_note hlive honce (h.cutAs_exchange ha hmoves hold)
        fun c cls hc => link_exchange hused hmoves hc (hwaits c cls hc)

/-- An allocator comes into being when it is first used. -/
theorem Sound.touched (h : f.Sound) (hi : f.allocators[i]? = some none)
    (settings : AllocatorSettings) :
    Sound { f with allocators := f.allocators.set i (some (.new settings)) } := by
  obtain ⟨hlt, hnone⟩ := List.getElem?_eq_some_iff.1 hi
  refine h.joined settings (fun j other hj => ?_) ?_
  · by_cases hji : j = i
    · subst hji
      rw [List.getElem?_set_self hlt] at hj
      exact .inr (by cases hj; rfl)
    · rw [List.getElem?_set_ne (Ne.symm hji)] at hj
      exact .inl hj
  · have hold := (List.getElem_cons_eraseIdx_perm hlt).flatMap_right arenasOf
    have hnew := (List.set_perm_cons_eraseIdx hlt (some (.new settings))).flatMap_right arenasOf
    rw [hnone] at hold
    exact hold.symm.trans hnew.symm

end SharedStorage

/-! ### Storage of several threads -/

/-- Threads with their allocators on one process. -/
structure ThreadedStorage where
  shared : SharedStorage
  /-- What an allocator made from now on is set up with. -/
  installed : AllocatorSettings := {}
  /-- Whether a member cannot reach its allocator: it is lent out, or gone. -/
  lent : Nat → Bool := fun _ => false

namespace ThreadedStorage

/-- What may happen to threaded storage. -/
inductive Command
  | install (settings : AllocatorSettings)
  /-- A thread starts, or an allocator that belongs to none. -/
  | join (settings : Option AllocatorSettings)
  | lend (i : Nat)
  | giveBack (i : Nat)
  /-- A thread ends. -/
  | leave (i : Nat)
  | request (i : Nat) (server : Server) (request : Request)
deriving DecidableEq, Repr

/-- The storage that a member sees. -/
def view (c : ThreadedStorage) (i : Nat) : Memory where
  process := c.shared.process
  installed := c.installed
  allocator := c.shared.allocators[i]?.join
  lent := c.lent i

/-- The storage after a member has made a request that ended one block and handed
out another one. -/
def served (c : ThreadedStorage) (i size : Nat) (ended made : Option Address) (m : Memory) :
    ThreadedStorage :=
  { c with shared := (c.shared.note (c.view i).theAllocator size ended made).withMemory i m }

/-- The ways in which threaded storage goes on: what is answered, and the storage
afterwards. Only blocks that are held are resized and given back, by
whichever member. An allocator can be called directly as long as it is
there. -/
inductive Step (c : ThreadedStorage) : Command → Option Address → ThreadedStorage → Prop
  | install (settings : AllocatorSettings) :
      Step c (.install settings) none { c with installed := settings }
  | join (settings : Option AllocatorSettings) :
      Step c (.join settings) none
        { c with shared := { c.shared with
            allocators := c.shared.allocators ++ [settings.map .new] } }
  | lend {i : Nat} (hi : i < c.shared.allocators.length) (hlent : c.lent i = false) :
      Step c (.lend i) none
        { c with
          shared := c.shared.withMemory i (c.view i).touch
          lent := Function.update c.lent i true }
  | giveBack {i : Nat} {allocator : Allocator} (hi : c.shared.Has i allocator) :
      Step c (.giveBack i) none { c with lent := Function.update c.lent i false }
  | leave {i : Nat} (hi : i < c.shared.allocators.length) :
      Step c (.leave i) none
        { c with
          shared := c.shared.withMemory i (c.view i).endThread
          lent := Function.update c.lent i true }
  | request {i : Nat} {server : Server} {request : Request} {made : Option Address} {m : Memory}
      (hi : i < c.shared.allocators.length)
      (hown : server = .own → ∃ allocator, c.shared.Has i allocator)
      (hheld : ∀ a, request.target = some a → a ∈ c.shared.held)
      (hrun : Memory.answer server request (c.view i) = .ok made m) :
      Step c (.request i server request) made
        (c.served i (request.bytes server) (request.ended made) made m)

variable {c c' : ThreadedStorage} {i : Nat} {allocator : Allocator} {size : Nat}
  {ended made : Option Address}

/-- The allocator of a thread is the one that is there, if one is. -/
theorem join_getElem? {i : Nat} {member : Option Allocator}
    (hi : c.shared.allocators[i]? = some member) : c.shared.allocators[i]?.join = member := by
  rw [hi]
  cases member <;> rfl

/-- What a member sees of its allocator is what is there. -/
theorem set_view (hi : i < c.shared.allocators.length) :
    c.shared.allocators.set i (c.view i).allocator = c.shared.allocators := by
  have hget := List.getElem?_eq_getElem hi
  exact SharedStorage.set_of_has (hget.trans (congrArg some (join_getElem? hget).symm))

/-- What a member sees is in order. -/
theorem sound_view (h : c.shared.Sound) (i : Nat) : (c.view i).Sound := by
  show (Option.getD (c.shared.allocators[i]?.join) _).Listed c.shared.process
  cases hi : c.shared.allocators[i]?.join with
  | none => exact Allocator.listed_new c.installed _
  | some allocator => exact h.listed i allocator (Option.join_eq_some_iff.1 hi)

/-- A member whose allocator is made now. -/
theorem sound_touch (h : c.shared.Sound) (hi : i < c.shared.allocators.length) :
    (c.shared.withMemory i (c.view i).touch).Sound := by
  have hget := List.getElem?_eq_getElem hi
  show SharedStorage.Sound { c.shared with allocators := c.shared.allocators.set i _ }
  cases hmember : c.shared.allocators[i] with
  | none =>
    rw [hmember] at hget
    have htouched : (c.view i).touch.allocator = some (.new c.installed) := by
      show some (Option.getD (c.shared.allocators[i]?.join) _) = _
      rw [join_getElem? hget]
      rfl
    rw [htouched]
    exact h.touched hget c.installed
  | some allocator =>
    rw [hmember] at hget
    have htouched : (c.view i).touch.allocator = some allocator := by
      show some (Option.getD (c.shared.allocators[i]?.join) _) = _
      rw [join_getElem? hget]
      rfl
    rw [htouched, SharedStorage.set_of_has hget]
    exact h

/-- A request keeps the storage sound, whoever answers it. -/
theorem sound_served {through : Bool} {m m₁ : Memory} (h : c.shared.Sound)
    (hi : i < c.shared.allocators.length) (hended : ∀ a, ended = some a → a ∈ c.shared.held)
    (heffect : (c.view i).RequestEffect size ended made through m₁) (halike : m₁.Alike m) :
    (c.served i size ended made m).shared.Sound := by
  -- writing and reporting come last, so the storage is sound before and after them
  obtain ⟨process, installed, allocator, lent⟩ := m
  cases heffect with
  | @pooled s heffect =>
    obtain rfl : allocator = some s.allocator := halike.allocator
    -- the allocator is made first if it has to be
    have htouched := sound_touch h hi
    have hhas : (c.shared.withMemory i (c.view i).touch).Has i (c.view i).theAllocator :=
      List.getElem?_set_self hi
    have hdone := (htouched.pooled hhas hended heffect).alike halike.process
    have hnote : (c.shared.withMemory i (c.view i).touch).note (c.view i).theAllocator size
      ended made
        = { c.shared.note (c.view i).theAllocator size ended made with
          allocators := c.shared.allocators.set i (some (c.view i).theAllocator) } :=
      SharedStorage.note_withAllocators _
    have hsame : ({ ((c.shared.withMemory i (c.view i).touch).note (c.view i).theAllocator size
        ended made).withStorage i s with process } : SharedStorage)
        = (c.served i size ended made ⟨process, installed, some s.allocator, lent⟩).shared := by
      rw [hnote]
      simp only [SharedStorage.withStorage, served, SharedStorage.withMemory,
        SharedStorage.allocators_note, List.set_set]
    rw [← hsame]
    exact hdone
  | @unpooled p heffect =>
    obtain rfl : allocator = c.shared.allocators[i]?.join := halike.allocator
    have hdone := (h.unpooled (c.view i).theAllocator hended heffect).alike halike.process
    have hset : (c.shared.note (c.view i).theAllocator size ended made).allocators.set i
        (c.shared.allocators[i]?.join)
        = (c.shared.note (c.view i).theAllocator size ended made).allocators := by
      rw [SharedStorage.allocators_note]
      exact set_view hi
    show SharedStorage.Sound { c.shared.note (c.view i).theAllocator size ended made with
      process, allocators := _ }
    rw [hset]
    exact hdone

/-- A member whose allocator goes. -/
theorem sound_leave (h : c.shared.Sound) (hi : i < c.shared.allocators.length) :
    (c.shared.withMemory i (c.view i).endThread).Sound := by
  have hget := List.getElem?_eq_getElem hi
  have hview : (c.view i).allocator = c.shared.allocators[i] := join_getElem? hget
  cases hmember : c.shared.allocators[i] with
  | none =>
    rw [hmember] at hget hview
    have hstays : c.shared.withMemory i (c.view i).endThread = c.shared := by
      rw [Memory.endThread, hview]
      show { c.shared with allocators := c.shared.allocators.set i (c.view i).allocator } = _
      rw [hview, SharedStorage.set_of_has hget]
    rw [hstays]
    exact h
  | some allocator =>
    rw [hmember] at hget hview
    have hgone : c.shared.withMemory i (c.view i).endThread
        = { c.shared with
          allocators := c.shared.allocators.set i none
          process := { c.shared.process with
            orphans := c.shared.process.orphans ++ allocator.arenas.arenas.toList } } := by
      rw [Memory.endThread, hview]
      rfl
    rw [hgone]
    exact h.dropped hget

/-- A request about blocks that are held is answered. -/
theorem effect_request (h : c.shared.Sound) (i : Nat) (server : Server) (request : Request)
    (hheld : ∀ a, request.target = some a → a ∈ c.shared.held) :
    ∃ made m₁ m through, Memory.answer server request (c.view i) = .ok made m ∧
      (c.view i).RequestEffect (request.bytes server) (request.ended made) made through m₁ ∧
        m₁.Alike m ∧
      (through = false ∧ made = none ∧ request.ended made = none ∨
        through = (c.view i).through server request) :=
  Memory.effect_answer (sound_view h i) server request fun a ha => (h.live a).1 (hheld a ha)

/-- A member that joins has neither blocks nor arenas. -/
theorem sound_join (h : c.shared.Sound) (settings : Option AllocatorSettings) :
    SharedStorage.Sound
    { c.shared with allocators := c.shared.allocators ++ [settings.map .new] } := by
  cases settings with
  | some settings => exact h.started settings
  | none =>
    refine h.joined c.installed (fun j other hj => ?_) ?_
    · rw [List.getElem?_append] at hj
      split at hj
      · exact .inl hj
      · rw [List.getElem?_singleton] at hj
        split at hj <;> cases hj
    · simp [SharedStorage.arenasOf]

/-- A request that the running thread of a machine makes to an entry point is a step, if the
member sees what the thread does. -/
theorem step_of_entry {m m' : Machine} {server : Server} {request : Request}
    (hserver : server ≠ .own) (hi : i < c.shared.allocators.length) (hview : c.view i = m.memory)
    (hheld : ∀ a, request.target = some a → a ∈ c.shared.held)
    (hrun : Machine.request server request m = .ok made m') :
    c.Step (.request i server request) made
      (c.served i (request.bytes server) (request.ended made) made m'.memory) := by
  rw [Memory.request_entry hserver] at hrun
  refine .request hi (fun hown => absurd hown hserver) hheld ?_
  rw [hview]
  simp only [Machine.runMemory] at hrun
  split at hrun
  · next hanswer =>
    cases hrun
    exact hanswer
  · cases hrun

/-- A request that is made to the allocator of a machine that belongs to no thread is a step
of the member that has this allocator. -/
theorem step_of_own {m m' : Machine} {request : Request} (hi : c.shared.Has i m.own)
    (hprocess : c.shared.process = m.memory.process)
    (hheld : ∀ a, request.target = some a → a ∈ c.shared.held)
    (hrun : Machine.request .own request m = .ok made m') :
    ∃ memory, c.Step (.request i .own request) made
        (c.served i (request.bytes .own) (request.ended made) made memory) ∧
      memory.storage = ⟨m'.own, m'.memory.process⟩ := by
  have hlt : i < c.shared.allocators.length := (List.getElem?_eq_some_iff.1 hi).1
  have hstorage : (c.view i).storage = ⟨m.own, m.memory.process⟩ := by
    rw [← hprocess]
    show Storage.mk (Option.getD (c.shared.allocators[i]?.join) _) _ = _
    rw [hi]
    rfl
  rw [Storage.request_own] at hrun
  simp only [Machine.runOwn] at hrun
  split at hrun
  · next s hanswer =>
    cases hrun
    refine ⟨(c.view i).withStorage s, .request hlt (fun _ => ⟨m.own, hi⟩) hheld ?_, rfl⟩
    show Memory.onStorage (Storage.answer request) (c.view i) = _
    rw [Memory.onStorage, hstorage]
    simp only [hanswer]
    rfl
  · cases hrun

/-- Whatever the threads do keeps the storage sound. -/
theorem sound_step {command : Command} (h : c.shared.Sound) (hstep : c.Step command made c') :
    c'.shared.Sound := by
  cases hstep with
  | install settings => exact h
  | join settings => exact sound_join h settings
  | lend hi hlent => exact sound_touch h hi
  | giveBack hi => exact h
  | leave hi => exact sound_leave h hi
  | @request i server request made m hi hown hheld hrun =>
    obtain ⟨made', m₁, m', through, hran, heffect, halike, -⟩ :=
      effect_request h i server request hheld
    rw [hran] at hrun
    cases hrun
    exact sound_served h hi (fun a ha => hheld a (Request.target_of_ended ha)) heffect halike

end ThreadedStorage

end ExtensionHost
