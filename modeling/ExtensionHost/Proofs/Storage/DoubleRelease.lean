import ExtensionHost.Proofs.Storage.Census

/-!
# `ExtensionHost.Proofs.Storage.DoubleRelease`: no block is given back twice

A small block goes out of use in more than one way. It is freed, or a resize
moves it to another small block or to a large one, and a member that cannot
reach its allocator retires it in its place. Any member may do so, by any
family of entry points. A `ThreadedStorage.Course` is a run together with the small
blocks that went out of use in one of these ways and were not handed out
again. It is kept from what was asked for and answered; a mark is read only
to tell whether the block that ends is a small one.

`ThreadedStorage.mem_spent_iff` is the invariant: those are the blocks that are marked as
freed. The step is `Memory.RequestEffect.freed_iff`, by the lists of all that a call
can do. A block that ends leaves a mark, which depends on its kind alone
(`Process.Ends`), a block that is handed out is marked as in use, and no other
block is touched.

So a block that was given back is known by its mark. `Memory.caught_of_freed`
follows that mark through the four entry points for a release and a resize,
with the allocator and without it: the process stops before anything is
written (`Memory.Untouched`). `ThreadedStorage.caught_of_course` puts both together.
-/

set_option autoImplicit false

namespace ExtensionHost

/-! ### The mark of a block that has ended -/

/-- The small blocks are those of a class. -/
theorem BlockKind.isSmall_iff {kind : BlockKind} : kind.isSmall ↔ ∃ cls, kind = .pool cls := by
  cases kind <;> simp [isSmall]

namespace Process

variable {p p' : Process} {a : Address} {size : Nat} {made : Option Address}

/-- The block at `a` has ended: a small one is marked as freed, and nobody
answers for a large one. -/
structure Ends (p : Process) (a : Address) (p' : Process) : Prop where
  small : ∀ cls, p.kind a = .pool cls → p'.kind a = .freed cls
  large : ∀ size, p.kind a = .heap size → p'.kind a = .foreign

/-- A small block that was freed has ended. -/
theorem ends_small {cls : SizeClass} (hkind : p.kind a = .pool cls)
    (hfreed : p'.kind a = .freed cls) : p.Ends a p' where
  small other hother := by
    rw [hkind] at hother
    cases hother
    exact hfreed
  large size hlarge := by
    rw [hkind] at hlarge
    cases hlarge

/-- A large block that nobody has any more has ended. -/
theorem ends_large (hkind : p.kind a = .heap size) (hforeign : p'.kind a = .foreign) :
    p.Ends a p' where
  small cls hsmall := by
    rw [hkind] at hsmall
    cases hsmall
  large _ _ := hforeign

/-- Marking a small block as freed ends it. -/
theorem ends_setKind {cls : SizeClass} (hkind : p.kind a = .pool cls) :
    p.Ends a (p.setKind a (.freed cls)) :=
  ends_small hkind (kind_setKind_self (lt_size_of_live (live_pool hkind)) _)

/-- Taking a large block back ends it. -/
theorem ends_heapFree (hkind : p.kind a = .heap size) : p.Ends a (p.heapFree a size) :=
  ends_large hkind (kind_heapFree_self (lt_size_of_live (live_heap hkind)) _)

/-- A large block that the system has moved has ended. -/
theorem ends_heapRealloc {old : Nat} (hkind : p.kind a = .heap old)
    (h : p.heapRealloc a old size = (made, p')) {b : Address} (hmade : made = some b)
    (hba : b ≠ a) : p.Ends a p' := by
  subst hmade
  obtain ⟨hplace, -⟩ := heapRealloc_some h hkind
  exact ends_large hkind (hplace.resolve_left hba).2

/-- Only the mark of the block matters. -/
theorem Ends.of_kind {p₁ : Process} (h : p₁.Ends a p') (hkind : p₁.kind a = p.kind a) :
    p.Ends a p' where
  small cls hcls := h.small cls (hkind.trans hcls)
  large size hsize := h.large size (hkind.trans hsize)

/-- A block that ends without an allocator, unless it is resized in its
place. -/
theorem RequestEffect.ends (h : p.RequestEffect size (some a) made p') (hmade : made ≠ some a) :
    p.Ends a p' := by
  cases h with
  | resized hkind hheap => exact ends_heapRealloc hkind hheap rfl fun heq => hmade (by rw [heq])
  | @evicted _ b cls p₁ hkind hheap =>
    have hpool := kind_evicted (·.copyFrom (p₁.payload a) (min cls.bytes size)) hkind hheap
    exact (ends_setKind hpool).of_kind (hpool.trans hkind.symm)
  | returned hkind => exact ends_heapFree hkind
  | retired hkind => exact ends_setKind hkind

end Process

namespace Storage

variable {s s' : Storage} {a b : Address} {size : Nat} {made : Option Address}

/-- A release ends its block. -/
theorem Freed.ends (h : Freed s a s') : s.process.Ends a s'.process := by
  cases h with
  | pool hkind => exact Process.ends_setKind hkind
  | heap hkind => exact Process.ends_heapFree hkind

/-- A block that does not stay in its place is released there. -/
theorem Resized.ends (h : Resized s a size (some b) s') (hlisted : s.allocator.Listed s.process)
    (hba : b ≠ a) : s.process.Ends a s'.process := by
  cases h with
  | stays hkind hcls => exact absurd rfl hba
  | @moved _ s₁ _ hkind hserved hfreed =>
    -- the block is marked as before when the other one has been made and written
    have hmade : s₁.process.kind a = s.process.kind a :=
      Process.kind_congr ((hserved.hands hlisted).others a (by simpa using hba))
    exact hfreed.ends.of_kind ((kind_withCopy s₁ a b _ a).trans hmade)
  | resized hkind hcls hlimit hheap => exact Process.ends_heapRealloc hkind hheap rfl hba

/-- An answer that ends a block, and does not answer with it, has ended it. -/
theorem RequestEffect.ends (h : s.RequestEffect size (some a) made s')
    (hlisted : s.allocator.Listed s.process)
    (hmade : made ≠ some a) : s.process.Ends a s'.process := by
  cases h with
  | resized hresized => exact hresized.ends hlisted fun heq => hmade (by rw [heq])
  | freed hfreed => exact hfreed.ends

/-- An allocator takes no block back twice. -/
theorem free_freed {cls : SizeClass} (h : s.process.kind a = .freed cls) :
    free a s = .error .freedBlock s := by
  simp only [free, h]

/-- Resizing a freed block stops the process before anything is done. -/
theorem realloc_freed {cls : SizeClass} (h : s.process.kind a = .freed cls) (size : Nat) :
    realloc a size s = .error .freedBlock s := by
  simp only [realloc, h]

end Storage

namespace Memory

variable {m m' : Memory} {a : Address} {size : Nat} {ended made : Option Address} {through : Bool}

/-- An entry point that ends a block, and does not answer with it, has ended it. -/
theorem RequestEffect.ends (h : m.RequestEffect size (some a) made through m') (hsound : m.Sound)
    (hmade : made ≠ some a) : m.process.Ends a m'.process := by
  cases h with
  | pooled heffect => exact heffect.ends hsound hmade
  | unpooled heffect => exact heffect.ends hmade

/-- The blocks that are marked as freed afterwards: those that were and the
small one that has ended, but not the one that was handed out. -/
theorem RequestEffect.freed_iff (h : m.RequestEffect size ended made through m') (hsound : m.Sound)
    (hended : ∀ b, ended = some b → m.process.Live b) (a : Address) :
    (∃ cls, m'.process.kind a = .freed cls) ↔ made ≠ some a ∧
      ((∃ cls, m.process.kind a = .freed cls) ∨
        ended = some a ∧ ∃ cls, m.process.kind a = .pool cls) := by
  by_cases hmade : made = some a
  · -- the block is in use, whatever it was before
    subst hmade
    have hlive := h.live hsound hended
    exact iff_of_false (fun ⟨_, hfreed⟩ => Process.not_live_freed hfreed hlive)
      fun hnot => hnot.1 rfl
  by_cases hends : ended = some a
  · subst hends
    have hmark := h.ends hsound hmade
    rcases Process.live_cases (hended a rfl) with ⟨cls, hkind⟩ | ⟨old, hkind⟩
    · exact iff_of_true ⟨cls, hmark.small cls hkind⟩ ⟨hmade, .inr ⟨rfl, cls, hkind⟩⟩
    · -- nobody answers for a large block that has ended, so it is not marked as freed
      have hforeign := hmark.large old hkind
      simp [hforeign, hkind]
  · have hsame := Process.kind_congr (h.others hsound hended hends hmade)
    simp [hsame, hmade, hends]

/-! ### Entry points -/

/-- Nothing has happened but that a release was reported and that the
thread's allocator was made if it had not been used. So all marks, lists and
counters are as they were. -/
structure Untouched (m m' : Memory) : Prop where
  process : m'.process = m.process ∨ m'.process = m.process.report .blockFreed
  allocator : m'.theAllocator = m.theAllocator
  lent : m'.lent = m.lent
  installed : m'.installed = m.installed

/-- The operation stops the process because the block was given back before,
and nothing has been touched then. -/
def Aborts {α : Type} (operation : Operation Memory α) (m : Memory) : Prop :=
  ∃ m', operation m = .error .freedBlock m' ∧ m.Untouched m'

/-- A second release of a block is noticed, and a resize as well, whichever
entry point is used. -/
structure Caught (m : Memory) (a : Address) : Prop where
  free : Aborts (free a) m
  realloc : ∀ size, Aborts (realloc (some a) size) m
  rawFree : Aborts (rawFree a) m
  rawRealloc : ∀ size, Aborts (rawRealloc (some a) size) m

/-- A block can be released and resized by all entry points. -/
structure Accepted (m : Memory) (a : Address) : Prop where
  free : ∃ m', free a m = .ok () m'
  realloc : ∀ size, ∃ moved m', realloc (some a) size m = .ok moved m'
  rawFree : ∃ m', rawFree a m = .ok () m'
  rawRealloc : ∀ size, ∃ moved m', rawRealloc (some a) size m = .ok moved m'

/-- A fault of an allocator is a fault of the entry point. -/
theorem onStorage_error {α : Type} {operation : Operation Storage α} {fault : Fault} {s : Storage}
    (h : operation m.storage = .error fault s) :
    onStorage operation m = .error fault (m.withStorage s) := by
  simp only [onStorage, h]
  rfl

/-- Releasing a freed block stops the process, whether the allocator can be reached or not. -/
theorem aborts_free {cls : SizeClass} (hkind : m.process.kind a = .freed cls) :
    Aborts (free a) m := by
  cases hlent : m.lent with
  | true =>
    -- the release is reported before the mark is read
    have hkind' : (m.report .blockFreed).process.kind a = .freed cls := hkind
    refine ⟨m.report .blockFreed, ?_, .inr rfl, rfl, rfl, rfl⟩
    show (if m.lent then _ else _) = _
    rw [if_pos hlent]
    simp only [freeUnpooled, hkind']
  | false =>
    have hrun : Storage.free a (m.report .blockFreed).storage
        = .error .freedBlock (m.report .blockFreed).storage := Storage.free_freed hkind
    refine ⟨(m.report .blockFreed).withStorage (m.report .blockFreed).storage, ?_, .inr rfl, rfl,
      rfl, rfl⟩
    show (if m.lent then _ else _) = _
    rw [if_neg (by rw [hlent]; exact Bool.false_ne_true), onStorage_error hrun]

/-- Resizing a freed block stops the process, whether the allocator can be reached or not. -/
theorem aborts_realloc {cls : SizeClass} (hkind : m.process.kind a = .freed cls) (size : Nat) :
    Aborts (realloc (some a) size) m := by
  cases hlent : m.lent with
  | true =>
    refine ⟨m, ?_, .inl rfl, rfl, rfl, rfl⟩
    simp only [realloc, hlent, if_true, reallocUnpooled, hkind]
  | false =>
    have hrun : Storage.realloc a size m.storage = .error .freedBlock m.storage :=
      Storage.realloc_freed hkind size
    refine ⟨m.withStorage m.storage, ?_, .inl rfl, rfl, rfl, rfl⟩
    show (if m.lent then _ else _) = _
    rw [if_neg (by rw [hlent]; exact Bool.false_ne_true), onStorage_error hrun]

/-- A block that is marked as freed is neither released nor resized. The raw
entry points leave it to the other ones, since it is not a large block. -/
theorem caught_of_freed {cls : SizeClass} (hkind : m.process.kind a = .freed cls) :
    m.Caught a where
  free := aborts_free hkind
  realloc := aborts_realloc hkind
  rawFree := by
    obtain ⟨m', hrun, huntouched⟩ := aborts_free hkind
    exact ⟨m', by simp only [rawFree, hkind, hrun], huntouched⟩
  rawRealloc size := by
    obtain ⟨m', hrun, huntouched⟩ := aborts_realloc hkind size
    exact ⟨m', by simp only [rawRealloc, hkind, hrun], huntouched⟩

/-- A block in use is released and resized when that is asked for. -/
theorem accepted_of_live (hsound : m.Sound) (hlive : m.process.Live a) : m.Accepted a where
  free := by
    obtain ⟨m₁, hrun, -⟩ := effect_free hlive
    exact ⟨_, hrun⟩
  realloc size := by
    obtain ⟨moved, m', hrun, -⟩ := effect_realloc hsound hlive size
    exact ⟨moved, m', hrun⟩
  rawFree := by
    obtain ⟨m₁, m', hrun, -⟩ := effect_rawFree hlive
    exact ⟨m', hrun⟩
  rawRealloc size := by
    obtain ⟨moved, m', hrun, -⟩ := effect_rawRealloc hsound hlive size
    exact ⟨moved, m', hrun⟩

end Memory

/-! ### Storage of several threads -/

namespace ThreadedStorage

variable {c c' : ThreadedStorage} {l : Ledger} {spent : List Address} {command : Command}
  {made : Option Address} {a : Address}

/-- The small blocks that are out of use after a command: those that were, and
the one that the request ended, but not the one that it handed out. -/
def spentAfter (spent : List Address) (c : ThreadedStorage) (command : Command)
    (made : Option Address) :
    List Address :=
  match command with
  | .request _ _ request =>
    ((request.ended made).toList.filter (fun a => (c.shared.process.kind a).isSmall) ++
      spent).filter
      fun a => made ≠ some a
  | .install _ | .join _ | .lend _ | .giveBack _ | .leave _ => spent

/-- After a request the blocks that are out of use are those from before, without what
is answered, and the small block that ended. -/
theorem mem_spentAfter {i : Nat} {server : Server} {request : Request} :
    a ∈ spentAfter spent c (.request i server request) made ↔ made ≠ some a ∧
      (a ∈ spent ∨ request.ended made = some a ∧ ∃ cls, c.shared.process.kind a = .pool cls) := by
  simp only [spentAfter, List.mem_filter, List.mem_append, Option.mem_toList,
    BlockKind.isSmall_iff, decide_eq_true_eq]
  rw [and_comm, or_comm]

/-- The runs of several threads, with the small blocks that were freed, moved away from
or retired and were not handed out again. -/
inductive Course : ThreadedStorage → List Address → Prop
  | start (system : System) (timing : Bool) :
      Course { shared := { process := { system, timing } } } []
  | step {c c' : ThreadedStorage} {spent : List Address} {command : Command} {made : Option Address}
      (h : Course c spent) (hstep : c.Step command made c') :
      Course c' (spentAfter spent c command made)

/-- What follows the blocks that are out of use is a run. -/
theorem Course.run (h : Course c spent) : ∃ l, Run c l := by
  induction h with
  | start system timing => exact ⟨{}, .start system timing⟩
  | step _ hstep ih =>
    obtain ⟨l, hrun⟩ := ih
    exact ⟨_, hrun.step hstep⟩

/-- Every run has such a record. -/
theorem course_of_run (h : Run c l) : ∃ spent, Course c spent := by
  induction h with
  | start system timing => exact ⟨[], .start system timing⟩
  | step _ hstep ih =>
    obtain ⟨spent, hcourse⟩ := ih
    exact ⟨_, hcourse.step hstep⟩

/-- The storage is sound at any time of a run. -/
theorem Course.sound (h : Course c spent) : c.shared.Sound := by
  obtain ⟨l, hrun⟩ := h.run
  exact hrun.accounted.sound

/-- Whatever the threads do, the blocks that are out of use are those that
are marked as freed. -/
theorem mem_spentAfter_iff (hsound : c.shared.Sound)
    (h : ∀ a, a ∈ spent ↔ ∃ cls, c.shared.process.kind a = .freed cls)
    (hstep : c.Step command made c') (a : Address) :
    a ∈ spentAfter spent c command made ↔ ∃ cls, c'.shared.process.kind a = .freed cls := by
  cases hstep with
  | install settings => exact h a
  | join settings => exact h a
  | lend hi hlent => exact h a
  | giveBack hi => exact h a
  | @leave i hi =>
    -- what the allocator had cut or taken back stays in the table
    have hkind : (c.view i).endThread.process.kind a = c.shared.process.kind a :=
      (c.view i).kind_endThread a
    show a ∈ spent ↔ ∃ cls, (c.view i).endThread.process.kind a = .freed cls
    rw [hkind]
    exact h a
  | @request i server request made m hi hown hheld hrun =>
    obtain ⟨made', m₁, m', through, hran, heffect, halike, -⟩ :=
      effect_request hsound i server request hheld
    rw [hran] at hrun
    cases hrun
    have hlive : ∀ b, request.ended made = some b → (c.view i).process.Live b :=
      fun b hb => (hsound.live b).1 (hheld b (Request.target_of_ended hb))
    have hfreed := heffect.freed_iff (sound_view hsound i) hlive a
    show _ ↔ ∃ cls, m.process.kind a = .freed cls
    rw [mem_spentAfter, halike.process.kind, hfreed, h]
    rfl

/-- The blocks that were given back, moved away from or retired, and are not in
use again, are known by their marks. -/
theorem mem_spent_iff (h : Course c spent) :
    ∀ a, a ∈ spent ↔ ∃ cls, c.shared.process.kind a = .freed cls := by
  induction h with
  | start system timing => exact fun a => by simp [Process.kind]
  | step hcourse hstep ih => exact mem_spentAfter_iff hcourse.sound ih hstep

/-- At any time of any run of several threads, a small block that was freed, moved away
from or retired and that was not handed out again is marked as freed, and no
other block is; the blocks that are held are those that are marked as in use.
Whichever thread releases or resizes a block of the first sort once more, by
whichever entry point and with its allocator or without it, the process stops
and nothing has been touched. On a block that is held no entry point stops. -/
theorem caught_of_course (h : Course c spent) :
    (∀ a, a ∈ spent ↔ ∃ cls, c.shared.process.kind a = .freed cls) ∧
    (∀ a, a ∈ c.shared.held ↔ c.shared.process.Live a) ∧
    ∀ i lent,
      (∀ a ∈ spent, Memory.Caught { c.view i with lent } a) ∧
      ∀ a, c.shared.process.Live a → Memory.Accepted { c.view i with lent } a := by
  refine ⟨mem_spent_iff h, h.sound.live, fun i lent => ⟨fun a ha => ?_, fun a ha => ?_⟩⟩
  · obtain ⟨cls, hfreed⟩ := (mem_spent_iff h a).1 ha
    exact Memory.caught_of_freed hfreed
  · -- whether an allocator is lent out does not matter for its lists
    have hsound : Memory.Sound { c.view i with lent } := sound_view h.sound i
    exact Memory.accepted_of_live hsound ha

/-- The allocator hands out four small blocks and takes the first one back,
for which it has a new use. Then it moves the second one, and the thread,
which cannot reach its own allocator, evicts the third one and releases the
last one. -/
def routes : Option (ThreadedStorage × Ledger) :=
  follow [(1, .own, .malloc 40), (1, .own, .malloc 40), (1, .own, .malloc 40),
    (1, .own, .malloc 40), (1, .own, .free 0), (1, .own, .malloc 33),
    (1, .own, .realloc (some 1) 100), (0, .thread, .realloc (some 2) 50), (0, .raw, .free 3)]
    (lentPair, {})

/-- The second block, the third and the last one are out of use then, each by
a way of its own, and the first one is not. -/
theorem caught_routes : ∃ c l spent, routes = some (c, l) ∧ Course c spent ∧
    (1 ∈ spent ∧ 2 ∈ spent ∧ 3 ∈ spent ∧ 0 ∉ spent) ∧
    ∀ i lent, (∀ a ∈ [1, 2, 3], Memory.Caught { c.view i with lent } a) ∧
      Memory.Accepted { c.view i with lent } 0 := by
  obtain ⟨⟨c, l⟩, hfollow⟩ : ∃ now, routes = some now := Option.isSome_iff_exists.1 (by decide)
  have hkind : ∀ {a : Address} {kind : BlockKind},
      routes.map (·.1.shared.process.kind a) = some kind → c.shared.process.kind a = kind := by
    intro a kind hread
    rw [hfollow] at hread
    exact Option.some.inj hread
  obtain ⟨spent, hcourse⟩ := course_of_run (run_follow run_lentPair hfollow)
  obtain ⟨hspent, -, hcalls⟩ := caught_of_course hcourse
  have hreused : c.shared.process.kind 0 = .pool 2 := hkind (by decide)
  have hmoved : 1 ∈ spent := (hspent 1).2 ⟨2, hkind (by decide)⟩
  have hevicted : 2 ∈ spent := (hspent 2).2 ⟨2, hkind (by decide)⟩
  have hretired : 3 ∈ spent := (hspent 3).2 ⟨2, hkind (by decide)⟩
  have hfirst : 0 ∉ spent := by
    rw [hspent, hreused]
    rintro ⟨cls, ⟨⟩⟩
  refine ⟨c, l, spent, hfollow, hcourse, ⟨hmoved, hevicted, hretired, hfirst⟩, fun i lent => ?_⟩
  obtain ⟨hcaught, haccepted⟩ := hcalls i lent
  refine ⟨fun a ha => hcaught a ?_, haccepted 0 (Process.live_pool hreused)⟩
  simp only [List.mem_cons, List.not_mem_nil, or_false] at ha
  rcases ha with rfl | rfl | rfl <;> assumption

end ThreadedStorage

end ExtensionHost
