import ExtensionHost.Proofs.Storage.DoubleRelease
import ExtensionHost.Proofs.Storage.Entry
import Mathlib.Algebra.Order.BigOperators.Group.Finset
import Mathlib.Logic.Relation

/-!
# `ExtensionHost.Proofs.Storage.Fallback`: requests that do without the allocator

While the allocator of a thread is lent out, and after the thread has ended, its
entry points have code of their own. They make large blocks of any size, and
small blocks that they take back are retired. Nothing of this shows in what a
caller relies on. `Process.Grants` says what that is, request by request and
without mentioning an allocator, and `Memory.grants_answer` proves it for every
family of entry points, whether the allocator is at hand or not. A block made on
one way is resized and released on the other because the mark in front of it is
all that either way looks at.

What does differ is where a small block goes. `SharedStorage.Retired` describes a block
that is marked as freed and on no list. A request that bypasses the allocator
leaves the small block that it ends in that state (`ThreadedStorage.retired_of_bypass`), and
no step ends the state or hands such a block out (`ThreadedStorage.retired_step`).
For a step through an allocator this needs its lists before the step: only what
was on a list is handed out, and only what was in use joins one
(`Storage.SparesOthers.unlisted`).

Between requests the blocks are written by those who hold them, and threads lend
their allocators, get them back and end. `ThreadedStorage.Goes` is all of that.
`ThreadedStorage.honours_of_reached` puts the parts together for every state that comes
about. That blocks lie apart rests on the system keeping its regions apart, as
in `Separation`; `SharedStorage.exists_placed` says that this can always be done.
-/

set_option autoImplicit false

namespace ExtensionHost

/-! ### What a request is good for -/

namespace Process

variable {p p' : Process} {a : Address} {server : Server} {request : Request}
  {made : Option Address}

/-- What whoever makes a request relies on, whether an allocator answers it or
the system alone. -/
def Grants (p : Process) (server : Server) (request : Request) (made : Option Address)
    (p' : Process) : Prop :=
  match request with
  | .malloc size | .realloc none size => p.Hands size made p'
  | .calloc count size =>
    p.Hands ((Request.calloc count size).bytes server) made p' ∧
      ∀ a, made = some a → ∀ i, i < (Request.calloc count size).bytes server →
        (p'.payload a).cell i = .byte 0
  | .realloc (some a) size => p.Moves a size made p'
  | .free a => made = none ∧ p.Frees a p'

/-- A block in use is not handed out again, and handing out leaves it. -/
theorem Hands.kept {size : Nat} (h : p.Hands size made p') (ha : p.Live a) :
    made ≠ some a ∧ p'.blocks[a]? = p.blocks[a]? := by
  have hmade : made ≠ some a := fun heq => h.fresh a heq ha
  exact ⟨hmade, h.others a hmade⟩

/-- A block in use that a request does not end stays as it is. -/
theorem Grants.kept (h : p.Grants server request made p') (ha : p.Live a)
    (hended : request.ended made ≠ some a) : made ≠ some a ∧ p'.blocks[a]? = p.blocks[a]? := by
  cases request with
  | malloc size => exact Hands.kept h ha
  | calloc count size => exact Hands.kept h.1 ha
  | free b =>
    obtain ⟨rfl, hfrees⟩ := h
    exact ⟨nofun, hfrees.others a fun heq => hended (by rw [heq]; rfl)⟩
  | realloc block size =>
    cases block with
    | none => exact Hands.kept h ha
    | some b =>
      have hmoves : p.Moves b size made p' := h
      cases made with
      | none =>
        by_cases hab : a = b
        · exact ⟨nofun, hab ▸ hmoves.unmoved rfl⟩
        · exact ⟨nofun, hmoves.others a hab nofun⟩
      | some c =>
        have hab : a ≠ b := fun heq => hended (by rw [heq]; rfl)
        have hmade : some c ≠ some a := by
          rintro ⟨⟩
          exact (hmoves.fresh a rfl hab).1 ha
        exact ⟨hmade, hmoves.others a hab hmade⟩

/-- What a request answers with is in use. -/
theorem Grants.live (h : p.Grants server request (some a) p') : p'.Live a := by
  cases request with
  | malloc size => exact Hands.live h a rfl
  | calloc count size => exact h.1.live a rfl
  | free b => exact nomatch h.1
  | realloc block size =>
    cases block with
    | none => exact Hands.live h a rfl
    | some b => exact Moves.live h a rfl

/-- Without an allocator no small block is resized in its place. -/
theorem RequestEffect.made_ne {size : Nat} {cls : SizeClass}
    (h : p.RequestEffect size (some a) made p')
    (hkind : p.kind a = .pool cls) : made ≠ some a := by
  cases h with
  | resized hlarge hheap => rw [hkind] at hlarge; cases hlarge
  | evicted hsmall hheap =>
    rintro ⟨⟩
    exact (hands_heapAlloc hheap).fresh a rfl (live_pool hkind)
  | returned hlarge => nofun
  | retired hsmall => nofun

end Process

namespace Storage

variable {s s' : Storage} {size : Nat} {ended made : Option Address}

/-- An allocator answers every request about a block in use as it should. -/
theorem grants_answer (hlisted : s.allocator.Listed s.process) (request : Request)
    (hlive : ∀ a, request.target = some a → s.process.Live a) :
    ∃ made s', answer request s = .ok made s' ∧
      s.process.Grants .own request made s'.process := by
  cases request with
  | malloc size =>
    cases hrun : s.alloc size with
    | mk made s' =>
      exact ⟨made, s', by simp only [answer, hrun], (served_alloc hrun).hands hlisted⟩
  | calloc count size =>
    cases hrun : s.allocZeroed size with
    | mk made s' =>
      refine ⟨made, s', by simp only [answer, hrun], hands_allocZeroed hrun hlisted, ?_⟩
      obtain ⟨s₁, hserved, ⟨rfl, rfl⟩ | ⟨a, rfl, rfl⟩⟩ := allocZeroed_cases hrun
      · exact fun _ hmade => by cases hmade
      · exact (hserved.hands hlisted).zeroed
  | realloc block size =>
    cases block with
    | none =>
      cases hrun : s.alloc size with
      | mk made s' =>
        exact ⟨made, s', by simp only [answer, hrun], (served_alloc hrun).hands hlisted⟩
    | some a =>
      obtain ⟨moved, s', hrun, hresized⟩ := resized_realloc (hlive a rfl) hlisted size
      exact ⟨moved, s', hrun, hresized.moves (hlive a rfl) hlisted⟩
  | free a =>
    obtain ⟨s', hrun, hfreed⟩ := freed_free (hlive a rfl)
    exact ⟨none, s', by simp only [answer, hrun], rfl, hfreed.frees⟩

/-- A block that waits on none of the lists goes on waiting, and joins none. -/
theorem SparesOthers.unlisted (h : s.SparesOthers size s') {a : Address} {cls : SizeClass}
    (hfreed : s.process.kind a = .freed cls)
    (hout : ∀ c : SizeClass, a ∉ s.allocator.freeLists[c]) :
    s'.process.kind a = .freed cls ∧ ∀ c : SizeClass, a ∉ s'.allocator.freeLists[c] := by
  refine ⟨h.elsewhere a cls hfreed hout, fun c hmem => ?_⟩
  rcases h.joins c a hmem with hold | hlive
  · exact hout c hold
  · exact Process.not_live_freed hfreed hlive

/-- A freed block that is on no list of an allocator is left alone by it and joins none
of its lists. -/
theorem RequestEffect.unlisted (h : s.RequestEffect size ended made s')
    (hlisted : s.allocator.Listed s.process)
    (hended : ∀ b, ended = some b → s.process.Live b) {a : Address} {cls : SizeClass}
    (hfreed : s.process.kind a = .freed cls)
    (hout : ∀ c : SizeClass, a ∉ s.allocator.freeLists[c]) :
    s'.process.kind a = .freed cls ∧ ∀ c : SizeClass, a ∉ s'.allocator.freeLists[c] := by
  cases h with
  | served hserved => exact (hserved.sparesOthers hlisted).unlisted hfreed hout
  | resized hresized => exact (hresized.sparesOthers (hended _ rfl) hlisted).unlisted hfreed hout
  | unresized hresized =>
    cases hresized with
    | unmoved hserved => exact (hserved.sparesOthers hlisted).unlisted hfreed hout
    | refused hsame => exact ⟨(Process.kind_congr (by rw [hsame.blocks])).trans hfreed, hout⟩
  | freed hfrees => exact (hfrees.sparesOthers (hended _ rfl) hlisted size).unlisted hfreed hout

end Storage

namespace Memory

variable {m : Memory} {server : Server}

/-- Every request about blocks in use is answered, with the allocator and
without it, and the answer is what it is relied on for. -/
theorem grants_answer (h : m.Sound) (server : Server) (request : Request)
    (hlive : ∀ a, request.target = some a → m.process.Live a) :
    ∃ made m', answer server request m = .ok made m' ∧
      m.process.Grants server request made m'.process := by
  cases server with
  | own =>
    obtain ⟨made, s, hrun, hgrants⟩ := Storage.grants_answer (s := m.storage) h request hlive
    exact ⟨made, m.withStorage s, onStorage_ok hrun, hgrants⟩
  | thread =>
    cases request with
    | malloc size =>
      cases hrun : m.malloc size with
      | mk made m' => exact ⟨made, m', by simp only [answer, hrun], (malloc_spec h hrun).2⟩
    | calloc count size =>
      cases hrun : m.calloc count size with
      | mk made m' => exact ⟨made, m', by simp only [answer, hrun], (calloc_spec h hrun).2⟩
    | realloc block size =>
      cases block with
      | none =>
        obtain ⟨made, m', hrun, -, hhands⟩ := realloc_none_spec h size
        exact ⟨made, m', hrun, hhands⟩
      | some a =>
        obtain ⟨moved, m', hrun, -, hmoves⟩ := realloc_spec h (hlive a rfl) size
        exact ⟨moved, m', hrun, hmoves⟩
    | free a =>
      obtain ⟨m', hrun, -, hfrees, -⟩ := free_spec h (hlive a rfl)
      exact ⟨none, m', by simp only [answer, hrun], rfl, hfrees⟩
  | raw =>
    cases request with
    | malloc size =>
      cases hrun : m.process.heapAlloc size with
      | mk made p =>
        exact ⟨made, { m with process := p }, by simp only [answer, rawMalloc, onProcess, hrun],
          Process.hands_heapAlloc hrun⟩
    | calloc count size =>
      cases hrun : m.rawCalloc count size with
      | mk made m' => exact ⟨made, m', by simp only [answer, hrun], rawCalloc_spec hrun⟩
    | realloc block size =>
      cases block with
      | none =>
        cases hrun : m.process.heapAlloc size with
        | mk made p =>
          exact ⟨made, { m with process := p },
            by simp only [answer, rawRealloc, rawMalloc, onProcess, hrun],
            Process.hands_heapAlloc hrun⟩
      | some a =>
        obtain ⟨moved, m', hrun, hmoves⟩ := rawRealloc_spec h (hlive a rfl) size
        exact ⟨moved, m', hrun, hmoves⟩
    | free a =>
      obtain ⟨m', hrun, hfrees⟩ := rawFree_spec h (hlive a rfl)
      exact ⟨none, m', by simp only [answer, hrun], rfl, hfrees⟩

/-- An entry point that cannot reach the allocator does not ask it. -/
theorem through_of_lent (hlent : m.lent = true) (hserver : server ≠ .own) (request : Request) :
    m.through server request = false := by
  cases server with
  | own => exact absurd rfl hserver
  | thread => simp only [through, hlent, Bool.not_true]
  | raw =>
    cases request with
    | malloc size => rfl
    | calloc count size => rfl
    | realloc block size =>
      cases block with
      | none => rfl
      | some a =>
        simp only [through, hlent, Bool.not_true]
        split <;> rfl
    | free a =>
      simp only [through, hlent, Bool.not_true]
      split <;> rfl

end Memory

/-! ### Retired blocks -/

namespace SharedStorage

variable {f g : SharedStorage} {a : Address}

/-- The block is marked as freed, and no allocator has it on a list. -/
structure Retired (f : SharedStorage) (a : Address) : Prop where
  freed : ∃ cls, f.process.kind a = .freed cls
  unlisted : ∀ i allocator, f.Has i allocator → ∀ cls : SizeClass, a ∉ allocator.freeLists[cls]

/-- An allocator that comes into being has nothing on its lists. -/
theorem Retired.of_allocators (h : f.Retired a) (hkind : g.process.kind a = f.process.kind a)
    (hhas : ∀ i allocator, g.Has i allocator →
      (∃ j, f.Has j allocator) ∨ ∃ settings, allocator = .new settings) : g.Retired a where
  freed := by
    obtain ⟨cls, hfreed⟩ := h.freed
    exact ⟨cls, hkind.trans hfreed⟩
  unlisted i allocator hi cls hmem := by
    rcases hhas i allocator hi with ⟨j, hold⟩ | ⟨settings, rfl⟩
    · exact h.unlisted j allocator hold cls hmem
    · rw [Allocator.getElem_new] at hmem
      cases hmem

/-- There is always a way to keep the regions in use apart: each begins at a
multiple of a bound on their sizes. -/
theorem exists_placed (f : SharedStorage) : ∃ place, f.Placed place := by
  obtain ⟨bound, hbound⟩ : ∃ bound, ∀ region size, f.Region region size → size ≤ bound := by
    refine ⟨(f.arenas.map (·.size)).sum
      + f.process.total (blockPrefixSize + ·.usable), fun region size h => ?_⟩
    cases h with
    | arena hmem =>
      exact Nat.le_add_right_of_le (List.le_sum_of_mem (List.mem_map_of_mem hmem))
    | @large a size region hkind hsite =>
      have hmem := Finset.mem_range.2 (Process.lt_size_of_live (Process.live_heap hkind))
      have hle : blockPrefixSize + (f.process.kind a).usable
          ≤ f.process.total (blockPrefixSize + ·.usable) :=
        Finset.single_le_sum (f := fun b => blockPrefixSize + (f.process.kind b).usable)
          (fun _ _ => Nat.zero_le _) hmem
      rw [hkind] at hle
      exact Nat.le_add_left_of_le hle
  -- regions are numbered, so the one with the lower number ends where the next one begins
  have hbelow : ∀ {r r' size : Nat}, r < r' → size ≤ bound →
      r * (16 * bound) + size ≤ r' * (16 * bound) := by
    intro r r' size hlt hsize
    have hle : (r + 1) * (16 * bound) ≤ r' * (16 * bound) := Nat.mul_le_mul_right _ hlt
    rw [Nat.succ_mul] at hle
    omega
  refine ⟨(· * (16 * bound)), fun region size _ => ?_, fun r size r' size' h h' hne => ?_⟩
  · exact Nat.dvd_mul_left_of_dvd (Nat.dvd_mul_right 16 bound) region
  · exact (Nat.lt_or_gt_of_ne hne).imp (fun hlt => hbelow hlt (hbound r size h))
      fun hlt => hbelow hlt (hbound r' size' h')

/-- A member works on no allocator but its own. -/
theorem Has.of_withMemory {i j : Nat} {m : Memory} {allocator : Allocator}
    (h : (f.withMemory i m).Has j allocator) :
    f.Has j allocator ∨ m.allocator = some allocator := by
  have hset : (f.allocators.set i m.allocator)[j]? = some (some allocator) := h
  rw [List.getElem?_set] at hset
  split at hset
  · split at hset
    · exact .inr (Option.some.inj hset)
    · cases hset
  · exact .inl hset

end SharedStorage

namespace ThreadedStorage

/-- The command is a request by an entry point that cannot reach the allocator
of its thread. -/
def Bypasses (c : ThreadedStorage) : Command → Prop
  | .request i server _ => server ≠ .own ∧ c.lent i = true
  | .install _ | .join _ | .lend _ | .giveBack _ | .leave _ => False

/-- The block that is not in use as it was when a command has been carried
out. -/
def Command.ended (command : Command) (made : Option Address) : Option Address :=
  match command with
  | .request _ _ wish => wish.ended made
  | .install _ | .join _ | .lend _ | .giveBack _ | .leave _ => none

variable {c c' : ThreadedStorage} {i : Nat} {a : Address} {size : Nat} {command : Command}
  {ended made : Option Address} {m m₁ : Memory} {through : Bool}

/-- A member has its allocator, or would get a new one. -/
theorem has_theAllocator :
    c.shared.Has i (c.view i).theAllocator ∨ (c.view i).theAllocator = .new c.installed := by
  show _ ∨ (c.view i).allocator.getD (.new c.installed) = _
  cases hview : (c.view i).allocator with
  | none => exact .inr rfl
  | some allocator =>
    refine .inl (allocator_view.1 ?_)
    rw [hview, Memory.theAllocator, hview]
    rfl

/-- A retired block is on no list of the allocator that a member uses next. -/
theorem unlisted_theAllocator (h : c.shared.Retired a) (i : Nat) (cls : SizeClass) :
    a ∉ (c.view i).theAllocator.freeLists[cls] := by
  rcases has_theAllocator with hhas | hnew
  · exact h.unlisted i _ hhas cls
  · rw [hnew, Allocator.getElem_new]
    exact List.not_mem_nil

/-- A request leaves a retired block alone, whoever answers it. -/
theorem retired_served (hsound : c.shared.Sound)
    (hended : ∀ b, ended = some b → b ∈ c.shared.held)
    (heffect : (c.view i).RequestEffect size ended made through m₁) (halike : m₁.Alike m)
    (h : c.shared.Retired a) :
    made ≠ some a ∧ (c.served i size ended made m).shared.Retired a := by
  have hlive : ∀ b, ended = some b → (c.view i).process.Live b :=
    fun b hb => (hsound.live b).1 (hended b hb)
  obtain ⟨cls, hfreed⟩ := h.freed
  -- the block waits nowhere, so nobody finds it, neither an allocator nor the system
  have hdone : m₁.process.kind a = .freed cls ∧ ∀ allocator, m₁.allocator = some allocator →
      ∀ d : SizeClass, a ∉ allocator.freeLists[d] := by
    cases heffect with
    | pooled hstorage =>
      obtain ⟨hkept, hout⟩ := hstorage.unlisted (sound_view hsound i) hlive hfreed
        fun d => unlisted_theAllocator h i d
      refine ⟨hkept, ?_⟩
      rintro _ ⟨⟩
      exact hout
    | unpooled hprocess =>
      exact ⟨hprocess.waits hfreed, fun allocator hview => h.unlisted i allocator
        (allocator_view.1 hview)⟩
  refine ⟨?_, ⟨cls, (halike.process.kind a).trans hdone.1⟩, fun j allocator hj => ?_⟩
  · rintro rfl
    exact Process.not_live_freed hdone.1 (heffect.live (sound_view hsound i) hlive)
  · rcases SharedStorage.Has.of_withMemory hj with hold | hview
    · refine h.unlisted j allocator ?_
      rwa [SharedStorage.Has, SharedStorage.allocators_note] at hold
    · exact hdone.2 allocator (halike.allocator.symm.trans hview)

/-- No step hands a retired block out, and it stays retired. -/
theorem retired_step (hsound : c.shared.Sound) (hstep : c.Step command made c')
    (h : c.shared.Retired a) : made ≠ some a ∧ c'.shared.Retired a := by
  cases hstep with
  | install settings => exact ⟨nofun, h⟩
  | join settings =>
    refine ⟨nofun, h.of_allocators rfl fun j allocator hj => ?_⟩
    -- a member that joins is behind the others and has nothing on its lists
    rw [SharedStorage.Has, List.getElem?_append] at hj
    split at hj
    · exact .inl ⟨j, hj⟩
    · rw [List.getElem?_singleton] at hj
      split at hj
      · obtain ⟨made, -, rfl⟩ := Option.map_eq_some_iff.1 (Option.some.inj hj)
        exact .inr ⟨made, rfl⟩
      · cases hj
  | @lend i hi hlent =>
    refine ⟨nofun, h.of_allocators rfl fun j allocator hj => ?_⟩
    rcases SharedStorage.Has.of_withMemory hj with hold | hview
    · exact .inl ⟨j, hold⟩
    · obtain rfl : (c.view i).theAllocator = allocator := Option.some.inj hview
      exact has_theAllocator.imp (fun hhas => ⟨i, hhas⟩) fun hnew => ⟨c.installed, hnew⟩
  | giveBack hi => exact ⟨nofun, h⟩
  | @leave i hi =>
    refine ⟨nofun, h.of_allocators ((c.view i).kind_endThread a) fun j allocator hj => ?_⟩
    rcases SharedStorage.Has.of_withMemory hj with hold | hview
    · exact .inl ⟨j, hold⟩
    · rw [Memory.allocator_endThread] at hview
      cases hview
  | @request i server request made m hi hown hheld hrun =>
    obtain ⟨made', m₁, m', through, hran, heffect, halike, -⟩ :=
      effect_request hsound i server request hheld
    rw [hran] at hrun
    cases hrun
    exact retired_served hsound (fun b hb => hheld b (Request.target_of_ended hb)) heffect halike h

/-! ### Requests that bypass an allocator -/

/-- What a request does without the allocator is on the list of all that can be
done without one, and all allocators are left as they are. -/
theorem effect_of_bypass (hsound : c.shared.Sound) (hstep : c.Step command made c')
    (hbypass : c.Bypasses command) :
    ∃ size p, c.shared.process.RequestEffect size (command.ended made) made p ∧
      p.Alike c'.shared.process ∧ c'.shared.allocators = c.shared.allocators := by
  cases hstep with
  | install settings => exact hbypass.elim
  | join settings => exact hbypass.elim
  | lend hi hlent => exact hbypass.elim
  | giveBack hi => exact hbypass.elim
  | leave hi => exact hbypass.elim
  | @request i server request made m hi hown hheld hrun =>
    obtain ⟨made', m₁, m', through, hran, heffect, halike, hthrough⟩ :=
      effect_request hsound i server request hheld
    rw [hran] at hrun
    cases hrun
    -- the allocator has no part in it: either nobody was asked, or the request goes past it
    obtain rfl : through = false := by
      rcases hthrough with ⟨hfalse, -⟩ | hthrough
      · exact hfalse
      · exact hthrough.trans (Memory.through_of_lent hbypass.2 hbypass.1 request)
    cases heffect with
    | @unpooled p hprocess =>
      refine ⟨_, p, hprocess, halike.process, ?_⟩
      have hview : m.allocator = (c.view i).allocator := halike.allocator
      show (c.shared.note _ _ _ _).allocators.set i m.allocator = _
      rw [SharedStorage.allocators_note, hview, set_view hi]

/-- A small block that ends without the allocator is retired. -/
theorem retired_of_bypass {cls : SizeClass} (hsound : c.shared.Sound)
    (hstep : c.Step command made c') (hbypass : c.Bypasses command)
    (hended : command.ended made = some a) (hkind : c.shared.process.kind a = .pool cls) :
    c'.shared.Retired a := by
  obtain ⟨size, p, heffect, halike, hallocators⟩ := effect_of_bypass hsound hstep hbypass
  rw [hended] at heffect
  have hfreed := (heffect.ends (heffect.made_ne hkind)).small cls hkind
  refine ⟨⟨cls, (halike.kind a).trans hfreed⟩, fun j allocator hj d hmem => ?_⟩
  -- the block was in use before, so it was on no list then, and the lists are the same
  have hhas : c.shared.Has j allocator := by rwa [SharedStorage.Has, hallocators] at hj
  exact (hsound.listed j allocator hhas).not_live hmem (Process.live_pool hkind)

/-! ### States that come about -/

/-- The storage after a holder has written a block. -/
def written (c : ThreadedStorage) (a : Address) (write : Payload → Payload) : ThreadedStorage :=
  { c with shared := { c.shared with process := c.shared.process.modifyPayload a write } }

/-- How the storage of threads goes on: by a step, or because a block that is held is
written. -/
inductive Goes : ThreadedStorage → ThreadedStorage → Prop
  | step {c c' : ThreadedStorage} {command : Command} {made : Option Address}
      (hstep : c.Step command made c') : Goes c c'
  | write {c : ThreadedStorage} {a : Address} (ha : a ∈ c.shared.held) (write : Payload → Payload) :
      Goes c (c.written a write)

/-- The storage of threads that comes about, starting without allocators on a process
without blocks. -/
def Reached (c : ThreadedStorage) : Prop :=
  ∃ system timing,
    Relation.ReflTransGen Goes { shared := { process := { system, timing } } } c

/-- However the storage of threads goes on, it stays sound. -/
theorem sound_goes (hgoes : Goes c c') (h : c.shared.Sound) : c'.shared.Sound := by
  cases hgoes with
  | step hstep => exact sound_step h hstep
  | @write b hb write => exact h.alike ((Process.Alike.refl _).modifyPayload b write)

/-- However the storage of threads goes on, a retired block stays retired. -/
theorem retired_goes (hgoes : Goes c c') (hsound : c.shared.Sound) (h : c.shared.Retired a) :
    c'.shared.Retired a := by
  cases hgoes with
  | step hstep => exact (retired_step hsound hstep h).2
  | @write b hb write =>
    exact h.of_allocators (Process.kind_modifyPayload _ _ _ _) fun j allocator hj => .inl ⟨j, hj⟩

/-- What comes about later comes about. -/
theorem Reached.goes (h : c.Reached) (hgoes : Relation.ReflTransGen Goes c c') : c'.Reached := by
  obtain ⟨system, timing, hbefore⟩ := h
  exact ⟨system, timing, hbefore.trans hgoes⟩

/-- What comes about is sound. -/
theorem sound_of_reached (h : c.Reached) : c.shared.Sound := by
  obtain ⟨system, timing, hgoes⟩ := h
  induction hgoes with
  | refl => exact SharedStorage.sound_of_reachable (.start system timing)
  | tail _ hlast ih => exact sound_goes hlast ih

/-- Once retired, a block is never handed out again. -/
theorem retired_of_goes (hgoes : Relation.ReflTransGen Goes c c') (hsound : c.shared.Sound)
    (h : c.shared.Retired a) : c'.shared.Sound ∧ c'.shared.Retired a := by
  induction hgoes with
  | refl => exact ⟨hsound, h⟩
  | tail _ hlast ih => exact ⟨sound_goes hlast ih.1, retired_goes hlast ih.1 ih.2⟩

/-! ### The contract -/

/-- What those who hold blocks rely on when a step is taken. -/
structure Honours (c : ThreadedStorage) (command : Command) (made : Option Address)
    (c' : ThreadedStorage) : Prop where
  /-- A request is answered by what it asks for, or by nothing. -/
  grants : ∀ i server request, command = .request i server request →
    c.shared.process.Grants server request made c'.shared.process
  held : ∀ a, made = some a → a ∈ c'.shared.held
  separated : ∀ place, c'.shared.Placed place → c'.shared.Separated place
  /-- A block that does not end stays as it is, and is not handed out. -/
  kept : ∀ a ∈ c.shared.held, command.ended made ≠ some a → made ≠ some a ∧ a ∈ c'.shared.held ∧
    c'.shared.process.blocks[a]? = c.shared.process.blocks[a]?
  /-- No allocator is touched that cannot be reached, nor the arenas of those
  that are gone. -/
  untouched : c.Bypasses command → c'.shared.allocators = c.shared.allocators ∧
    c'.shared.process.orphans = c.shared.process.orphans
  /-- Whatever happens next, a small block that ended without the allocator
  is not handed out. -/
  retired : c.Bypasses command → ∀ a cls, command.ended made = some a →
    c.shared.process.kind a = .pool cls → ∀ d, Relation.ReflTransGen Goes c' d →
    ∀ next again d', d.Step next again d' → again ≠ some a

/-- A step that makes a request is answered as it should. -/
theorem grants_step {server : Server} {request : Request} (hsound : c.shared.Sound)
    (hstep : c.Step (.request i server request) made c') :
    c.shared.process.Grants server request made c'.shared.process := by
  cases hstep with
  | request hi hown hheld hrun =>
    obtain ⟨made', m, hran, hgrants⟩ := Memory.grants_answer (sound_view hsound i) server request
      fun a ha => (hsound.live a).1 (hheld a ha)
    rw [hran] at hrun
    cases hrun
    exact hgrants

/-- Nothing but a request touches a block. -/
theorem blocks_step (hstep : c.Step command made c')
    (hrequest : ∀ i server request, command ≠ .request i server request) :
    made = none ∧ c'.shared.process.blocks = c.shared.process.blocks := by
  cases hstep with
  | install settings => exact ⟨rfl, rfl⟩
  | join settings => exact ⟨rfl, rfl⟩
  | lend hi hlent => exact ⟨rfl, rfl⟩
  | giveBack hi => exact ⟨rfl, rfl⟩
  | @leave i hi =>
    refine ⟨rfl, ?_⟩
    show (c.view i).endThread.process.blocks = _
    rw [Memory.endThread]
    split <;> rfl
  | request hi hown hheld hrun => exact absurd rfl (hrequest _ _ _)

/-- A block in use that a step does not end is not handed out, and stays as it is. -/
theorem kept_step (hsound : c.shared.Sound) (hstep : c.Step command made c')
    (ha : c.shared.process.Live a) (hended : command.ended made ≠ some a) :
    made ≠ some a ∧ c'.shared.process.blocks[a]? = c.shared.process.blocks[a]? := by
  by_cases hrequest : ∃ i server request, command = .request i server request
  · obtain ⟨i, server, request, rfl⟩ := hrequest
    exact (grants_step hsound hstep).kept ha hended
  · obtain ⟨rfl, hblocks⟩ := blocks_step hstep fun i server request heq =>
      hrequest ⟨i, server, request, heq⟩
    exact ⟨nofun, by rw [hblocks]⟩

/-- Whoever holds blocks may rely on every step. -/
theorem honours_step (hsound : c.shared.Sound) (hstep : c.Step command made c') :
    c.Honours command made c' where
  grants i server request hcommand := by
    subst hcommand
    exact grants_step hsound hstep
  held a hmade := by
    subst hmade
    have hsound' := sound_step hsound hstep
    cases hstep with
    | request hi hown hheld hrun =>
      exact (hsound'.live a).2 (grants_step hsound (.request hi hown hheld hrun)).live
  separated place hplaced := (sound_step hsound hstep).separated hplaced
  kept a ha hended := by
    have hlive := (hsound.live a).1 ha
    obtain ⟨hmade, hblock⟩ := kept_step hsound hstep hlive hended
    exact ⟨hmade, ((sound_step hsound hstep).live a).2
      ((Process.live_congr hblock).2 hlive), hblock⟩
  untouched hbypass := by
    obtain ⟨size, p, heffect, halike, hallocators⟩ := effect_of_bypass hsound hstep hbypass
    exact ⟨hallocators, halike.orphans.trans heffect.leaves.orphans⟩
  retired hbypass a cls hended hkind d hgoes next again d' hnext := by
    have hretired := retired_of_bypass hsound hstep hbypass hended hkind
    obtain ⟨hsoundd, hretiredd⟩ := retired_of_goes hgoes (sound_step hsound hstep) hretired
    exact (retired_step hsoundd hnext hretiredd).1

/-- At any time, however threads have lent their allocators and got them back,
the blocks that are held are those that are marked as in use. Any request about
them is answered, whichever entry point it goes through, whether or not that one
can reach an allocator, and whoever made the blocks. Whatever happens next, a
request is granted as its caller expects, a block that does not end keeps its
bytes, and a request that bypasses an allocator leaves all allocators alone and
ends a small block for good. -/
theorem honours_of_reached (h : c.Reached) :
    (∀ a, a ∈ c.shared.held ↔ c.shared.process.Live a) ∧
    (∀ i server request, i < c.shared.allocators.length →
      (server = .own → ∃ allocator, c.shared.Has i allocator) →
      (∀ a, request.target = some a → a ∈ c.shared.held) →
      ∃ made c', c.Step (.request i server request) made c') ∧
    ∀ command made c', c.Step command made c' → c.Honours command made c' := by
  have hsound := sound_of_reached h
  refine ⟨hsound.live, fun i server request hi hown hheld => ?_, fun command made c' hstep =>
    honours_step hsound hstep⟩
  obtain ⟨made, m, hrun, -⟩ := Memory.grants_answer (sound_view hsound i) server request
    fun a ha => (hsound.live a).1 (hheld a ha)
  exact ⟨made, _, .request hi hown hheld hrun⟩

/-- The runs that a ledger follows come about. -/
theorem reached_of_run {l : Ledger} (h : Run c l) : c.Reached := by
  induction h with
  | start system timing => exact ⟨system, timing, .refl⟩
  | step _ hstep ih => exact ih.goes (.single (.step hstep))

/-- An allocator hands out a small block, and the thread, which cannot reach its
own one, asks for 100 bytes, which make a large block now. -/
def lending : Option (ThreadedStorage × Ledger) :=
  follow [(1, .own, .malloc 40), (0, .thread, .malloc 100)] (lentPair, {})

/-- Then the thread frees the small block. -/
def released : Option (ThreadedStorage × Ledger) := lending.bind (follow [(0, .thread, .free 0)])

/-- The thread gets its allocator back and fills the block of 100 bytes. -/
def resumed (c : ThreadedStorage) : ThreadedStorage :=
  written { c with lent := Function.update c.lent 0 false } 1 (·.fill 0 100 7)

/-- What is done after the allocator was given back is possible. -/
theorem goes_resumed {allocator : Allocator} (hhas : c.shared.Has 0 allocator)
    (hheld : 1 ∈ c.shared.held) : Relation.ReflTransGen Goes c (resumed c) := by
  refine .tail (.single (.step (.giveBack hhas))) ?_
  exact Goes.write (c := { c with lent := Function.update c.lent 0 false }) hheld (·.fill 0 100 7)

/-- The block that was resized holds what the large one held. -/
theorem cell_resumed (hlive : c.shared.process.Live 1) {i : Nat} (hi : i < 100) :
    ((resumed c).shared.process.payload 1).cell i = .byte 7 := by
  show ((c.shared.process.modifyPayload 1 (·.fill 0 100 7)).payload 1).cell i = _
  rw [Process.payload_modifyPayload_self (Process.lt_size_of_live hlive), Payload.cell_fill,
    if_pos (by omega)]

/-- What the thread is answered when it reduces that block to 40 bytes. -/
def reduced (c : ThreadedStorage) : Option Address :=
  match Memory.answer .thread (.realloc (some 1) 40) (c.view 0) with
  | .ok made _ => made
  | .error _ _ => none

/-- The resize answers with what the program finds. -/
theorem reduced_of_step (hstep : c.Step (.request 0 .thread (.realloc (some 1) 40)) made c') :
    reduced c = made := by
  cases hstep with
  | request hi hown hheld hrun => simp only [reduced, hrun]

/-- The allocators have not noticed the release. The block of 40 bytes is a new
one, although the freed one would fit, and holds what the large block held; and
the freed one is not handed out later either. -/
theorem honours_resumed : ∃ c l c' l' d, lending = some (c, l) ∧ released = some (c', l') ∧
    c.Reached ∧ c.Bypasses (.request 0 .thread (.free 0)) ∧
    c.Step (.request 0 .thread (.free 0)) none c' ∧
    c'.shared.allocators = c.shared.allocators ∧ (resumed c').lent 0 = false ∧
    (resumed c').Step (.request 0 .thread (.realloc (some 1) 40)) (some 2) d ∧
    (∀ i, i < 40 → (d.shared.process.payload 2).cell i = .byte 7) ∧
    (∃ place, d.shared.Placed place ∧ d.shared.Separated place) ∧
    ∀ next made d', d.Step next made d' → made ≠ some 0 := by
  obtain ⟨⟨c', l'⟩, hreleased⟩ : ∃ now, released = some now :=
    Option.isSome_iff_exists.1 (by decide)
  obtain ⟨⟨c, l⟩, hlending, hfollow⟩ := Option.bind_eq_some_iff.1 hreleased
  have hread : ∀ {α : Type} (g : ThreadedStorage → α),
      lending.map (fun now => g now.1) = some (g c) := by
    intro α g
    rw [hlending]
    rfl
  have hread' : ∀ {α : Type} (g : ThreadedStorage → α),
      released.map (fun now => g now.1) = some (g c') := by
    intro α g
    rw [hreleased]
    rfl
  -- the release
  have hreached : c.Reached := reached_of_run (run_follow run_lentPair hlending)
  have hlent : c.lent 0 = true := Option.some.inj ((hread (·.lent 0)).symm.trans (by decide))
  have hbypass : c.Bypasses (.request 0 .thread (.free 0)) := ⟨nofun, hlent⟩
  have hpool : c.shared.process.kind 0 = .pool 2 :=
    Option.some.inj ((hread (·.shared.process.kind 0)).symm.trans (by decide))
  obtain ⟨made, next, hstep, hnext⟩ := follow_cons hfollow
  obtain rfl : next = c' := by
    cases hnext
    rfl
  obtain ⟨-, -, hhonours⟩ := honours_of_reached hreached
  have hrelease := hhonours _ _ _ hstep
  obtain ⟨rfl, -⟩ := hrelease.grants _ _ _ rfl
  -- the thread goes on with its allocator
  obtain ⟨allocator, hview⟩ : ∃ allocator, (next.view 0).allocator = some allocator :=
    Option.isSome_iff_exists.1
      (Option.some.inj ((hread' fun c => (c.view 0).allocator.isSome).symm.trans (by decide)))
  have hheld : 1 ∈ next.shared.held := by
    have hall : next.shared.held = [1] :=
      Option.some.inj ((hread' (·.shared.held)).symm.trans (by decide))
    rw [hall]
    exact List.mem_cons_self
  have hgoes := goes_resumed (allocator_view.1 hview) hheld
  obtain ⟨-, hanswered, hhonours'⟩ :=
    honours_of_reached ((hreached.goes (.single (.step hstep))).goes hgoes)
  have hmembers : next.shared.allocators.length = 2 :=
    Option.some.inj ((hread' (·.shared.allocators.length)).symm.trans (by decide))
  obtain ⟨made, d, hresize⟩ := hanswered 0 .thread (.realloc (some 1) 40)
    (by show 0 < next.shared.allocators.length; omega) nofun (by rintro _ ⟨⟩; exact hheld)
  have hreduced : reduced (resumed next) = some 2 :=
    Option.some.inj ((hread' fun c => reduced (resumed c)).symm.trans (by decide))
  obtain rfl : some 2 = made := hreduced.symm.trans (reduced_of_step hresize)
  refine ⟨c, l, next, l', d, hlending, hreleased, hreached, hbypass, hstep,
    (hrelease.untouched hbypass).1, rfl, hresize, fun i hi => ?_, ?_, ?_⟩
  · have hmoves : (resumed next).shared.process.Moves 1 40 (some 2) d.shared.process :=
      (hhonours' _ _ _ hresize).grants _ _ _ rfl
    have hkind : (resumed next).shared.process.kind 1 = .heap 100 :=
      Option.some.inj ((hread' fun c => (resumed c).shared.process.kind 1).symm.trans (by decide))
    have hsound := sound_step (sound_of_reached hreached) hstep
    rw [hmoves.kept 2 rfl i (by rw [hkind]; simp only [BlockKind.usable]; omega)]
    exact cell_resumed ((hsound.live 1).1 hheld) (by omega)
  · obtain ⟨place, hplaced⟩ := SharedStorage.exists_placed d.shared
    exact ⟨place, hplaced, (hhonours' _ _ _ hresize).separated place hplaced⟩
  · exact hrelease.retired hbypass 0 2 rfl hpool d (hgoes.tail (.step hresize))

end ThreadedStorage

end ExtensionHost
