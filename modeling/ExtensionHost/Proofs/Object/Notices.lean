import ExtensionHost.Box.Tuple
import ExtensionHost.Proofs.Object.Create
import ExtensionHost.Proofs.Storage.Notices

/-!
# `ExtensionHost.Proofs.Object.Notices`: operations and the events before them

`Blind` says of an operation that the events reported so far make no difference to it:
whatever they are, it comes to the same answer, refusal or fault, and leaves the same world
but for events. Blind operations are put together without conditions (`Blind.bind`,
`Blind.attempt_bind`), so what is shown here is that the few operations that change a world
themselves are blind, up to the release of a reference and the making of a tuple.

The queue of a release is worked off as often as there are live objects at most, and events
are no objects, so the induction is the one that the queue itself goes by (`blind_drain`).
-/

set_option autoImplicit false

namespace ExtensionHost

open World

/-- The world with other events so far. -/
def World.withEvents (w : World) (events : Array Event) : World :=
  { w with memory := w.memory.withEvents events }

/-- Whatever was reported so far, the operation comes to the same and leaves the same world
but for events. -/
def Blind {α : Type} (operation : Host α) : Prop :=
  ∀ (w : World) (events : Array Event), ∃ events',
    operation (w.withEvents events) = leaving (·.withEvents events') (operation w)

namespace Blind

variable {α β : Type} {operation : Host α} {attempt : Attempt α}

/-- Answering does not look at events. -/
theorem ret (a : α) : Blind (pure a : Host α) := fun _ events => ⟨events, rfl⟩

/-- Reporting does not look at the events before it. -/
theorem report (event : Event) : Blind (Host.report event) :=
  fun _ events => ⟨events.push event, rfl⟩

/-- Two operations that do not look at events are one. -/
theorem bind (h : Blind operation) {next : α → Host β} (hnext : ∀ a, Blind (next a)) :
    Blind (operation >>= next) := by
  intro w events
  obtain ⟨events₁, hfirst⟩ := h w events
  rw [Host.run_bind, Host.run_bind, hfirst]
  cases operation w with
  | error fault w₁ => exact ⟨events₁, rfl⟩
  | ok a w₁ => exact hnext a w₁ events₁

/-! ### Attempts -/

/-- Answering without a refusal does not look at events. -/
theorem attempt_ret (a : α) : Blind (pure a : Attempt α).run := .ret (Except.ok a)

/-- Refusing does not look at events. -/
theorem refuse (e : ApiError) : Blind (throw e : Attempt α).run := .ret (Except.error e)

/-- Reading what does not depend on events does not look at them. -/
theorem read {f : World → Except ApiError α} (hf : ∀ w events, f (w.withEvents events) = f w) :
    Blind (Attempt.read f).run := by
  intro w events
  refine ⟨events, ?_⟩
  rw [Attempt.run_read, Attempt.run_read, hf]
  rfl

/-- An attempt that cannot be refused looks at events no more than its operation does. -/
theorem lift (h : Blind operation) : Blind (monadLift operation : Attempt α).run :=
  h.bind fun a => .ret (Except.ok a)

/-- Two attempts that do not look at events are one. -/
theorem attempt_bind (h : Blind attempt.run) {next : α → Attempt β}
    (hnext : ∀ a, Blind (next a).run) : Blind (attempt >>= next).run :=
  Blind.bind h fun result => by
    cases result with
    | ok a => exact hnext a
    | error e => exact .ret (Except.error e)

end Blind

namespace World

variable {w w' : World} {r : Ref}

/-! ### Releasing references -/

/-- Giving up a reference does not look at events. -/
theorem lower_withEvents (r : Ref) (w : World) (events : Array Event) :
    lower r (w.withEvents events) = leaving (·.withEvents events) (lower r w) := by
  have hobject : (w.withEvents events).object? r = w.object? r := rfl
  simp only [lower, hobject]
  cases w.object? r with
  | none => rfl
  | some object =>
    dsimp only
    by_cases himmortal : object.isImmortal = true
    · simp only [if_pos himmortal]
      rfl
    · by_cases hcount : object.count ≤ 0
      · simp only [if_neg himmortal, if_pos hcount]
        rfl
      · simp only [if_neg himmortal, if_neg hcount]
        rfl

/-- A release does not look at events, if what it starts does not. -/
theorem blind_releaseWith {start : Host Unit} (hstart : Blind start) (r : Ref) :
    Blind (releaseWith start r) := by
  intro w events
  simp only [releaseWith, lower_withEvents]
  cases lower r w with
  | error fault w₁ => exact ⟨events, rfl⟩
  | ok last w₁ =>
    cases last with
    | false => exact ⟨events, rfl⟩
    | true =>
      have hdraining : (w₁.withEvents events).draining = w₁.draining := rfl
      simp only [leaving, hdraining]
      by_cases hbusy : w₁.draining = true
      · simp only [if_pos hbusy]
        exact ⟨events, rfl⟩
      · simp only [if_neg hbusy]
        obtain ⟨events₁, hrun⟩ :=
          hstart { w₁ with pending := r :: w₁.pending, draining := true } events
        refine ⟨events₁, ?_⟩
        have hmoved : { w₁.withEvents events with
            pending := r :: (w₁.withEvents events).pending, draining := true } =
          withEvents { w₁ with pending := r :: w₁.pending, draining := true } events := rfl
        rw [hmoved, hrun]
        cases start { w₁ with pending := r :: w₁.pending, draining := true } <;> rfl

/-- Releasing several references does not look at events, if what is started does not. -/
theorem blind_releaseAllWith {start : Host Unit} (hstart : Blind start) (rs : List Ref) :
    Blind (releaseAllWith start rs) := by
  induction rs with
  | nil => exact fun _ events => ⟨events, rfl⟩
  | cons r rest ih =>
    intro w events
    obtain ⟨events₁, hfirst⟩ := blind_releaseWith hstart r w events
    simp only [releaseAllWith, hfirst]
    cases releaseWith start r w with
    | error fault w₁ => exact ⟨events₁, rfl⟩
    | ok u w₁ => exact ih w₁ events₁

/-- Events do not keep a process from being stopped. -/
theorem blind_nested : Blind nested := fun _ events => ⟨events, rfl⟩

/-- Freeing a block does not look at events. -/
theorem blind_freeBlock (home : Option Address) : Blind (freeBlock home) := by
  cases home with
  | none => exact fun _ events => ⟨events, rfl⟩
  | some a =>
    intro w events
    obtain ⟨events', hfree⟩ := w.memory.free_withEvents events a
    refine ⟨events', ?_⟩
    have hmemory : (w.withEvents events).memory = w.memory.withEvents events := rfl
    simp only [freeBlock, Host.runMemory, hmemory, hfree]
    cases Memory.free a w.memory <;> rfl

/-- Discarding an object does not look at events. -/
theorem blind_discard (r : Ref) (home : Option Address) : Blind (discard r home) :=
  fun w events =>
    blind_freeBlock home (w.modify r fun object => { object with live := false }) events

/-- Two steps of a release, the second of which is taken when the first has not stopped the
process. -/
theorem blind_next {first next : Host Unit} (hfirst : Blind first) (hnext : Blind next) :
    Blind fun w => match first w with
      | .error fault w => .error fault w
      | .ok () w => next w := by
  intro w events
  obtain ⟨events₁, hrun⟩ := hfirst w events
  simp only [hrun]
  cases first w with
  | error fault w₁ => exact ⟨events₁, rfl⟩
  | ok u w₁ => exact hnext w₁ events₁

/-- A routine reports, and looks at nothing that was reported. -/
theorem blind_destroy (r : Ref) : Blind (destroy r) := by
  intro w events
  have hobject : (w.withEvents events).object? r = w.object? r := rfl
  simp only [destroy, destroyWith, hobject]
  cases w.object? r with
  | none => exact ⟨events, rfl⟩
  | some object =>
    have hreported : (w.withEvents events).report (.objectReleased object.type.name) =
        (w.report (.objectReleased object.type.name)).withEvents
          (events.push (.objectReleased object.type.name)) := rfl
    simp only [hreported]
    -- from here on the report is one of the events that make no difference
    generalize w.report (.objectReleased object.type.name) = w,
      events.push (.objectReleased object.type.name) = events
    -- slots stand in blocks, and blocks are not told by events
    have hslots : (w.withEvents events).slotsOf object = w.slotsOf object := rfl
    simp only [hslots]
    have hreleases := blind_releaseAllWith blind_nested ((w.slotsOf object).filterMap id)
    have hdiscards := blind_discard r object.home
    cases object.type.routine with
    | forbidden => exact ⟨events, rfl⟩
    | plain => exact hdiscards w events
    | reporting =>
      cases object.body with
      | labelled label => exact hdiscards { w with reports := w.reports.push label } events
      | _ => exact hdiscards w events
    | tuple => exact blind_next hreleases hdiscards (w.report _) (events.push _)
    | list =>
      exact blind_next hreleases (blind_next (blind_freeBlock _) hdiscards) (w.report _)
        (events.push _)

/-- The queue is worked off in the same order. -/
theorem blind_drain : Blind drain := by
  intro w events
  -- every routine leaves one live object less
  induction hn : w.liveCount using Nat.strong_induction_on generalizing w events with
  | _ n ih =>
    have hsame : (w.withEvents events).pending = w.pending := rfl
    cases hpending : w.pending with
    | nil =>
      rw [drain_nil hpending, drain_nil (hsame.trans hpending)]
      exact ⟨events, rfl⟩
    | cons r rest =>
      rw [drain_cons hpending, drain_cons (hsame.trans hpending)]
      obtain ⟨events₁, hdestroy⟩ := blind_destroy r { w with pending := rest } events
      have hmoved : { w.withEvents events with pending := rest } =
          withEvents { w with pending := rest } events := rfl
      rw [hmoved, hdestroy]
      cases hrun : destroy r { w with pending := rest } with
      | error fault w₁ => exact ⟨events₁, rfl⟩
      | ok u w₁ =>
        have hlt : w₁.liveCount < n := by
          have hcount := liveCount_destroy hrun
          have hlive : liveCount { w with pending := rest } = w.liveCount := rfl
          omega
        exact ih _ hlt w₁ events₁ rfl

/-- Releasing a reference does not look at events. -/
theorem blind_release (r : Ref) : Blind (Host.release r) := blind_releaseWith blind_drain r

/-! ### Making objects -/

/-- Making an object does not look at events. -/
theorem blind_allocate (type : TypeObject) (size : Nat) (body : Body) :
    Blind (Object.allocate type size body).run := by
  intro w events
  obtain ⟨events', hcalloc'⟩ := w.memory.calloc_withEvents size events 1
  cases hcalloc : w.memory.calloc 1 size with
  | mk found m =>
    rw [hcalloc] at hcalloc'
    rw [run_allocate hcalloc, run_allocate (w := w.withEvents events) hcalloc']
    cases found with
    | none => exact ⟨events', rfl⟩
    | some home => exact ⟨events'.push (.objectCreated type.name size), rfl⟩

/-- Making a tuple does not look at events. -/
theorem blind_newTuple (length : Nat) : Blind (Box.newTuple length).run := by
  rw [Box.newTuple, Box.newTupleOf]
  rcases newSized_eq .tuple length (.tuple length) with ⟨size, -, heq⟩ | ⟨-, heq⟩
  · rw [heq]
    exact .refuse _
  · rw [heq]
    exact blind_allocate _ _ _

end World

end ExtensionHost
