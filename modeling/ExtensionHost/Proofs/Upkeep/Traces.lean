import ExtensionHost.Proofs.Object.Accounts
import ExtensionHost.Proofs.Upkeep.Provision

/-!
# `ExtensionHost.Proofs.Upkeep.Traces`: operations are sequences of steps

`Traces` says of an operation that what it does is a sequence of steps. Nothing
is said of its answer, or of the references that its caller has, so operations
are put together without conditions: if the parts are sequences of steps the
whole is one. What has to be looked at are the few operations that change a
world themselves, and for each of these it is shown which steps it takes.

The order within a release is the only point where the steps are not those of
the code line by line. A routine reports that its object goes, then releases
what the object holds, and frees the blocks last. All of this is one step,
because in between blocks are free that the object still has.
-/

set_option autoImplicit false

namespace ExtensionHost

open World

/-- Whatever the operation does to objects and storage is a sequence of steps. A `strict`
operation makes only objects that hold what their type stands for. -/
def Traces (strict : Bool) {α : Type} (operation : Host α) : Prop :=
  ∀ (w : World) (a : α) (w' : World), w.Provided → operation w = .ok a w' → w.Steps strict w'

namespace Traces

variable {strict : Bool} {α β : Type} {operation : Host α} {attempt : Attempt α}

/-- An operation that only looks takes no step. -/
theorem of_looks (h : Looks operation) : Traces strict operation := by
  intro w a w' _ hrun
  obtain ⟨b, hrun'⟩ := h w
  rw [hrun'] at hrun
  cases hrun
  exact .refl

/-- An answer takes no step. -/
theorem ret (a : α) : Traces strict (pure a : Host α) := .of_looks (.ret a)

/-- Two operations one after the other take the steps of both. -/
theorem bind (h : Traces strict operation) {next : α → Host β}
    (hnext : ∀ a, Traces strict (next a)) : Traces strict (operation >>= next) := by
  intro w b w' hw hrun
  rw [Host.run_bind] at hrun
  cases hfirst : operation w with
  | error fault w₁ =>
    rw [hfirst] at hrun
    cases hrun
  | ok a w₁ =>
    rw [hfirst] at hrun
    have hsteps : w.Steps strict w₁ := h w a w₁ hw hfirst
    exact hsteps.trans (hnext a w₁ b w' (Steps.provided hsteps hw) hrun)

/-- What is made of an answer takes no step. -/
theorem map (h : Traces strict operation) (f : α → β) : Traces strict (f <$> operation) :=
  h.bind fun a => .ret (f a)

/-! ### Attempts -/

/-- An attempt that answers takes no step. -/
theorem attempt_ret (a : α) : Traces strict (pure a : Attempt α).run := .of_looks (.attempt_ret a)

/-- An attempt that refuses takes no step. -/
theorem refuse (e : ApiError) : Traces strict (throw e : Attempt α).run :=
  .of_looks fun _ => ⟨.error e, rfl⟩

/-- An attempt to read the world takes no step. -/
theorem read (f : World → Except ApiError α) : Traces strict (Attempt.read f).run :=
  .of_looks (.read f)

/-- A check takes no step. -/
theorem check (x : Except ApiError α) : Traces strict (Attempt.ofExcept x).run :=
  .of_looks (.check x)

/-- An attempt that cannot fail takes the steps of its operation. -/
theorem lift (h : Traces strict operation) : Traces strict (monadLift operation : Attempt α).run :=
  h.bind fun a => .ret (Except.ok a)

/-- Two attempts one after the other take the steps of both, as far as they come. -/
theorem attempt_bind (h : Traces strict attempt.run) {next : α → Attempt β}
    (hnext : ∀ a, Traces strict (next a).run) : Traces strict (attempt >>= next).run :=
  Traces.bind h fun result => by
    cases result with
    | ok a => exact hnext a
    | error e => exact .ret (Except.error e)

/-- What follows an attempt starts in the world that the attempt leaves. -/
theorem bind_from {w w' : World} (h : Traces strict attempt.run) {next : α → Attempt β}
    {result : Except ApiError β} (hw : w.Provided) (hrun : (attempt >>= next).run w = .ok result w')
    (hnext : ∀ a w₁, w₁.Provided → attempt.run w = .ok (.ok a) w₁ →
      (next a).run w₁ = .ok result w' → w₁.Steps strict w') : w.Steps strict w' := by
  rw [Attempt.run_bind] at hrun
  cases hfirst : attempt.run w with
  | error fault w₁ =>
    rw [hfirst] at hrun
    cases hrun
  | ok found w₁ =>
    have hsteps := h w found w₁ hw hfirst
    rw [hfirst] at hrun
    cases found with
    | error e =>
      cases hrun
      exact hsteps
    | ok a => exact hsteps.trans (hnext a w₁ (Steps.provided hsteps hw) hfirst hrun)

/-- What follows may rely on what is true of every answer. -/
theorem bind_of {P : α → Prop} (h : Traces strict attempt.run)
    (hgives : ∀ w a w', attempt.run w = .ok (.ok a) w' → P a) {next : α → Attempt β}
    (hnext : ∀ a, P a → Traces strict (next a).run) : Traces strict (attempt >>= next).run :=
  fun _ _ _ hw hrun => h.bind_from hw hrun fun a w₁ hw₁ hfirst hlast =>
    hnext a (hgives _ a w₁ hfirst) _ _ _ hw₁ hlast

/-- What can be checked without the world is known afterwards. -/
theorem after_check (x : Except ApiError α) {next : α → Attempt β}
    (h : ∀ a, x = .ok a → Traces strict (next a).run) :
    Traces strict (Attempt.ofExcept x >>= next).run := by
  cases x with
  | error e => exact .refuse e
  | ok a => exact h a rfl

/-- A refusal may be handled. -/
theorem handle (h : Traces strict attempt.run) {next : ApiError → Attempt α}
    (hnext : ∀ e, Traces strict (next e).run) : Traces strict (tryCatch attempt next).run :=
  Traces.bind h fun result => by
    cases result with
    | ok a => exact .ret (Except.ok a)
    | error e => exact hnext e

/-! ### Notices -/

/-- A report takes a step of storage, if it is not one about an object that goes. -/
theorem report {event : Event} (hevent : event.released? = none) :
    Traces strict (Host.report event) := by
  intro w a w' _ hrun
  cases hrun
  exact .single (.noticed hevent)

end Traces

namespace World

variable {w w' : World} {r : Ref} {object : Object} {m m' : Memory}

/-! ### Counting references -/

/-- Only a count changes when a reference is taken. -/
theorem recounted_retain (h : w.Housed) (r : Ref) : w.Recounted (w.retain r) := by
  cases hobject : w.object? r with
  | none =>
    have hsame : w.retain r = w := by simp only [World.retain, hobject]
    rw [hsame]
    exact .refl w
  | some object =>
    rcases retain_cases hobject with ⟨-, hsame⟩ | ⟨hmortal, hsame⟩
    · rw [hsame]
      exact .refl w
    · rw [hsame]
      exact recounted_modify (h.le_of_mortal hobject hmortal) _

/-- Only a count changes when a reference is given up that is not the last one. -/
theorem recounted_lower {last : Bool} (h : w.Housed) (hrun : lower r w = .ok last w') :
    w.Recounted w' := by
  unfold lower at hrun
  split at hrun
  · cases hrun
  · next object hobject =>
    split at hrun
    · cases hrun
      exact .refl w
    · next hmortal =>
      split at hrun
      · cases hrun
      · cases hrun
        exact recounted_modify (h.le_of_mortal hobject (Bool.eq_false_of_not_eq_true hmortal)) _

/-- Inside a routine a release counts and puts into the queue. -/
theorem recounted_releaseWith_nested (h : w.Housed) (hrun : releaseWith nested r w = .ok () w') :
    w.Recounted w' := by
  obtain ⟨last, w₁, hlower, rfl⟩ := releaseWith_nested hrun
  exact (recounted_lower h hlower).trans (recounted_queue _ _ _)

/-- Only counts and the queue change when references are released in a routine. -/
theorem recounted_releaseAllWith_nested {rs : List Ref} (h : w.Housed)
    (hrun : releaseAllWith nested rs w = .ok () w') : w.Recounted w' := by
  induction rs generalizing w with
  | nil =>
    cases hrun
    exact .refl _
  | cons r rest ih =>
    simp only [releaseAllWith] at hrun
    split at hrun
    · cases hrun
    · next hfirst =>
      have hcounts := recounted_releaseWith_nested h hfirst
      exact hcounts.trans (ih (h.recounted hcounts) hrun)

/-! ### Routines -/

/-- A block that is freed, if there is one. -/
theorem clears_freeBlock {home : Option Address} (hlent : w.memory.lent = false)
    (hmemory : w.memory.Sound) (hlive : ∀ a, home = some a → w.memory.process.Live a)
    (hrun : freeBlock home w = .ok () w') :
    ∃ m, w.memory.Clears home.toList m ∧ w' = w.withMemory m := by
  cases home with
  | none =>
    cases hrun
    exact ⟨w.memory, .done _, rfl⟩
  | some a =>
    simp only [freeBlock, Host.runMemory] at hrun
    split at hrun
    · next m hfree =>
      cases hrun
      exact ⟨m, .next (Memory.answers_free hlent hmemory (hlive a rfl) hfree) (.done m), rfl⟩
    · cases hrun

/-- The last part of a routine frees the blocks of its object. -/
theorem clears_closing (h : w.Housed) (hlent : w.memory.lent = false)
    (hobject : w.object? r = some object) (hrun : closing r object w = .ok () w') :
    ∃ m, w.memory.Clears object.blocks m ∧ w' = (w.without r).withMemory m := by
  have hin := h.housed r object hobject
  simp only [closing] at hrun
  split at hrun
  · cases hrun
  · next w₁ hbuffer =>
    obtain ⟨m, hclears, rfl⟩ := clears_freeBlock hlent h.memory
      (fun a ha => hin.live a (Object.mem_blocks.2 (.inl ha))) hbuffer
    -- the block of the object itself is still in use when the buffer is not any more
    have hhome : ∀ a, object.home = some a → m.process.Live a := fun a ha =>
      hclears.live_iff.2 ⟨fun hmem => h.ne_buffer hobject ha (Option.mem_toList.1 hmem),
        hin.live a (Object.mem_blocks.2 (.inr ha))⟩
    obtain ⟨m', hclears', rfl⟩ := clears_freeBlock (w := (w.without r).withMemory m)
      (hclears.orderly.lent hlent) (hclears.orderly.sound h.memory) hhome hrun
    exact ⟨m', hclears.append hclears', rfl⟩

/-- The first objects must not go. -/
theorem Housed.le_of_destroy (h : w.Housed) (hobject : w.object? r = some object)
    (hrun : destroy r w = .ok () w') : 3 ≤ r := by
  by_contra hlt
  have hsingle := h.singleton r (Nat.lt_of_not_le hlt)
  rw [(object?_eq_some.1 hobject).1] at hsingle
  have hforbidden : object.type.routine = .forbidden := by
    match r, hlt with
    | 0, _ | 1, _ | 2, _ =>
      cases hsingle
      rfl
    | _ + 3, hlt => exact absurd (Nat.le_add_left 3 _) hlt
  simp only [destroy, destroyWith, hobject, hforbidden] at hrun
  cases hrun

/-- A routine is one step. -/
theorem wanes_destroy (hw : w.Provided) (hrun : destroy r w = .ok () w') : w.Wanes w' := by
  cases hobject : w.object? r with
  | none =>
    simp only [destroy, destroyWith, hobject] at hrun
    cases hrun
  | some object =>
    have hle := hw.housed.le_of_destroy hobject hrun
    rw [destroy, destroyWith_eq nested hobject (hw.housed.fits r object hobject hle)] at hrun
    split at hrun
    · cases hrun
    · next w₁ hreleased =>
      have hopened := hw.housed.opened object
      have hcounts := recounted_releaseAllWith_nested hopened hreleased
      obtain ⟨count, hobject₁⟩ := hcounts.opened_stays hobject
      have hlent₁ : w₁.memory.lent = false := by
        rw [hcounts.memory]
        exact hw.lent
      obtain ⟨m, hclears, rfl⟩ :=
        clears_closing (hopened.recounted hcounts) hlent₁ hobject₁ hrun
      exact .ended hobject hle hcounts hclears

/-- After releases objects and blocks belong together, and all of it is accounted for. -/
theorem Declines.provided (h : w.Declines w') (hw : w.Provided) : w'.Provided :=
  Steps.provided (h.steps : w.Steps true w') hw

/-- The queue is worked off step by step. -/
theorem declines_drain (hw : w.Provided) (hrun : drain w = .ok () w') : w.Declines w' := by
  -- every routine leaves one live object less
  induction hn : w.liveCount using Nat.strong_induction_on generalizing w with
  | _ n ih =>
    rw [drain] at hrun
    split at hrun
    · cases hrun
      exact .refl
    · next r rest _ =>
      split at hrun
      · cases hrun
      · next w₁ hdestroy =>
        have hqueue : w.Wanes { w with pending := rest } :=
          .recounted (recounted_queue w rest w.draining)
        have hw' := hqueue.provided hw
        have hwanes := wanes_destroy hw' hdestroy
        have hlt : w₁.liveCount < n := by
          have hcount := liveCount_destroy hdestroy
          have hsame : World.liveCount { w with pending := rest } = w.liveCount := rfl
          omega
        exact .head hqueue (.head hwanes (ih _ hlt (hwanes.provided hw') hrun rfl))

/-- A release declines, all that it brings about included. -/
theorem declines_release (hw : w.Provided) (hrun : World.release r w = .ok () w') :
    w.Declines w' := by
  unfold World.release releaseWith at hrun
  split at hrun
  · cases hrun
  · next hlower =>
    cases hrun
    exact .single (.recounted (recounted_lower hw.housed hlower))
  · next w₁ hlower =>
    have hcounts := recounted_lower hw.housed hlower
    split at hrun
    · cases hrun
      exact .single (.recounted (hcounts.trans (recounted_queue _ _ _)))
    · split at hrun
      · cases hrun
      · next w₂ hdrain =>
        cases hrun
        have hfirst : w.Wanes { w₁ with pending := r :: w₁.pending, draining := true } :=
          .recounted (hcounts.trans (recounted_queue _ _ _))
        have hdeclines := declines_drain (hfirst.provided hw) hdrain
        exact .head hfirst (hdeclines.tail (.recounted (recounted_queue _ _ _)))

/-- Releases one after the other decline. -/
theorem declines_releaseAll {rs : List Ref} (hw : w.Provided)
    (hrun : Host.releaseAll rs w = .ok () w') : w.Declines w' := by
  induction rs generalizing w with
  | nil =>
    cases hrun
    exact .refl
  | cons r rest ih =>
    rw [Host.releaseAll, Host.run_bind] at hrun
    cases hfirst : Host.release r w with
    | error fault w₁ =>
      rw [hfirst] at hrun
      cases hrun
    | ok u w₁ =>
      rw [hfirst] at hrun
      have hdeclines := declines_release hw hfirst
      exact hdeclines.trans (ih (hdeclines.provided hw) hrun)

end World

namespace Traces

variable {strict : Bool}

/-- A reference is taken by steps. -/
theorem retain (r : Ref) : Traces strict (Host.retain r) := by
  intro w a w' hw hrun
  cases hrun
  exact .single (.recounted (recounted_retain hw.housed r))

/-- A reference is released by steps. -/
theorem release (r : Ref) : Traces strict (Host.release r) :=
  fun _ _ _ hw hrun => Declines.steps (declines_release hw hrun)

/-- References are released by steps. -/
theorem releaseAll (rs : List Ref) : Traces strict (Host.releaseAll rs) :=
  fun _ _ _ hw hrun => Declines.steps (declines_releaseAll hw hrun)

/-- A reference that is used up is released in the end, if need be. -/
theorem consuming {α : Type} {attempt : Attempt α} (h : Traces strict attempt.run) (r : Ref) :
    Traces strict (Attempt.consuming r attempt).run :=
  h.handle fun e => (release r).lift.attempt_bind fun _ => .refuse e

end Traces

end ExtensionHost
