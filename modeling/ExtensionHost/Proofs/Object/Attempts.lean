import ExtensionHost.Object.Release

/-!
# `ExtensionHost.Proofs.Object.Attempts`: how attempts run

An attempt is a host operation whose refusal is a value, so it ends in one
of three ways: with an answer, with a refusal, or with a fault. The lemmas
here say how each way of putting attempts together runs when its parts have
run, and are all that the proofs about attempts use of their definition.
-/

set_option autoImplicit false

namespace ExtensionHost

/-- What a sequence of two steps answers, the second step answers to what the
first does. -/
theorem except_bind_eq_ok {ε α β : Type} {x : Except ε α} {f : α → Except ε β} {b : β} :
    (x >>= f) = .ok b ↔ ∃ a, x = .ok a ∧ f a = .ok b := by
  cases x with
  | error e => exact ⟨nofun, fun ⟨_, h, _⟩ => by cases h⟩
  | ok a => exact ⟨fun h => ⟨a, rfl, h⟩, fun ⟨_, h, hb⟩ => by cases h; exact hb⟩

/-- A value that was mapped comes from a value. -/
theorem except_map_eq_ok {ε α β : Type} {x : Except ε α} {f : α → β} {b : β} :
    x.map f = .ok b ↔ ∃ a, x = .ok a ∧ f a = b := by
  cases x with
  | error e => exact ⟨nofun, fun ⟨_, h, _⟩ => by cases h⟩
  | ok a => exact ⟨fun h => ⟨a, rfl, Except.ok.inj h⟩, fun ⟨_, h, hb⟩ => by cases h; cases hb; rfl⟩

/-! ### Host operations -/

namespace Host

variable {α β : Type} {w w' : World}

/-- Answering changes nothing. -/
@[simp] theorem run_pure (a : α) (w : World) : (pure a : Host α) w = .ok a w := rfl

/-- The second operation goes on where the first one ended, unless that one stopped the
process. -/
theorem run_bind (operation : Host α) (next : α → Host β) (w : World) :
    (operation >>= next) w =
      match operation w with
      | .ok a w' => next a w'
      | .error fault w' => .error fault w' := by
  show EStateM.bind operation next w = _
  rw [EStateM.bind]
  split <;> simp_all

/-- After an operation that answered, the next one goes on with the answer. -/
theorem run_bind_ok {operation : Host α} {a : α} (h : operation w = .ok a w')
    (next : α → Host β) : (operation >>= next) w = next a w' := by
  rw [run_bind, h]

/-- Changing the world answers nothing. -/
@[simp] theorem run_modify (f : World → World) (w : World) :
    (modify f : Host Unit) w = .ok () (f w) := rfl

/-- Changing the world and answering do both at once. -/
@[simp] theorem run_modifyGet (f : World → α × World) (w : World) :
    (modifyGet f : Host α) w = .ok (f w).1 (f w).2 := rfl

/-- The world that is seen is the one there is. -/
@[simp] theorem run_get (w : World) : (get : Host World) w = .ok w w := rfl

/-- A report adds an event and nothing else. -/
@[simp] theorem run_report (event : Event) (w : World) :
    report event w = .ok () (w.report event) := rfl

end Host

/-! ### Attempts -/

namespace Attempt

variable {α β : Type} {w w' : World} {attempt : Attempt α} {a : α} {e : ApiError}

/-- An attempt that answers at once is not refused. -/
@[simp] theorem run_pure (a : α) (w : World) : (pure a : Attempt α).run w = .ok (.ok a) w := rfl

/-- An attempt that is refused at once changes nothing. -/
@[simp] theorem run_throw (e : ApiError) (w : World) :
    (throw e : Attempt α).run w = .ok (.error e) w := rfl

/-- Reading may be refused and changes nothing. -/
@[simp] theorem run_read (f : World → Except ApiError α) (w : World) :
    (read f).run w = .ok (f w) w := rfl

/-- A look leaves the world as it is. -/
theorem run_read_eq_ok {f : World → Except ApiError α} {answer : α}
    (hrun : (Attempt.read f).run w = .ok (.ok answer) w') : f w = .ok answer ∧ w' = w := by
  rw [run_read] at hrun
  cases hfound : f w with
  | error e =>
    rw [hfound] at hrun
    cases hrun
  | ok found =>
    rw [hfound] at hrun
    cases hrun
    exact ⟨rfl, rfl⟩

/-- What is known may be a refusal and changes nothing. -/
theorem run_ofExcept (x : Except ApiError α) (w : World) : (ofExcept x).run w = .ok x w := by
  cases x <;> rfl

/-- The second attempt goes on where the first one ended, unless that one was refused or
stopped the process. -/
theorem run_bind (attempt : Attempt α) (next : α → Attempt β) (w : World) :
    (attempt >>= next).run w =
      match attempt.run w with
      | .ok (.ok a) w' => (next a).run w'
      | .ok (.error e) w' => .ok (.error e) w'
      | .error fault w' => .error fault w' := by
  show (attempt.run >>= fun x => _) w = _
  rw [Host.run_bind]
  cases attempt.run w with
  | ok x w' => cases x <;> rfl
  | error fault w' => rfl

/-- After an attempt that answered, the next one goes on with the answer. -/
theorem run_bind_ok (h : attempt.run w = .ok (.ok a) w') (next : α → Attempt β) :
    (attempt >>= next).run w = (next a).run w' := by
  rw [run_bind, h]

/-- After an attempt that was refused, the next one is not made. -/
theorem run_bind_error (h : attempt.run w = .ok (.error e) w') (next : α → Attempt β) :
    (attempt >>= next).run w = .ok (.error e) w' := by
  rw [run_bind, h]

/-- Two steps are not refused when neither is. -/
theorem run_bind_eq_ok {next : α → Attempt β} {b : β} :
    (attempt >>= next).run w = .ok (.ok b) w' ↔
      ∃ a w₁, attempt.run w = .ok (.ok a) w₁ ∧ (next a).run w₁ = .ok (.ok b) w' := by
  refine ⟨fun h => ?_, fun ⟨a, w₁, hfirst, h⟩ => (run_bind_ok hfirst next).trans h⟩
  rw [run_bind] at h
  cases hfirst : attempt.run w with
  | error fault w₁ =>
    rw [hfirst] at h
    cases h
  | ok found w₁ =>
    rw [hfirst] at h
    cases found with
    | error e => cases h
    | ok a => exact ⟨a, w₁, rfl, h⟩

/-- What is known is answered without a change. -/
theorem run_ofExcept_eq_ok {x : Except ApiError α} :
    (ofExcept x).run w = .ok (.ok a) w' ↔ x = .ok a ∧ w' = w := by
  rw [run_ofExcept]
  constructor
  · rintro h
    cases h
    exact ⟨rfl, rfl⟩
  · rintro ⟨rfl, rfl⟩
    rfl

/-- After reading, the next attempt goes on in the same world. -/
theorem run_read_bind (f : World → Except ApiError α) (next : α → Attempt β) (w : World) :
    (read f >>= next).run w =
      match f w with
      | .ok a => (next a).run w
      | .error e => .ok (.error e) w := by
  rw [run_bind, run_read]
  cases f w <;> rfl

/-- An operation that cannot be refused is an attempt that is not. -/
theorem run_lift (operation : Host α) (w : World) :
    (monadLift operation : Attempt α).run w =
      match operation w with
      | .ok a w' => .ok (.ok a) w'
      | .error fault w' => .error fault w' := by
  show (operation >>= fun a => _) w = _
  rw [Host.run_bind]
  rfl

/-- An operation that answered is an attempt that answered. -/
theorem run_lift_ok {operation : Host α} (h : operation w = .ok a w') :
    (monadLift operation : Attempt α).run w = .ok (.ok a) w' := by
  rw [run_lift, h]

/-- Changing the world is an attempt that is not refused. -/
theorem run_modifyGet (f : World → α × World) (w : World) :
    (modifyGet f : Attempt α).run w = .ok (.ok (f w).1) (f w).2 := rfl

/-- Seeing the world is an attempt that is not refused. -/
theorem run_get (w : World) : (get : Attempt World).run w = .ok (.ok w) w := rfl

/-- A refusal is handled where it happened. -/
theorem run_tryCatch (attempt : Attempt α) (handle : ApiError → Attempt α) (w : World) :
    (tryCatch attempt handle).run w =
      match attempt.run w with
      | .ok (.ok a) w' => .ok (.ok a) w'
      | .ok (.error e) w' => (handle e).run w'
      | .error fault w' => .error fault w' := by
  show (attempt.run >>= fun x => _) w = _
  rw [Host.run_bind]
  cases attempt.run w with
  | ok x w' => cases x <;> rfl
  | error fault w' => rfl

/-! ### References that are used up -/

/-- A reference is kept if the attempt that may use it up succeeds. -/
theorem run_consuming_ok {r : Ref} (h : attempt.run w = .ok (.ok a) w') :
    (consuming r attempt).run w = .ok (.ok a) w' := by
  rw [consuming, run_tryCatch, h]

/-- A reference is released if the attempt that may use it up is refused. -/
theorem run_consuming_error {r : Ref} {w'' : World} (h : attempt.run w = .ok (.error e) w')
    (hrelease : World.release r w' = .ok () w'') :
    (consuming r attempt).run w = .ok (.error e) w'' := by
  have hcatch : (do Host.release r; throw e : Attempt α).run w' = .ok (.error e) w'' := by
    have hfirst : (monadLift (Host.release r) : Attempt Unit).run w' = .ok (.ok ()) w'' :=
      run_lift_ok hrelease
    exact run_bind_ok hfirst _
  rw [consuming, run_tryCatch, h]
  exact hcatch

/-- An attempt that uses up a reference and is not refused is the attempt alone. -/
theorem run_of_consuming {r : Ref} {answer : α}
    (hrun : (consuming r attempt).run w = .ok (.ok answer) w') :
    attempt.run w = .ok (.ok answer) w' := by
  rw [consuming, run_tryCatch] at hrun
  cases hfirst : attempt.run w with
  | error fault w₁ =>
    rw [hfirst] at hrun
    cases hrun
  | ok found w₁ =>
    rw [hfirst] at hrun
    cases found with
    | ok found => exact hrun
    | error e =>
      -- what is done about a refusal ends in a refusal
      have hlast : (monadLift (Host.release r) >>= fun _ => throw e : Attempt α).run w₁ =
          .ok (.ok answer) w' := hrun
      rw [run_bind, run_lift] at hlast
      cases hrelease : Host.release r w₁ with
      | ok u w₂ =>
        rw [hrelease] at hlast
        cases hlast
      | error fault w₂ =>
        rw [hrelease] at hlast
        cases hlast

end Attempt

end ExtensionHost
