import ExtensionHost.Proofs.Object.Attempts
import ExtensionHost.Proofs.Object.Create

/-!
# `ExtensionHost.Proofs.Object.Accounts`: operations that keep account of references

An operation of the interface takes some references over from its caller, only
looks at others, and gives references back. `Accounts` states this of an
operation. Whatever else the caller keeps is none of the operation's business,
so the statement holds for all of it: that is what lets operations be put
together.

It also says that the operation ends. A reference released once too often
would show as a fault, so an operation that accounts for what it takes has none.
-/

set_option autoImplicit false

namespace ExtensionHost

open World

/-- Run by a caller that has the references in `takes` and to whom the objects
in `borrows` are there, the operation ends, and the caller has what it `gives`
instead. -/
def Accounts {α : Type} (borrows : List Ref) (takes : Multiset Ref) (operation : Host α)
    (gives : α → Multiset Ref) : Prop :=
  ∀ (w : World) (kept : Multiset Ref), w.Sound (takes + kept) →
    (∀ r ∈ borrows, (w.object? r).isSome) →
    ∃ a w', operation w = .ok a w' ∧ w'.Sound (gives a + kept)

/-- The reference that comes with a pointer, if it points to an object. -/
def handed : Option Ref → Multiset Ref
  | some r => {r}
  | none => 0

/-- An attempt that is refused gives nothing. -/
def unlessRefused {α : Type} (gives : α → Multiset Ref) : Except ApiError α → Multiset Ref
  | .ok a => gives a
  | .error _ => 0

/-- Nothing is given in either case. -/
theorem unlessRefused_zero {α : Type} (result : Except ApiError α) :
    unlessRefused (fun _ => 0) result = 0 := by
  cases result <;> rfl

/-- An attempt gives a reference unless it is refused. -/
theorem unlessRefused_singleton : unlessRefused (fun r => {r}) = gained := by
  funext result
  cases result <;> rfl

namespace Accounts

variable {α β : Type} {borrows : List Ref} {takes : Multiset Ref} {operation : Host α}
  {gives : α → Multiset Ref}

/-- More objects may be there than the operation looks at. -/
theorem borrow_more {borrows' : List Ref} (h : Accounts borrows takes operation gives)
    (hsub : borrows ⊆ borrows') : Accounts borrows' takes operation gives :=
  fun w kept hsound halive => h w kept hsound fun r hr => halive r (hsub hr)

/-- What is given may be said in other words. -/
theorem give {gives' : α → Multiset Ref} (h : Accounts borrows takes operation gives)
    (heq : ∀ a, gives a = gives' a) : Accounts borrows takes operation gives' := by
  intro w kept hsound halive
  obtain ⟨a, w', hrun, hsound'⟩ := h w kept hsound halive
  rw [heq] at hsound'
  exact ⟨a, w', hrun, hsound'⟩

/-- The last step has nothing to do with references. -/
theorem map {gives' : β → Multiset Ref} (h : Accounts borrows takes operation gives) (f : α → β)
    (heq : ∀ a, gives a = gives' (f a)) : Accounts borrows takes (f <$> operation) gives' := by
  intro w kept hsound halive
  obtain ⟨a, w', hrun, hsound'⟩ := h w kept hsound halive
  rw [heq] at hsound'
  refine ⟨f a, w', ?_, hsound'⟩
  show (operation >>= fun a => pure (f a)) w = _
  rw [Host.run_bind_ok hrun]
  rfl

/-- What the first operation gives the second one may take. -/
theorem bind {gives' : β → Multiset Ref} (h : Accounts borrows takes operation gives)
    {next : α → Host β} (hnext : ∀ a, Accounts [] (gives a) (next a) gives') :
    Accounts borrows takes (operation >>= next) gives' := by
  intro w kept hsound halive
  obtain ⟨a, w₁, hrun₁, hsound₁⟩ := h w kept hsound halive
  obtain ⟨b, w₂, hrun₂, hsound₂⟩ := hnext a w₁ kept hsound₁ nofun
  exact ⟨b, w₂, (Host.run_bind_ok hrun₁ next).trans hrun₂, hsound₂⟩

/-- An event comes before the operation. -/
theorem after_report (h : Accounts borrows takes operation gives) (event : Event) :
    Accounts borrows takes (Host.report event >>= fun _ => operation) gives := by
  intro w kept hsound halive
  obtain ⟨a, w', hrun, hsound'⟩ := h (w.report event) kept (hsound.report event) halive
  exact ⟨a, w', hrun, hsound'⟩

/-! ### Attempts -/

variable {attempt : Attempt α}

/-- The answer of an attempt is passed on in another form. -/
theorem answer {gives' : β → Multiset Ref}
    (h : Accounts borrows takes attempt.run (unlessRefused gives)) (f : α → β)
    (heq : ∀ a, gives a = gives' (f a)) :
    Accounts borrows takes (do return f (← attempt) : Attempt β).run (unlessRefused gives') := by
  intro w kept hsound halive
  obtain ⟨result, w', hrun, hsound'⟩ := h w kept hsound halive
  cases result with
  | error e => exact ⟨.error e, w', Attempt.run_bind_error hrun _, hsound'⟩
  | ok a =>
    rw [unlessRefused, heq] at hsound'
    exact ⟨.ok (f a), w', Attempt.run_bind_ok hrun _, hsound'⟩

/-- What the first attempt gives the second one may take. -/
theorem attempt_bind {gives' : β → Multiset Ref}
    (h : Accounts borrows takes attempt.run (unlessRefused gives)) {next : α → Attempt β}
    (hnext : ∀ a, Accounts [] (gives a) (next a).run (unlessRefused gives')) :
    Accounts borrows takes (attempt >>= next).run (unlessRefused gives') := by
  intro w kept hsound halive
  obtain ⟨result, w₁, hrun₁, hsound₁⟩ := h w kept hsound halive
  cases result with
  | error e => exact ⟨.error e, w₁, Attempt.run_bind_error hrun₁ _, hsound₁⟩
  | ok a =>
    obtain ⟨result, w₂, hrun₂, hsound₂⟩ := hnext a w₁ kept hsound₁ nofun
    exact ⟨result, w₂, (Attempt.run_bind_ok hrun₁ next).trans hrun₂, hsound₂⟩

/-- What can be checked without the world is checked before anything else. -/
theorem after_check (x : Except ApiError α) {next : α → Attempt Ref}
    (h : ∀ a, x = .ok a → Accounts borrows 0 (next a).run gained) :
    Accounts borrows 0 (Attempt.ofExcept x >>= next).run gained := by
  intro w kept hsound halive
  cases x with
  | error e => exact ⟨.error e, w, rfl, hsound⟩
  | ok a =>
    obtain ⟨result, w', hrun, hsound'⟩ := h a rfl w kept hsound halive
    exact ⟨result, w', hrun, hsound'⟩

end Accounts

variable {α β : Type}

/-! ### Operations that only look -/

/-- The operation changes nothing. -/
def Looks (operation : Host α) : Prop := ∀ w, ∃ a, operation w = .ok a w

namespace Looks

variable {operation : Host α} {attempt : Attempt α}

/-- Looking takes and gives no reference. -/
theorem accounts (h : Looks operation) : Accounts [] 0 operation fun _ => 0 := by
  intro w _ hsound _
  obtain ⟨a, hrun⟩ := h w
  exact ⟨a, w, hrun, hsound⟩

/-- Answering is looking. -/
theorem ret (a : α) : Looks (pure a : Host α) := fun w => ⟨a, Host.run_pure a w⟩

/-- Two looks are one. -/
theorem bind (h : Looks operation) {next : α → Host β} (hnext : ∀ a, Looks (next a)) :
    Looks (operation >>= next) := by
  intro w
  obtain ⟨a, hrun⟩ := h w
  obtain ⟨b, hrun'⟩ := hnext a w
  exact ⟨b, (Host.run_bind_ok hrun next).trans hrun'⟩

/-- Seeing the whole world is looking. -/
theorem gets : Looks (get : Host World) := fun w => ⟨w, Host.run_get w⟩

/-- Reading is looking. -/
theorem read (f : World → Except ApiError α) : Looks (Attempt.read f).run :=
  fun w => ⟨f w, Attempt.run_read f w⟩

/-- Checking what is known is looking. -/
theorem check (x : Except ApiError α) : Looks (Attempt.ofExcept x).run :=
  fun w => ⟨x, Attempt.run_ofExcept x w⟩

/-- Answering without a refusal is looking. -/
theorem attempt_ret (a : α) : Looks (pure a : Attempt α).run :=
  fun w => ⟨.ok a, Attempt.run_pure a w⟩

/-- Two looks that may be refused are one. -/
theorem attempt_bind (h : Looks attempt.run) {next : α → Attempt β}
    (hnext : ∀ a, Looks (next a).run) : Looks (attempt >>= next).run := by
  intro w
  obtain ⟨result, hrun⟩ := h w
  cases result with
  | error e => exact ⟨.error e, Attempt.run_bind_error hrun _⟩
  | ok a =>
    obtain ⟨result, hrun'⟩ := hnext a w
    exact ⟨result, (Attempt.run_bind_ok hrun next).trans hrun'⟩

/-- A reference that is to be used up is released when the look is refused. -/
theorem consuming (h : Looks attempt.run) (r : Ref) :
    Accounts [] {r} (Attempt.consuming r attempt).run (unlessRefused fun _ => {r}) := by
  intro w kept hsound _
  obtain ⟨result, hrun⟩ := h w
  cases result with
  | ok a => exact ⟨.ok a, w, Attempt.run_consuming_ok hrun, hsound⟩
  | error e =>
    rw [Multiset.singleton_add] at hsound
    obtain ⟨ended, w', hrelease, hsound', -⟩ := hsound.release
    refine ⟨.error e, w', Attempt.run_consuming_error hrun hrelease, ?_⟩
    rw [unlessRefused, zero_add]
    exact hsound'

end Looks

/-! ### Single references -/

/-- A reference that the caller has is answered. -/
theorem accounts_answer (pointer : Option Ref) :
    Accounts [] (handed pointer) (pure pointer) handed :=
  fun w _ hsound _ => ⟨pointer, w, rfl, hsound⟩

/-- A reference more to an object that is there. -/
theorem accounts_retain (r : Ref) : Accounts [r] 0 (Host.retain r) fun _ => {r} := by
  intro w kept hsound halive
  rw [zero_add] at hsound
  refine ⟨(), w.retain r, rfl, ?_⟩
  rw [Multiset.singleton_add]
  exact hsound.retain (halive r (List.mem_singleton_self r))

/-- A reference less. -/
theorem accounts_release (r : Ref) : Accounts [] {r} (Host.release r) fun _ => 0 := by
  intro w kept hsound _
  rw [Multiset.singleton_add] at hsound
  obtain ⟨ended, w', hrun, hsound', -⟩ := hsound.release
  refine ⟨(), w', hrun, ?_⟩
  rw [zero_add]
  exact hsound'

end ExtensionHost
