import ExtensionHost.Extension.Sample
import ExtensionHost.Proofs.Boundary.Ownership

/-!
# `ExtensionHost.Proofs.Extension.Sample`: the sample functions honour their contract

A function of an extension is written against the boundary, so what it does
with references is the sum of what the functions that it calls do. The order
matters in two of them: `probe` and `wrap` take references to their arguments
after they made something of their own, and what they made must not have cost
the arguments their life. Making something never does.
-/

set_option autoImplicit false

namespace ExtensionHost

namespace Extension

open World Box Method Boundary

variable {w : World} {owned : Multiset Ref}

/-- What an attempt makes, a null pointer if it is refused. -/
theorem made_spec {borrowed : List Ref} {attempt : Attempt Ref} (hgives : Gives borrowed attempt)
    (h : w.Sound owned) (halive : ∀ r ∈ borrowed, (w.object? r).isSome) :
    ∃ pointer w', made attempt w = .ok pointer w' ∧ w'.Sound (handed pointer + owned) ∧
      w.Grows [] w' := by
  obtain ⟨result, w', hrun, hsound, hgrows⟩ := hgives w owned h halive
  cases result with
  | error e => exact ⟨none, w', Host.run_bind_ok hrun _, hsound, hgrows⟩
  | ok r => exact ⟨some r, w', Host.run_bind_ok hrun _, hsound, hgrows⟩

/-- An object that is made for foreign code is answered with a pointer. -/
theorem accounts_made {takes : Multiset Ref} {attempt : Attempt Ref}
    (h : Accounts [] takes attempt.run gained) : Accounts [] takes (made attempt) handed :=
  h.bind fun result => by
    cases result with
    | error e => exact accounts_answer none
    | ok r => exact accounts_answer (some r)

/-! ### Showing the arguments -/

/-- Showing a pointer gives one reference, to the object itself or to a text. -/
theorem shown_spec (h : w.Sound owned) (pointer : Pointer)
    (halive : ∀ r, pointer = some r → (w.object? r).isSome) :
    ∃ answer w', shown pointer w = .ok answer w' ∧ w'.Sound (handed answer + owned) ∧
      w.Grows [] w' := by
  cases pointer with
  | none => exact made_spec (gives_newTextOf .str nofun "NULL" []) h nofun
  | some r => exact ⟨some r, w.retain r, rfl, h.retain (halive r rfl), grows_retain w r []⟩

/-- Each pointer in turn is shown, or what was shown before is given up. -/
theorem shownEach_spec (pointers : List Pointer) (shownBefore : List Ref)
    (h : w.Sound (↑shownBefore + owned)) (halive : Alive w pointers) :
    ∃ answer w', shownEach shownBefore pointers w = .ok answer w' ∧
      w'.Sound (answer.elim 0 (fun items => (items : Multiset Ref)) + owned) := by
  induction pointers generalizing w shownBefore with
  | nil =>
    refine ⟨some shownBefore.reverse, w, rfl, ?_⟩
    rw [Option.elim_some, Multiset.coe_reverse]
    exact h
  | cons pointer rest ih =>
    obtain ⟨answer, w₁, hrun₁, hsound₁, hgrows⟩ :=
      shown_spec h pointer (halive pointer List.mem_cons_self)
    cases answer with
    | none =>
      rw [handed, zero_add, ← Multiset.coe_reverse] at hsound₁
      obtain ⟨w₂, hrun₂, hsound₂⟩ := releaseAll_spec shownBefore.reverse hsound₁
      refine ⟨none, w₂, ?_, by rw [Option.elim_none, zero_add]; exact hsound₂⟩
      exact (Host.run_bind_ok hrun₁ _).trans (Host.run_bind_ok hrun₂ _)
    | some r =>
      rw [handed, Multiset.singleton_add, ← Multiset.cons_add, Multiset.cons_coe] at hsound₁
      have halive₁ : Alive w₁ rest := fun other hother s hs =>
        hgrows.isSome (halive other (List.mem_cons_of_mem _ hother) s hs)
      obtain ⟨answer, w₂, hrun₂, hsound₂⟩ := ih (r :: shownBefore) hsound₁ halive₁
      exact ⟨answer, w₂, (Host.run_bind_ok hrun₁ _).trans hrun₂, hsound₂⟩

/-- The function that shows what it was called with keeps the contract. -/
theorem honours_probe : Honours probe := by
  intro receiver arguments keywords w kept h hborrows
  rw [zero_add] at h
  obtain ⟨answer, w₁, hrun₁, hsound₁⟩ := shownEach_spec [receiver, arguments, keywords] []
    (by rw [Multiset.coe_nil, zero_add]; exact h) (alive_of_borrowed hborrows)
  cases answer with
  | none => exact ⟨none, w₁, Host.run_bind_ok hrun₁ _, hsound₁⟩
  | some items =>
    obtain ⟨pointer, w₂, hrun₂, hsound₂⟩ :=
      accounts_made (accounts_tupleOf items) w₁ kept hsound₁ nofun
    exact ⟨pointer, w₂, (Host.run_bind_ok hrun₁ _).trans hrun₂, hsound₂⟩

/-- The function that fails keeps the contract. -/
theorem honours_fail : Honours fail := fun _ _ _ =>
  (accounts_answer none).borrow_more (List.nil_subset _)

/-! ### Numbers -/

/-- The function that adds keeps the contract. -/
theorem honours_add : Honours add := by
  intro receiver arguments keywords
  refine (Accounts.bind (accounts_parseTuple arguments _ _) fun found => ?_).borrow_more
    (List.nil_subset _)
  rcases found with ⟨success, outputs⟩
  dsimp only
  split
  · exact accounts_boxInteger _ _
  · exact accounts_answer none

/-- The function that scales keeps the contract. -/
theorem honours_scaled : Honours scaled := by
  intro receiver arguments keywords
  refine (Accounts.bind (accounts_parseTupleAndKeywords arguments keywords _ _ _)
    fun found => ?_).borrow_more (List.nil_subset _)
  rcases found with ⟨success, outputs⟩
  dsimp only
  split
  · exact accounts_newReference (gives_newRealOf .float nofun _ []).accounts _
  · exact accounts_answer none

/-- An item of a list is read without a reference to it. -/
theorem accounts_sumItems (list : Pointer) (count index : Nat) (total : Int) :
    Accounts [] 0 (sumItems list count index total) handed := by
  induction count generalizing index total with
  | zero => exact accounts_boxInteger _ _
  | succ count ih =>
    refine Accounts.bind (accounts_getItem _ _ _ list index) fun item => ?_
    cases item with
    | none => exact accounts_answer none
    | some item =>
      refine (looks_test (some item) _).accounts.bind fun isInteger => ?_
      cases isInteger with
      | false => exact (Looks.ret total).accounts.bind fun total => ih (index + 1) total
      | true =>
        refine (accounts_asNative _ _ _ (some item)).bind fun v => ?_
        exact (Looks.ret _).accounts.bind fun total => ih (index + 1) total

/-- The function that sums a list keeps the contract. -/
theorem honours_sumList : Honours sumList := by
  intro receiver argument keywords
  refine (Accounts.bind (looks_test argument _).accounts fun isList => ?_).borrow_more
    (List.nil_subset _)
  cases isList with
  | false => exact accounts_answer none
  | true =>
    have hsize : Accounts [] 0 (listSize argument) fun _ => 0 :=
      accounts_looking ((looks_readFrom argument _).attempt_bind fun _ => .attempt_ret _) _ _
    exact hsize.bind fun size => accounts_sumItems argument size.toNat 0 0

/-! ### Wrapping the argument -/

/-- An empty list is given by an attempt that borrows nothing. -/
theorem gives_newList_zero : Gives [] (newList 0) := by
  intro w owned h _
  have hmakes : Makes TypeObject.list TypeObject.list.basicSize (.list 0 0 none) :=
    ⟨nofun, nofun, fun _ _ _ hbody => by cases hbody; exact ⟨rfl, rfl, rfl, rfl⟩⟩
  obtain ⟨result, w', hrun, hsound, hgrows, -⟩ := creates_new hmakes w owned h
  cases result with
  | error e => exact ⟨.error e, w', Attempt.run_bind_error hrun _, hsound, hgrows⟩
  | ok r => exact ⟨.ok r, w', Attempt.run_bind_ok hrun _, hsound, hgrows⟩

/-- The list takes over the reference to the argument or releases it, and the
list itself goes if it does not take it. -/
theorem honours_wrap : Honours wrap := by
  intro receiver argument keywords w kept h hborrows
  rw [zero_add] at h
  obtain ⟨list, w₁, hrun₁, hsound₁, hgrows⟩ := made_spec gives_newList_zero h nofun
  cases list with
  | none => exact ⟨none, w₁, Host.run_bind_ok hrun₁ _, hsound₁⟩
  | some list =>
    have halive : ∀ r ∈ argument.toList, (w₁.object? r).isSome := fun r hr =>
      hgrows.isSome (hborrows r (by simp only [List.mem_append]; exact .inl (.inr hr)))
    obtain ⟨⟨⟩, w₂, hrun₂, hsound₂⟩ := Boundary.accounts_retain argument w₁ _
      (by rw [zero_add]; exact hsound₁) halive
    obtain ⟨status, w₃, hrun₃, hsound₃⟩ :=
      accounts_listAppend (some list) argument w₂ _ hsound₂ nofun
    rw [zero_add] at hsound₃
    -- appending takes over the reference to the argument whatever its status is
    have hrun : wrap receiver argument keywords w = _ := (Host.run_bind_ok hrun₁ _).trans
      ((Host.run_bind_ok hrun₂ _).trans (Host.run_bind_ok hrun₃ _))
    by_cases hstatus : status = 0
    · refine ⟨some list, w₃, hrun.trans ?_, hsound₃⟩
      rw [if_pos hstatus]
      rfl
    · obtain ⟨⟨⟩, w₄, hrun₄, hsound₄⟩ := Boundary.accounts_release (some list) w₃ kept hsound₃ nofun
      refine ⟨none, w₄, hrun.trans ?_, hsound₄⟩
      rw [if_neg hstatus]
      exact Host.run_bind_ok hrun₄ _

/-- Every sample function honours its contract. -/
theorem honours_of_mem_functions : ∀ function ∈ functions, Honours function.2 := by
  simp only [functions, List.forall_mem_cons, List.not_mem_nil, false_imp_iff, implies_true,
    and_true]
  exact ⟨honours_probe, honours_fail, honours_add, honours_scaled, honours_sumList, honours_wrap⟩

end Extension

end ExtensionHost
