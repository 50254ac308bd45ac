import ExtensionHost.Argument.Build
import ExtensionHost.Proofs.Box.Boxing

/-!
# `ExtensionHost.Proofs.Argument.Build`: references that a format puts together

The tuple of a group is made before its members, and each member is put into
its slot when it is there. Storage may run out at any member. The tuple is
released then, and with it the members it already has; the one that could not
be made needs no release.

While a group is put together nothing that was there goes: every slot that is
filled was empty, so filling it releases nothing. That is why the objects that
the values refer to are still there when their turn comes.
-/

set_option autoImplicit false

namespace ExtensionHost

namespace Argument

open World Box

variable {w w' : World} {r : Ref} {owned : Multiset Ref}

/-- The object that a native value refers to, if it refers to one. -/
def referent? : Native → Option Ref
  | .object pointer => pointer
  | _ => none

/-- The objects that native values refer to. -/
def referents (values : List Native) : List Ref := values.filterMap referent?

/-- Boxing a value gives one reference, and a reference that stands for an object is
taken from a borrowed one. -/
theorem gives_boxNative (value : Native) : Gives (referents [value]) (boxNative value) := by
  cases value with
  | text value =>
    cases value with
    | none => exact gives_newNone _
    | some text => exact gives_newTextOf .str nofun text _
  | int v | long v | longLong v => exact gives_newIntegerOf .int nofun v _
  | double x => exact gives_newRealOf .float nofun x _
  | float x => exact gives_newRealOf .float nofun x.widen _
  | object pointer =>
    cases pointer with
    | none => exact Gives.throw _ _
    | some r => exact gives_retain r

/-- The objects that values refer to are there. -/
def Present (w : World) (values : List Native) : Prop :=
  ∀ r ∈ referents values, (w.object? r).isSome

/-- If the objects of all values are there, so are those of some. -/
theorem Present.of_subset {values rest : List Native} (h : Present w values)
    (hrest : rest ⊆ values) :
    Present w rest := by
  intro r hr
  obtain ⟨value, hvalue, hpointer⟩ := List.mem_filterMap.1 hr
  exact h r (List.mem_filterMap.2 ⟨value, hrest hvalue, hpointer⟩)

/-- Objects that are made later do not take away those that values refer to. -/
theorem Present.grows {values : List Native} {filled : List Ref} (h : Present w values)
    (hgrows : w.Grows filled w') : Present w' values :=
  fun r hr => hgrows.isSome (h r hr)

/-- What building an item leaves: the caller has a reference to it, or it was
refused and nothing of it is left. -/
structure Built (w : World) (values : List Native) (owned : Multiset Ref)
    (result : Except ApiError (Ref × List Native)) (w' : World) : Prop where
  sound : w'.Sound (gained (result.map Prod.fst) + owned)
  grows : ∀ member rest, result = .ok (member, rest) → rest ⊆ values ∧ w.Grows [] w'

/-- A code takes the first value and gives one box. -/
theorem built_code (values : List Native) (h : w.Sound owned) (hpresent : Present w values) :
    ∃ result w', (buildCode values).run w = .ok result w' ∧ Built w values owned result w' := by
  cases values with
  | nil =>
    exact ⟨.error (.arity 1 1 0), w, rfl, h.refused _, nofun⟩
  | cons value rest =>
    obtain ⟨result, w₁, hrun₁, hsound₁, hgrows₁⟩ := gives_boxNative value w owned h
      (hpresent.of_subset (List.cons_subset_cons value (List.nil_subset rest)))
    cases result with
    | error e => exact ⟨.error e, w₁, Attempt.run_bind_error hrun₁ _, hsound₁, nofun⟩
    | ok member =>
      refine ⟨.ok (member, rest), w₁, Attempt.run_bind_ok hrun₁ _, hsound₁, fun _ _ heq => ?_⟩
      cases heq
      exact ⟨List.subset_cons_self value rest, hgrows₁⟩

/-- The slots of a tuple from `index` on are empty. -/
structure Vacant (w : World) (r : Ref) (index length : Nat) : Prop where
  tuple : IsTuple w r length
  empty : ∀ i, index ≤ i → i < length → (w.slots r)[i]? = some none

/-- What putting members into a tuple leaves. -/
structure Placed (w : World) (r : Ref) (values : List Native) (owned : Multiset Ref)
    (result : Except ApiError (List Native)) (w' : World) : Prop where
  sound : w'.Sound (r ::ₘ owned)
  grows : ∀ rest, result = .ok rest → rest ⊆ values ∧ w.Grows [r] w'

/-- A new tuple has nothing in its slots. -/
theorem vacant_of_empty {object : Object} {length : Nat} (hobject : w.object? r = some object)
    (hsub : object.type.isSubtypeOf .tuple = true) (hbody : object.body = .tuple length)
    (hempty : ∀ slot ∈ w.slots r, slot = none) : Vacant w r 0 length := by
  refine ⟨⟨object, tupleObject_eq_ok.2 ⟨hobject, hsub, hbody⟩⟩, fun i _ hi => ?_⟩
  have hlength : (w.slots r).length = length := by
    rw [slots_of_object? hobject, slotsOf, slotTable, hbody, List.length_map, List.length_range]
  have hlt : i < (w.slots r).length := by
    rw [hlength]
    exact hi
  rw [List.getElem?_eq_getElem hlt, hempty _ (List.getElem_mem hlt)]

/-- What happens elsewhere leaves the slots of a tuple empty. -/
theorem Vacant.grows {index length : Nat} (h : Vacant w r index length) (hgrows : w.Grows [] w') :
    Vacant w' r index length := by
  obtain ⟨object, htuple⟩ := h.tuple
  obtain ⟨hobject, hsub, hbody⟩ := tupleObject_eq_ok.1 htuple
  obtain ⟨count, hobject'⟩ := hgrows.stays r object hobject
  refine ⟨⟨_, tupleObject_eq_ok.2 ⟨hobject', hsub, hbody⟩⟩, ?_⟩
  rw [hgrows.slots r object hobject List.not_mem_nil]
  exact h.empty

/-- An item is put into the first of the empty slots. -/
theorem Vacant.setTupleItem {index length : Nat} {member : Ref} (h : Vacant w r index length)
    (hindex : index < length) (hsound : w.Sound (member ::ₘ r ::ₘ owned)) :
    ∃ w', (setTupleItem r index member).run w = .ok (.ok ()) w' ∧ w'.Sound (r ::ₘ owned) ∧
      w.Grows [r] w' ∧ Vacant w' r (index + 1) length ∧
      w'.slots r = (w.slots r).set index (some member) := by
  obtain ⟨object, htuple⟩ := h.tuple
  obtain ⟨result, w', hrun, hsound', hkeeps, -, hset⟩ := setTupleItem_spec hsound r index
  obtain ⟨rfl, hfilled⟩ := hset object length htuple hindex
  obtain ⟨hgrows, hslots⟩ := hfilled.grows (h.empty index (Nat.le_refl _) hindex)
  refine ⟨w', hrun, hsound', hgrows, ⟨?_, fun i hle hi => ?_⟩, hslots⟩
  · exact h.tuple.of_keeps hkeeps hsound' (Multiset.mem_cons_self r owned)
  · rw [hslots, List.getElem?_set_ne (Nat.ne_of_lt hle)]
    exact h.empty i (Nat.le_of_succ_le hle) hi

mutual

/-- Every item gives one reference, or is refused without a trace. -/
theorem buildItem_spec : (item : BuildItem) → (values : List Native) → (w : World) →
    (owned : Multiset Ref) → w.Sound owned → Present w values →
    ∃ result w', (buildItem item values).run w = .ok result w' ∧ Built w values owned result w'
  | .code _, values, w, owned, h, hpresent => by
    rw [buildItem]
    exact built_code values h hpresent
  | .group items, values, w, owned, h, hpresent => by
    obtain ⟨made, w₁, hrun₁, hsound₁, hgrows₁, hmade⟩ := creates_newTuple items.length w owned h
    rw [buildItem]
    cases made with
    | error e => exact ⟨.error e, w₁, Attempt.run_bind_error hrun₁ _, hsound₁, nofun⟩
    | ok r =>
      obtain ⟨hnew, ⟨home, hobject⟩, hempty⟩ := hmade r rfl
      rw [gained_ok] at hsound₁
      obtain ⟨result, w₂, hrun₂, hplaced⟩ :=
        buildMembers_spec items r 0 items.length values w₁ owned
        hsound₁ (vacant_of_empty hobject rfl rfl hempty) (by omega) (hpresent.grows hgrows₁)
      rw [Attempt.run_bind_ok hrun₁]
      cases result with
      | error e =>
        -- the tuple goes with the members that are in it
        obtain ⟨ended, w₃, hrelease, hsound₃, -⟩ := hplaced.sound.release
        exact ⟨.error e, w₃, Attempt.run_consuming_error (Attempt.run_bind_error hrun₂ _) hrelease,
          hsound₃.refused e, nofun⟩
      | ok rest =>
        obtain ⟨hrest, hgrows₂⟩ := hplaced.grows rest rfl
        refine ⟨.ok (r, rest), w₂, Attempt.run_consuming_ok (Attempt.run_bind_ok hrun₂ _),
          hplaced.sound, fun _ _ heq => ?_⟩
        cases heq
        exact ⟨hrest, hgrows₁.trans_fresh hnew hgrows₂⟩

/-- The members are put into the slots one after the other. -/
theorem buildMembers_spec : (items : List BuildItem) → (r : Ref) → (index length : Nat) →
    (values : List Native) → (w : World) → (owned : Multiset Ref) → w.Sound (r ::ₘ owned) →
    Vacant w r index length → index + items.length ≤ length → Present w values →
    ∃ result w', (buildMembers r index items values).run w = .ok result w' ∧
      Placed w r values owned result w'
  | [], r, index, length, values, w, owned, h, _, _, _ => by
    refine ⟨.ok values, w, ?_, h, fun _ heq => ?_⟩
    · rw [buildMembers, Attempt.run_pure]
    · cases heq
      exact ⟨List.Subset.refl _, .refl w [r]⟩
  | item :: items, r, index, length, values, w, owned, h, hvacant, hroom, hpresent => by
    rw [List.length_cons] at hroom
    obtain ⟨built, w₁, hrun₁, hbuilt⟩ := buildItem_spec item values w (r ::ₘ owned) h hpresent
    rw [buildMembers]
    cases built with
    | error e =>
      -- what was refused gives nothing, so the tuple is all that is left
      refine ⟨.error e, w₁, Attempt.run_bind_error hrun₁ _, ?_, nofun⟩
      have hsound : w₁.Sound (gained (.error e) + r ::ₘ owned) := hbuilt.sound
      rw [gained_error] at hsound
      exact hsound
    | ok found =>
      obtain ⟨member, rest⟩ := found
      obtain ⟨hrest, hgrows₁⟩ := hbuilt.grows member rest rfl
      obtain ⟨w₂, hrun₂, hsound₂, hgrows₂, hvacant₂, -⟩ :=
        (hvacant.grows hgrows₁).setTupleItem (by omega) hbuilt.sound
      have hpresent₂ := ((hpresent.of_subset hrest).grows hgrows₁).grows hgrows₂
      obtain ⟨result, w₃, hrun₃, hplaced⟩ := buildMembers_spec items r (index + 1) length rest w₂
        owned hsound₂ hvacant₂ (by omega) hpresent₂
      refine ⟨result, w₃, ?_, hplaced.sound, fun left heq => ?_⟩
      · rw [Attempt.run_bind_ok hrun₁, Attempt.run_bind_ok hrun₂]
        exact hrun₃
      · obtain ⟨hleft, hgrows₃⟩ := hplaced.grows left heq
        exact ⟨fun _ hmem => hrest (hleft hmem),
          ((hgrows₁.mono (List.nil_subset _)).trans hgrows₂).trans hgrows₃⟩

end

/-- A built value is one reference, whatever was put into it. -/
theorem build_spec (text : String) (values : List Native) (h : w.Sound owned)
    (hpresent : Present w values) :
    ∃ result w', (build text values).run w = .ok result w' ∧ w'.Sound (gained result + owned) := by
  have hitem : ∀ item, ∃ result w', (do return (← buildItem item values).1 : Attempt Ref).run w =
      .ok result w' ∧ w'.Sound (gained result + owned) := by
    intro item
    obtain ⟨result, w₁, hrun, hbuilt⟩ := buildItem_spec item values w owned h hpresent
    cases result with
    | error e => exact ⟨.error e, w₁, Attempt.run_bind_error hrun _, hbuilt.sound⟩
    | ok found => exact ⟨.ok found.1, w₁, Attempt.run_bind_ok hrun _, hbuilt.sound⟩
  rw [build]
  cases hparse : BuildFormat.parse text with
  | error e =>
    exact ⟨.error e, w, Attempt.run_bind_error (Attempt.run_ofExcept _ w) _, h.refused e⟩
  | ok format =>
    rw [Attempt.run_bind_ok (Attempt.run_ofExcept _ w)]
    cases hcheck : checkValues format values with
    | error e =>
      exact ⟨.error e, w, Attempt.run_bind_error (Attempt.run_ofExcept _ w) _, h.refused e⟩
    | ok u =>
      rw [Attempt.run_bind_ok (Attempt.run_ofExcept _ w)]
      -- no item stands for none, one item for itself, and more of them are a group
      match hitems : format.items with
      | [] =>
        obtain ⟨result, w₁, hrun, hsound, -⟩ := gives_newNone [] w owned h nofun
        exact ⟨result, w₁, hrun, hsound⟩
      | [item] => exact hitem item
      | first :: second :: more => exact hitem (.group (first :: second :: more))

/-- Building borrows the objects among the values and gives the caller one reference to
what was built. -/
theorem accounts_build (text : String) (values : List Native) :
    Accounts (referents values) 0 (build text values).run gained := by
  intro w kept hsound halive
  rw [zero_add] at hsound
  exact build_spec text values hsound halive

end Argument

end ExtensionHost
