import ExtensionHost.Boundary.Exports
import ExtensionHost.Boundary.Methods
import ExtensionHost.Proofs.Argument.Build
import ExtensionHost.Proofs.Boundary.Arguments
import ExtensionHost.Proofs.Box.GrowList
import ExtensionHost.Proofs.Method.Call

/-!
# `ExtensionHost.Proofs.Boundary.Ownership`: references that cross the boundary

A function of the boundary answers a refusal with a value, so its caller cannot
tell from the answer alone what became of a reference. The rule is the same for
all of them. A function that makes something hands out a reference with the
pointer that it answers, and a null pointer comes with none. A function that
puts an item into a container takes over the reference to the item, whatever
the answer. Every other function takes and gives none.

`Export.Accounted` says this by the kind of function, and
`accounted_of_mem_exports` of every function that has a name.
-/

set_option autoImplicit false

namespace ExtensionHost

namespace Boundary

open World Box Argument

variable {α : Type} {borrows : List Ref} {takes : Multiset Ref}

/-! ### How refusals are answered -/

/-- Reporting a refusal takes and gives no reference. -/
theorem accounts_reporting {attempt : Attempt α} {gives : α → Multiset Ref} {failure : α}
    (h : Accounts borrows takes attempt.run (unlessRefused gives)) (entry : String)
    (hfailure : gives failure = 0) :
    Accounts borrows takes (reporting entry failure attempt) gives := by
  intro w kept hsound halive
  obtain ⟨result, w', hrun, hsound'⟩ := h w kept hsound halive
  have hreporting := run_reporting entry failure attempt w
  rw [hrun] at hreporting
  cases result with
  | ok a => exact ⟨a, w', hreporting, hsound'⟩
  | error e =>
    refine ⟨failure, _, hreporting, Sound.report ?_ _⟩
    rw [hfailure]
    exact hsound'

/-- A null pointer comes with no reference. -/
theorem accounts_newReference {attempt : Attempt Ref}
    (h : Accounts borrows takes attempt.run gained)
    (entry : String) : Accounts borrows takes (newReference entry attempt) handed := by
  rw [← unlessRefused_singleton] at h
  exact accounts_reporting (h.answer some fun _ => rfl) entry rfl

/-- An operation that answers with a status gives no reference. -/
theorem accounts_status {attempt : Attempt Unit}
    (h : Accounts borrows takes attempt.run fun _ => 0) (entry : String) :
    Accounts borrows takes (status entry attempt) fun _ => 0 := by
  have h : Accounts borrows takes attempt.run (unlessRefused fun _ => 0) :=
    h.give fun result => (unlessRefused_zero result).symm
  exact accounts_reporting (h.answer (fun _ => 0) fun _ => rfl) entry rfl

/-- What is only looked at may be reported as refused. -/
theorem accounts_looking {attempt : Attempt α} (h : Looks attempt.run) (entry : String)
    (failure : α) : Accounts [] 0 (reporting entry failure attempt) fun _ => 0 :=
  accounts_reporting (h.accounts.give fun result => (unlessRefused_zero result).symm) entry rfl

/-- Reading through a pointer is looking. -/
theorem looks_readFrom (pointer : Pointer) (f : World → Ref → Except ApiError α) :
    Looks (readFrom pointer f).run := Looks.read _

/-- Testing through a pointer is looking. -/
theorem looks_test (pointer : Pointer) (f : World → Ref → Bool) : Looks (test pointer f) := by
  cases pointer with
  | none => exact .ret _
  | some r => exact .bind .gets fun _ => .ret _

/-- A look whose result is stored in an output takes and gives no reference. -/
theorem accounts_checked {attempt : Attempt α} (h : Looks attempt.run) (entry : String)
    (output : Option α) : Accounts [] 0 (checked entry output attempt) fun _ => 0 := by
  have hfirst := accounts_looking (h.attempt_bind fun a => .attempt_ret (some a)) entry none
  refine hfirst.bind fun found => ?_
  cases found with
  | none => exact (Looks.ret _).accounts
  | some a => exact (Looks.ret _).accounts

/-! ### Numbers and texts -/

/-- A boxed integer is one reference to the caller. -/
theorem accounts_boxInteger (entry : String) (v : Int) :
    Accounts [] 0 (newReference entry (newInteger v)) handed :=
  accounts_newReference (gives_newIntegerOf .int nofun v []).accounts entry

/-- Converting to a native integer takes and gives no reference. -/
theorem accounts_asNative (entry : String) (target : NativeInt) (failure : Int)
    (pointer : Pointer) :
    Accounts [] 0 (asNative entry target failure pointer) fun _ => 0 :=
  accounts_looking (looks_readFrom pointer _) entry failure

/-- Storing a native integer takes and gives no reference. -/
theorem accounts_asNativeChecked (entry : String) (target : NativeInt) (pointer : Pointer)
    (output : Option Int) :
    Accounts [] 0 (asNativeChecked entry target pointer output) fun _ => 0 :=
  accounts_checked (looks_readFrom pointer _) entry output

/-- A truth value is answered with a reference of its own. -/
theorem accounts_boolFromLong (v : Int) : Accounts [] 0 (boolFromLong v) handed :=
  (accounts_newBool (v ≠ 0)).map some fun _ => rfl

/-- A boxed text is one reference to the caller. -/
theorem accounts_textFromPointer (text : RawText) :
    Accounts [] 0 (textFromPointer text) handed := by
  refine accounts_newReference ?_ _
  cases text with
  | none => exact (Gives.throw [] .nullReference).accounts
  | some bytes =>
    show Accounts [] 0 (newTextOfBytes .str bytes).run gained
    unfold newTextOfBytes
    split
    · exact (gives_newTextOf .str nofun _ []).accounts
    · exact (Gives.throw [] .invalidUtf8).accounts

/-! ### Containers -/

/-- A new tuple is one reference to the caller. -/
theorem accounts_tupleNew (length : Int) : Accounts [] 0 (tupleNew length) handed := by
  refine accounts_newReference ?_ _
  refine .after_check _ fun n _ => ?_
  exact accounts_of_creates (creates_newTuple n)

/-- A new list is one reference to the caller. -/
theorem accounts_listNew (length : Int) : Accounts [] 0 (listNew length) handed := by
  refine accounts_newReference ?_ _
  refine .after_check _ fun n _ => ?_
  exact accounts_newListOf rfl n

/-- A slot that is read gives no reference. -/
theorem accounts_getItem (entry : String) (length : World → Ref → Except ApiError Nat)
    (item : World → Ref → Nat → Except ApiError Ref) (container : Pointer) (index : Int) :
    Accounts [] 0 (newReference entry (getItem length item container index)) fun _ => 0 := by
  refine accounts_looking ?_ entry none
  exact Looks.attempt_bind (looks_readFrom container _) fun r => .attempt_ret (some r)

/-- A null pointer is no item, and any other item is used up. -/
theorem accounts_deref {next : Ref → Attempt Unit} (item : Pointer)
    (h : ∀ r, Accounts [] {r} (next r).run fun _ => 0) :
    Accounts [] (handed item) (Attempt.ofExcept (deref item) >>= next).run fun _ => 0 := by
  cases item with
  | none => exact (Looks.read fun _ => .error .nullReference).accounts
  | some r => exact h r

/-- Setting an item takes the reference over even if the pointer or the index is wrong. -/
theorem accounts_setItem (entry : String) {set : Ref → Nat → Ref → Attempt Unit}
    (hset : ∀ r index item, Accounts [] {item} (set r index item).run fun _ => 0)
    (length : World → Ref → Except ApiError Nat) (container : Pointer) (index : Int)
    (item : Pointer) :
    Accounts [] (handed item) (status entry (setItem length set container index item))
      fun _ => 0 := by
  refine accounts_status (accounts_deref item fun r => ?_) entry
  have hchecks : Looks (do
      let container ← Attempt.ofExcept (deref container)
      let length ← Attempt.read (length · container)
      let index ← Attempt.ofExcept (containerIndex index length)
      return (container, index) : Attempt (Ref × Nat)).run :=
    Looks.attempt_bind (.check _) fun container => Looks.attempt_bind (.read _) fun n =>
      Looks.attempt_bind (.check _) fun i => .attempt_ret (container, i)
  have hlast := Accounts.attempt_bind (hchecks.consuming r) fun place =>
    (hset place.1 place.2 r).give fun result => (unlessRefused_zero result).symm
  exact hlast.give unlessRefused_zero

/-- Appending an item takes the reference over even if the pointer is wrong. -/
theorem accounts_listAppend (list item : Pointer) :
    Accounts [] (handed item) (listAppend list item) fun _ => 0 := by
  refine accounts_status (accounts_deref item fun r => ?_) _
  have hlast := Accounts.attempt_bind ((Looks.check (deref list)).consuming r) fun found =>
    (accounts_appendItem found r).give fun result => (unlessRefused_zero result).symm
  exact hlast.give unlessRefused_zero

/-! ### Arguments -/

/-- A parse changes no object. -/
theorem ParseOutcome.accounts {operation : Host (Int × List Output)} {entry : String}
    {slots : SlotArray Output} {accepts : World → List FormatCode → (Nat → Option Ref) → Prop}
    {refuses : World → ApiError → Prop}
    (h : ∀ w, ParseOutcome w entry slots (accepts w) (refuses w) (operation w)) :
    Accounts [] 0 operation fun _ => 0 := by
  intro w kept hsound _
  have houtcome := h w
  generalize operation w = outcome at houtcome
  cases houtcome with
  | stored => exact ⟨_, _, rfl, hsound.report _⟩
  | refused _ hdepart =>
    refine ⟨_, _, rfl, Sound.report ?_ _⟩
    rcases hdepart with rfl | ⟨event, rfl⟩
    · exact hsound.report _
    · exact (hsound.report _).report _

/-- Taking arguments apart gives the caller no reference to them. -/
theorem accounts_parseTuple (arguments : Pointer) (format : RawText) (slots : SlotArray Output) :
    Accounts [] 0 (parseTuple arguments format slots) fun _ => 0 :=
  ParseOutcome.accounts fun w => parseTuple_outcome w arguments format slots

/-- Taking arguments apart with names gives the caller no reference to them either. -/
theorem accounts_parseTupleAndKeywords (arguments keywords : Pointer) (format : RawText)
    (names : Option (List ByteArray)) (slots : SlotArray Output) :
    Accounts [] 0 (parseTupleAndKeywords arguments keywords format names slots) fun _ => 0 :=
  ParseOutcome.accounts fun w =>
    parseTupleAndKeywords_outcome w arguments keywords format names slots

/-- The object that a value points to, if it points to one. -/
def pointee? : RawValue → Option Ref
  | .object pointer => pointer
  | .native value => referent? value
  | .text _ | .unknown _ => none

/-- The objects that the values in a slot array point to. -/
def pointees : SlotArray RawValue → List Ref
  | .slots values => values.filterMap pointee?
  | .null _ => []

/-- A value is decoded to one that refers to the same object. -/
theorem referent?_of_decode {raw : RawValue} {value : Native} (h : raw.decode = .ok value) :
    referent? value = pointee? raw := by
  -- only an object refers to one, and it is not decoded if its pointer is null
  cases raw with
  | text bytes =>
    cases bytes with
    | none =>
      cases h
      rfl
    | some bytes =>
      simp only [RawValue.decode] at h
      split at h
      · cases h
        rfl
      · cases h
  | native value =>
    cases h
    rfl
  | object pointer =>
    cases pointer with
    | none => cases h
    | some r =>
      cases h
      rfl
  | unknown letter => cases h

/-- The objects among the values are those that the raw values point to. -/
theorem referents_of_decode {raw : List RawValue} {values : List Native}
    (h : raw.mapM RawValue.decode = .ok values) : referents values = pointees (.slots raw) := by
  induction raw generalizing values with
  | nil =>
    cases h
    rfl
  | cons first raw ih =>
    rw [List.mapM_cons] at h
    obtain ⟨value, hvalue, h⟩ := except_bind_eq_ok.1 h
    obtain ⟨rest, hrest, h⟩ := except_bind_eq_ok.1 h
    obtain rfl := Except.ok.inj h
    have htail := ih hrest
    simp only [referents, pointees] at htail ⊢
    rw [List.filterMap_cons, List.filterMap_cons, referent?_of_decode hvalue, htail]

/-- Building borrows what the values point to, and gives one reference. -/
theorem accounts_buildValue (format : RawText) (values : SlotArray RawValue) :
    Accounts (pointees values) 0 (buildValue format values) handed := by
  refine Accounts.after_report (accounts_newReference ?_ _) _
  refine .after_check _ fun text _ => .after_check _ fun raw hraw => ?_
  refine .after_check _ fun decoded hdecoded => ?_
  -- the array that is read holds the values that the foreign code passed
  have hpointees : pointees (.slots raw) = pointees values := by
    cases values with
    | slots xs =>
      cases hraw
      rfl
    | null n =>
      cases n with
      | zero =>
        cases hraw
        rfl
      | succ n => cases hraw
  rw [← hpointees, ← referents_of_decode hdecoded]
  exact accounts_build text decoded

/-! ### Counts, types and sizes -/

/-- Taking a reference needs an object that is there, if the pointer is not null. -/
theorem accounts_retain (pointer : Pointer) :
    Accounts pointer.toList 0 (retain pointer) fun _ => handed pointer := by
  cases pointer with
  | none => exact (Looks.ret ()).accounts
  | some r => exact ExtensionHost.accounts_retain r

/-- Giving up a reference through a null pointer gives up none. -/
theorem accounts_release (pointer : Pointer) :
    Accounts [] (handed pointer) (release pointer) fun _ => 0 := by
  cases pointer with
  | none => exact (Looks.ret ()).accounts
  | some r => exact ExtensionHost.accounts_release r

/-- Asking for a count is looking. -/
theorem looks_refcount (pointer : Pointer) : Looks (refcount pointer) := by
  cases pointer with
  | none => exact .ret _
  | some r => exact .bind .gets fun _ => .ret _

/-- Asking for the name of a type is looking. -/
theorem looks_typeName (pointer : Pointer) : Looks (typeName pointer) := by
  cases pointer with
  | none => exact .ret _
  | some r => exact .bind .gets fun _ => .ret _

/-- Asking for the number of items is looking. -/
theorem looks_itemCount (pointer : Pointer) : Looks (itemCount pointer) := by
  refine .bind .gets fun w => ?_
  cases pointer.bind w.object? with
  | none => exact .ret _
  | some object => exact .ret _

/-! ### All functions that have a name -/

/-- What a function of each kind does with references. -/
def Export.Accounted : Export → Prop
  | .constant _ => True
  | .ofInteger run => ∀ v, Accounts [] 0 (run v) handed
  | .ofReal run => ∀ x, Accounts [] 0 (run x) handed
  | .ofText run => ∀ text, Accounts [] 0 (run text) handed
  | .ofLength run => ∀ length, Accounts [] 0 (run length) handed
  | .toInteger run => ∀ pointer, Accounts [] 0 (run pointer) fun _ => 0
  | .toReal run => ∀ pointer, Accounts [] 0 (run pointer) fun _ => 0
  | .toText run => ∀ pointer, Accounts [] 0 (run pointer) fun _ => 0
  | .test run => ∀ pointer, Accounts [] 0 (run pointer) fun _ => 0
  | .count run => ∀ pointer, Accounts [] 0 (run pointer) fun _ => 0
  | .throughInteger run => ∀ pointer output, Accounts [] 0 (run pointer output) fun _ => 0
  | .throughReal run => ∀ pointer output, Accounts [] 0 (run pointer output) fun _ => 0
  | .getItem run => ∀ container index, Accounts [] 0 (run container index) fun _ => 0
  | .setItem run => ∀ container index item,
      Accounts [] (handed item) (run container index item) fun _ => 0
  | .append run => ∀ list item, Accounts [] (handed item) (run list item) fun _ => 0
  | .retain =>
    ∀ pointer, Accounts pointer.toList 0 (Boundary.retain pointer) fun _ => handed pointer
  | .release => ∀ pointer, Accounts [] (handed pointer) (Boundary.release pointer) fun _ => 0
  | .parse => ∀ arguments format slots,
      Accounts [] 0 (parseTuple arguments format slots) fun _ => 0
  | .parseWithKeywords => ∀ arguments keywords format names slots,
      Accounts [] 0 (parseTupleAndKeywords arguments keywords format names slots) fun _ => 0
  | .build => ∀ format values, Accounts (pointees values) 0 (buildValue format values) handed

/-- Every function that has a name keeps account of references. -/
theorem accounted_of_mem_exports : ∀ function ∈ exports, function.2.Accounted := by
  unfold exports
  simp only [List.forall_mem_cons, List.not_mem_nil, false_imp_iff, implies_true, and_true,
    Export.Accounted, true_and]
  refine ⟨accounts_boxInteger _, accounts_boxInteger _, accounts_boxInteger _,
    accounts_boxInteger _, accounts_boolFromLong, fun x => ?_, accounts_textFromPointer,
    accounts_tupleNew, accounts_listNew, accounts_asNative _ _ _, accounts_asNative _ _ _,
    accounts_asNative _ _ _, accounts_asNative _ _ _, fun pointer => ?_, fun pointer => ?_,
    fun pointer => (looks_itemCount pointer).accounts, fun pointer => ?_, fun pointer => ?_,
    fun pointer => ?_, fun pointer => (looks_test pointer _).accounts,
    fun pointer => (looks_test pointer _).accounts, fun pointer => (looks_test pointer _).accounts,
    fun pointer => (looks_test pointer _).accounts, fun pointer => (looks_test pointer _).accounts,
    fun pointer => (looks_test pointer _).accounts, fun pointer => (looks_test pointer _).accounts,
    fun pointer => (looks_test pointer _).accounts,
    fun pointer => (looks_refcount pointer).accounts,
    accounts_asNativeChecked _ _, accounts_asNativeChecked _ _, accounts_asNativeChecked _ _,
    fun pointer output => accounts_checked (looks_readFrom pointer _) _ output,
    accounts_getItem _ _ _, accounts_getItem _ _ _, accounts_setItem _ accounts_setTupleItem _,
    accounts_setItem _ accounts_setListItem _, accounts_listAppend, accounts_retain,
    accounts_retain, accounts_release, accounts_release, accounts_parseTuple,
    accounts_parseTupleAndKeywords, accounts_buildValue⟩
  · exact accounts_newReference (gives_newRealOf .float nofun x []).accounts _
  · exact accounts_looking ((looks_readFrom pointer _).attempt_bind fun _ => .attempt_ret _) _ _
  · exact accounts_looking ((looks_readFrom pointer _).attempt_bind fun _ => .attempt_ret _) _ _
  · exact accounts_looking (looks_readFrom pointer _) _ _
  · exact accounts_looking ((looks_readFrom pointer _).attempt_bind fun _ => .attempt_ret _) _ _
  · exact ((looks_typeName pointer).bind fun _ => .ret _).accounts

/-! ### Calls -/

/-- Calling a method borrows what it is called with, if its function keeps the contract. -/
theorem accounts_callMethod {descriptor : Option Descriptor}
    (h : ∀ d, descriptor = some d → Method.HonoursDescriptor d)
    (receiver arguments keywords : Pointer) :
    Accounts (receiver.toList ++ arguments.toList ++ keywords.toList) 0
      (callMethod descriptor receiver arguments keywords) handed := by
  refine accounts_newReference ?_ _
  cases descriptor with
  | none => exact (Gives.throw _ .nullReference).accounts
  | some d => exact Method.accounts_callDescriptor (h d rfl) _ _ _

/-- The table is loaded first, and a table that does not load is not called. -/
theorem accounts_callTable {table : Option (List Descriptor)}
    (h : ∀ descriptors, table = some descriptors →
      ∀ descriptor ∈ descriptors, Method.HonoursDescriptor descriptor)
    (name : RawText) (receiver arguments keywords : Pointer) :
    Accounts (receiver.toList ++ arguments.toList ++ keywords.toList) 0
      (callTable table name receiver arguments keywords) handed := by
  refine accounts_newReference ?_ _
  refine .after_check _ fun text _ => ?_
  cases table with
  | none => exact (Gives.throw _ .nullReference).accounts
  | some descriptors =>
    intro w kept hsound halive
    cases hread : MethodTable.readUntilTerminator descriptors with
    | error e =>
      have hload : (MethodTable.load (some descriptors)).run w = .ok (.error e) w := by
        rw [MethodTable.run_load, hread]
      exact ⟨.error e, w, Attempt.run_bind_error hload _, hsound⟩
    | ok methods =>
      have hload : (MethodTable.load (some descriptors)).run w =
          .ok (.ok ⟨methods⟩) (w.report (.tableLoaded methods.length)) := by
        rw [MethodTable.run_load, hread]
      have hcall := MethodTable.accounts_call
        (MethodTable.honours_of_read hread (h descriptors rfl)) text receiver arguments keywords
      obtain ⟨result, w', hrun, hsound'⟩ := hcall _ kept (hsound.report _) halive
      exact ⟨result, w', (Attempt.run_bind_ok hload _).trans hrun, hsound'⟩

end Boundary

end ExtensionHost
