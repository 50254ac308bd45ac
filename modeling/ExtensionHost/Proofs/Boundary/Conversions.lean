import ExtensionHost.Boundary.Exports
import ExtensionHost.Proofs.Boundary.Arguments
import ExtensionHost.Proofs.Upkeep.Contents

/-!
# `ExtensionHost.Proofs.Boundary.Conversions`: native integers of boxes

A box is converted to a native integer in four ways: from the inside, under a
letter of a format, by a function of the boundary that answers the integer, and
by one that stores it in an output. All four come to one decision,
`Converts`, which depends on the object and the native type only. It is made
from the integer in the box, so it is the same for an object of type `int` and
for one of a type derived from it (`TypeObject.Derives`).

An object of such a type is made with an integer in it when its type stands for
what it holds, so all of them have one in every world of a strict run
(`integersHold_of_thread`).

What a function answers when it is refused is the value of its type with all
bits set, which is a value of the type as well. Every other answer says that
the conversion was not refused. `conversions_agree` puts this together, with the
way back: what is boxed from a native type converts to it.
-/

set_option autoImplicit false

namespace ExtensionHost

/-! ### Native types -/

namespace NativeInt

/-- The values of a native type. -/
def Spans : NativeInt → Int → Prop
  | .signedChar, v => -0x80 ≤ v ∧ v ≤ 0x7f
  | .int, v => -0x80000000 ≤ v ∧ v ≤ 0x7fffffff
  | .long, v | .longLong, v | .signedSize, v => -0x8000000000000000 ≤ v ∧ v ≤ 0x7fffffffffffffff
  | .unsignedLong, v | .size, v => 0 ≤ v ∧ v ≤ 0xffffffffffffffff

/-- What the code accepts for a native type is what the type spans. -/
theorem holds_iff_spans {target : NativeInt} {v : Int} :
    target.holds v = true ↔ target.Spans v := by
  rw [holds, Bool.and_eq_true, decide_eq_true_eq, decide_eq_true_eq]
  cases target <;>
    simp only [Spans, greatest, least, negatives, isSigned, cardinality, if_true,
      Bool.false_eq_true,
      if_false] <;> omega

/-- The value that has all bits set. -/
def allOnes : NativeInt → Int
  | .unsignedLong | .size => 0xffffffffffffffff
  | _ => -1

end NativeInt

/-! ### Derived types -/

/-- A type is another one, or derived from one that is. -/
inductive TypeObject.Derives : TypeObject → TypeObject → Prop
  | same {type other : TypeObject} (h : type.identity = other.identity) : Derives type other
  | base {type parent other : TypeObject} (hbase : type.base = some parent)
      (h : Derives parent other) : Derives type other

/-- The search goes on at the base. -/
theorem TypeObject.isSubtypeOf_iff {type other : TypeObject} :
    type.isSubtypeOf other = true ↔
      type.identity = other.identity ∨
        ∃ parent, type.base = some parent ∧ parent.isSubtypeOf other = true := by
  obtain ⟨identity, name, tag, basicSize, itemSize, varSized, base, routine⟩ := type
  cases base with
  | none =>
    rw [isSubtypeOf, Bool.or_eq_true, decide_eq_true_eq]
    exact or_congr Iff.rfl ⟨nofun, fun ⟨_, hbase, _⟩ => nomatch hbase⟩
  | some parent =>
    rw [isSubtypeOf, Bool.or_eq_true, decide_eq_true_eq]
    exact or_congr Iff.rfl
      ⟨fun h => ⟨parent, rfl, h⟩, fun ⟨_, hbase, h⟩ => by cases hbase; exact h⟩

/-- A derived type is a subtype. -/
theorem TypeObject.Derives.isSubtypeOf {type other : TypeObject} (h : type.Derives other) :
    type.isSubtypeOf other = true := by
  induction h with
  | same h => exact isSubtypeOf_iff.2 (.inl h)
  | base hbase _ ih => exact isSubtypeOf_iff.2 (.inr ⟨_, hbase, ih⟩)

/-- A subtype is a derived type, since the code follows the base types upwards. -/
theorem TypeObject.derives_of_isSubtypeOf : (type other : TypeObject) →
    type.isSubtypeOf other = true → type.Derives other
  | mk _ _ _ _ _ _ base _, other, h => by
    rcases isSubtypeOf_iff.1 h with hsame | ⟨parent, hbase, hparent⟩
    · exact .same hsame
    · match base, hbase with
      | some _, rfl => exact .base rfl (derives_of_isSubtypeOf _ other hparent)

/-- Being a subtype is being derived. -/
theorem TypeObject.isSubtypeOf_iff_derives {type other : TypeObject} :
    type.isSubtypeOf other = true ↔ type.Derives other :=
  ⟨derives_of_isSubtypeOf type other, Derives.isSubtypeOf⟩

/-- Truth values are integers, those of an extension type derived from `bool` too. -/
example : TypeObject.myBool.Derives .int := .base rfl (.base rfl (.same rfl))

/-! ### The decision -/

namespace World

/-- An object of type `int`, or of a type derived from it, has an integer in it. -/
def HoldsInteger (w : World) (r : Ref) (v : Int) : Prop :=
  ∃ object, w.object? r = some object ∧ object.type.Derives .int ∧ object.body = .integer v

/-- Every object that is laid out as an integer has one in it. -/
def IntegersHold (w : World) : Prop :=
  ∀ r object, w.object? r = some object → object.type.Derives .int → ∃ v, object.body = .integer v

/-- In a world that was laid out by a strict run every box of an integer type has an integer. -/
theorem LaidOut.integersHold {w : World} (h : w.LaidOut) : w.IntegersHold :=
  fun r object hobject hderives => (h r object hobject).suits.integer hderives.isSubtypeOf

end World

/-- Integers last in every world of a run whose boxes hold what their types stand for. -/
theorem integersHold_of_thread {system : System} {settings : AllocatorSettings} {w : World}
    {owned : Multiset Ref} (h : Thread true system settings w owned) : w.IntegersHold :=
  (laidOut_of_thread h).integersHold

namespace Boundary

open World

variable {w w' : World} {r : Ref} {pointer : Pointer} {target : NativeInt} {v : Int}
  {result : Except ApiError Int} {e : ApiError} {name : String}

/-- What comes of converting what a pointer points to. -/
inductive Converts (w : World) (target : NativeInt) : Pointer → Except ApiError Int → Prop
  | exact {r : Ref} {v : Int} (h : w.HoldsInteger r v) (hspan : target.Spans v) :
      Converts w target (some r) (.ok v)
  | overflow {r : Ref} {v : Int} (h : w.HoldsInteger r v) (hspan : ¬ target.Spans v) :
      Converts w target (some r) (.error (.overflow target.name))
  | mismatch {r : Ref} {object : Object} (hobject : w.object? r = some object)
      (h : ∀ v, ¬ w.HoldsInteger r v) :
      Converts w target (some r) (.error (.typeMismatch "int" object.type.name))
  | gone {r : Ref} (h : w.object? r = none) : Converts w target (some r) (.error .nullReference)
  | null : Converts w target none (.error .nullReference)

/-- An integer is read exactly if the box holds it. -/
theorem integer_eq_ok_iff : Box.integer w r = .ok v ↔ w.HoldsInteger r v := by
  rw [Box.integer_eq_ok]
  simp only [HoldsInteger, TypeObject.isSubtypeOf_iff_derives]

/-- A box with an integer is converted exactly if the native type has the integer. -/
theorem native_of_holdsInteger (h : w.HoldsInteger r v) (target : NativeInt) :
    Box.native w r target =
      if target.holds v then .ok v else .error (.overflow target.name) := by
  rw [Box.native, integer_eq_ok_iff.2 h]
  dsimp only
  rw [NativeInt.convert?]
  cases target.holds v <;> rfl

/-- An object without an integer is of another type. -/
theorem native_of_noInteger {object : Object} (hobject : w.object? r = some object)
    (h : ∀ v, ¬ w.HoldsInteger r v) (target : NativeInt) :
    Box.native w r target = .error (.typeMismatch "int" object.type.name) := by
  have hinteger : Box.integer w r = .error (.typeMismatch "int" object.type.name) := by
    cases hinstance : w.instanceOf r .int with
    | ok found =>
      obtain ⟨hfound, hsub⟩ := Box.instanceOf_eq_ok.1 hinstance
      obtain rfl := Option.some.inj (hfound.symm.trans hobject)
      rw [Box.integer, hinstance]
      cases hbody : found.body with
      | integer v =>
        exact absurd ⟨found, hobject, TypeObject.isSubtypeOf_iff_derives.1 hsub, hbody⟩ (h v)
      | _ => simp only [hbody]; rfl
    | error e =>
      rw [Box.integer, hinstance]
      rw [World.instanceOf, World.object, hobject] at hinstance
      dsimp only at hinstance
      split at hinstance
      · cases hinstance
      · exact congrArg _ (Except.error.inj hinstance).symm
  rw [Box.native, hinteger]

/-- An object that is gone is not converted. -/
theorem native_of_gone (h : w.object? r = none) (target : NativeInt) :
    Box.native w r target = .error .nullReference := by
  rw [Box.native, Box.integer, World.instanceOf, World.object, h]

/-- The decision is what the conversion from the inside comes to. -/
theorem Converts.native_eq (h : Converts w target pointer result) :
    (deref pointer >>= fun r => Box.native w r target) = result := by
  cases h with
  | exact h hspan =>
    exact (native_of_holdsInteger h target).trans (if_pos (NativeInt.holds_iff_spans.2 hspan))
  | overflow h hspan =>
    exact (native_of_holdsInteger h target).trans (if_neg (mt NativeInt.holds_iff_spans.1 hspan))
  | mismatch hobject h => exact native_of_noInteger hobject h target
  | gone h => exact native_of_gone h target
  | null => rfl

/-- There is a decision on every object, and on null. -/
theorem exists_converts (w : World) (target : NativeInt) (pointer : Pointer) :
    ∃ result, Converts w target pointer result := by
  cases pointer with
  | none => exact ⟨_, .null⟩
  | some r =>
    cases hobject : w.object? r with
    | none => exact ⟨_, .gone hobject⟩
    | some object =>
      by_cases hinteger : ∃ v, w.HoldsInteger r v
      · obtain ⟨v, h⟩ := hinteger
        by_cases hspan : target.Spans v
        · exact ⟨_, .exact h hspan⟩
        · exact ⟨_, .overflow h hspan⟩
      · exact ⟨_, .mismatch hobject (not_exists.1 hinteger)⟩

/-- There is one decision at most. -/
theorem Converts.unique {result' : Except ApiError Int} (h : Converts w target pointer result)
    (h' : Converts w target pointer result') : result = result' :=
  h.native_eq.symm.trans h'.native_eq

/-! ### The ways to convert -/

/-- The letters of a format that stand for a native integer, and the values that they
give. -/
inductive Coded : NativeInt → FormatCode → (Int → Native) → Prop
  | int : Coded .int .int .int
  | long : Coded .long .long .long
  | longLong : Coded .longLong .longLong .longLong

/-- The functions that answer the native integer. -/
inductive Answering : NativeInt → String → (Pointer → Host Int) → Prop
  | long : Answering .long "PyLong_AsLong" longAsLong
  | longLong : Answering .longLong "PyLong_AsLongLong" longAsLongLong
  | unsignedLong : Answering .unsignedLong "PyLong_AsUnsignedLong" longAsUnsignedLong
  | size : Answering .size "PyLong_AsSize_t" longAsSize

/-- The functions that store the native integer in an output. -/
inductive Storing : NativeInt → String → (Pointer → Option Int → Host (Int × Option Int)) → Prop
  | long : Storing .long "pyabi_long_as_long_checked" longAsLongChecked
  | longLong : Storing .longLong "pyabi_long_as_long_long_checked" longAsLongLongChecked
  | size : Storing .size "pyabi_long_as_size_t_checked" longAsSizeChecked

/-- The functions that box a native integer. -/
inductive Boxing : NativeInt → String → (Int → Host Pointer) → Prop
  | long : Boxing .long "PyLong_FromLong" longFromLong
  | longLong : Boxing .longLong "PyLong_FromLongLong" longFromLongLong
  | unsignedLong : Boxing .unsignedLong "PyLong_FromUnsignedLong" longFromUnsignedLong
  | size : Boxing .size "PyLong_FromSize_t" longFromSize

/-- A letter converts as the conversion from the inside does. -/
theorem Coded.ofObject {code : FormatCode} {wrap : Int → Native} (h : Coded target code wrap)
    (w : World) (r : Ref) : Native.ofObject w code r = (Box.native w r target).map wrap := by
  cases h <;> rfl

/-- The value that stands for failure has all bits set. -/
theorem Answering.eq {f : Pointer → Host Int} (h : Answering target name f) :
    f = asNative name target target.allOnes := by
  cases h <;> rfl

/-- The functions that store an integer differ in the native type only. -/
theorem Storing.eq {f : Pointer → Option Int → Host (Int × Option Int)}
    (h : Storing target name f) :
    f = asNativeChecked name target := by
  cases h <;> rfl

/-- A function answers the integer. -/
theorem Answering.answers {f : Pointer → Host Int} (hf : Answering target name f)
    (h : Converts w target pointer (.ok v)) : f pointer w = .ok v w := by
  rw [hf.eq, asNative, run_reporting, readFrom, Attempt.run_read, h.native_eq]

/-- A function that has no integer to answer reports why. -/
theorem Answering.refuses {f : Pointer → Host Int} (hf : Answering target name f)
    (h : Converts w target pointer (.error e)) :
    f pointer w = .ok target.allOnes (w.report (.entryFailed name e)) := by
  rw [hf.eq, asNative, run_reporting, readFrom, Attempt.run_read, h.native_eq]

/-- A function stores the integer and answers zero. -/
theorem Storing.stores {f : Pointer → Option Int → Host (Int × Option Int)}
    (hf : Storing target name f) (h : Converts w target pointer (.ok v)) (output : Option Int) :
    f pointer output w = .ok (0, output.map fun _ => v) w := by
  rw [hf.eq, asNativeChecked, checked, Host.run_bind, run_reporting, readFrom,
    Attempt.run_read_bind, h.native_eq]
  rfl

/-- A function that has no integer to store leaves the output alone. -/
theorem Storing.refuses {f : Pointer → Option Int → Host (Int × Option Int)}
    (hf : Storing target name f) (h : Converts w target pointer (.error e)) (output : Option Int) :
    f pointer output w = .ok (-1, output) (w.report (.entryFailed name e)) := by
  rw [hf.eq, asNativeChecked, checked, Host.run_bind, run_reporting, readFrom,
    Attempt.run_read_bind, h.native_eq]
  rfl

/-- What is boxed is an integer. -/
theorem holdsInteger_newInteger (hrun : (Box.newInteger v).run w = .ok (.ok r) w') :
    w'.HoldsInteger r v := by
  cases hcalloc : w.memory.calloc 1 TypeObject.int.basicSize with
  | mk found m =>
    rw [Box.newInteger, Box.newIntegerOf, Object.new, run_allocate hcalloc] at hrun
    cases found with
    | none => cases hrun
    | some home =>
      cases hrun
      exact ⟨_, object?_made_self, .same rfl, rfl⟩

/-- A function that boxes an integer makes a box that holds it. -/
theorem Boxing.holdsInteger {f : Int → Host Pointer} (hf : Boxing target name f)
    (hrun : f v w = .ok (some r) w') : w'.HoldsInteger r v := by
  have hnew : newReference name (Box.newInteger v) w = .ok (some r) w' := by
    cases hf <;> exact hrun
  rw [newReference, run_reporting, Attempt.run_bind] at hnew
  cases hbox : (Box.newInteger v).run w with
  | error fault w₁ => rw [hbox] at hnew; cases hnew
  | ok answer w₁ =>
    rw [hbox] at hnew
    cases answer with
    | error e => cases hnew
    | ok made =>
      cases hnew
      exact holdsInteger_newInteger hbox

/-! ### Agreement -/

/-- The four ways to convert, when they come to one decision. -/
structure Agree (w : World) (target : NativeInt) (pointer : Pointer)
    (result : Except ApiError Int) : Prop where
  inside : ∀ r, pointer = some r → Box.native w r target = result
  coded : ∀ r code wrap, pointer = some r → Coded target code wrap →
    Native.ofObject w code r = result.map wrap
  /-- The integer is answered, or the value that has all bits set. -/
  answered : ∀ name f, Answering target name f →
    (∀ v, result = .ok v → f pointer w = .ok v w) ∧
    (∀ e, result = .error e → f pointer w = .ok target.allOnes (w.report (.entryFailed name e))) ∧
    ∀ a w', f pointer w = .ok a w' → a ≠ target.allOnes → result = .ok a
  /-- The integer is stored, or the output is left alone. -/
  stored : ∀ name f, Storing target name f → ∀ output,
    (∀ v, result = .ok v → f pointer output w = .ok (0, output.map fun _ => v) w) ∧
    ∀ e, result = .error e →
      f pointer output w = .ok (-1, output) (w.report (.entryFailed name e))

/-- All ways to convert an object answer according to the one decision. -/
theorem Converts.agree (h : Converts w target pointer result) : Agree w target pointer result where
  inside r hr := by
    subst hr
    exact h.native_eq
  coded r code wrap hr hcode := by
    subst hr
    rw [hcode.ofObject]
    exact congrArg _ h.native_eq
  answered name f hf := by
    refine ⟨fun v hv => hf.answers (hv ▸ h), fun e he => hf.refuses (he ▸ h), fun a w' ha hne => ?_⟩
    cases result with
    | ok v =>
      rw [hf.answers h] at ha
      cases ha
      rfl
    | error e =>
      rw [hf.refuses h] at ha
      cases ha
      exact absurd rfl hne
  stored name f hf output :=
    ⟨fun v hv => hf.stores (hv ▸ h) output, fun e he => hf.refuses (he ▸ h) output⟩

/-- An object of another type than `int`, and not of a derived one, has no integer. -/
theorem not_holdsInteger {object : Object} (hobject : w.object? r = some object)
    (h : ¬ object.type.Derives .int) : ¬ w.HoldsInteger r v := by
  rintro ⟨found, hfound, hderives, -⟩
  obtain rfl := Option.some.inj (hfound.symm.trans hobject)
  exact h hderives

/-- Every object converts to every native type in one way, whichever way it is asked. An
object that is laid out as an integer is refused for the range only, and any other for its
type. In every world of a strict run all objects of type `int`, or of a type derived from
it, are laid out as integers. What is boxed from a native type converts to it. -/
theorem conversions_agree (w : World) :
    (∀ target pointer, ∃ result, Converts w target pointer result ∧
      (∀ other, Converts w target pointer other → other = result) ∧
      Agree w target pointer result) ∧
    (∀ r object, w.object? r = some object → ¬ object.type.Derives .int → ∀ target,
      Converts w target (some r) (.error (.typeMismatch "int" object.type.name))) ∧
    (w.IntegersHold → ∀ r object, w.object? r = some object → object.type.Derives .int →
      ∃ v, object.body = .integer v ∧ ∀ target : NativeInt,
        (target.Spans v → Converts w target (some r) (.ok v)) ∧
        (¬ target.Spans v → Converts w target (some r) (.error (.overflow target.name)))) ∧
    (∀ system settings owned, Thread true system settings w owned → w.IntegersHold) ∧
    ∀ (target : NativeInt) v r w', target.Spans v →
      ((Box.newInteger v).run w = .ok (.ok r) w' ∨
        ∃ name f, Boxing target name f ∧ f v w = .ok (some r) w') →
      Converts w' target (some r) (.ok v) := by
  refine ⟨fun target pointer => ?_, fun r object hobject hother target =>
      .mismatch hobject fun v => not_holdsInteger hobject hother,
    fun hhold r object hobject hderives => ?_, fun _ _ _ => integersHold_of_thread,
    fun target v r w' hspan hmade => .exact ?_ hspan⟩
  -- the decision exists and is unique, and every way of asking comes down to it
  · obtain ⟨result, h⟩ := exists_converts w target pointer
    exact ⟨result, h, fun other h' => h'.unique h, h.agree⟩
  · obtain ⟨v, hbody⟩ := hhold r object hobject hderives
    have hinteger : w.HoldsInteger r v := ⟨object, hobject, hderives, hbody⟩
    exact ⟨v, hbody, fun target => ⟨.exact hinteger, .overflow hinteger⟩⟩
  · rcases hmade with hmade | ⟨name, f, hf, hmade⟩
    · exact holdsInteger_newInteger hmade
    · exact hf.holdsInteger hmade

/-- A truth value of the extension's own, whose type is derived from `bool`. -/
def withTruth : World := (World.new (.bounded 0x1000000) {}).left (Box.newIntegerOf .myBool 1).run

/-- A truth value in a box of its own is made by a strict run. -/
theorem thread_withTruth : Thread true (.bounded 0x1000000) {} withTruth {3} := by
  have hmade : (Box.newIntegerOf .myBool 1).run (.new (.bounded 0x1000000) {}) =
      .ok (.ok 3) withTruth := rfl
  have hsuits : TypeObject.myBool.Suits (.integer 1) :=
    ⟨fun _ => ⟨1, rfl⟩, fun h => absurd h (by decide), fun h => absurd h (by decide),
      fun h => absurd h (by decide), fun h => absurd h (by decide)⟩
  exact .step 0 0 .start (.newInteger (by decide) 1) (.newInteger (by decide) 1 fun _ => hsuits)
    nofun hmade

/-- The greatest `unsigned long` is boxed and converted back, although the same number
stands for failure. A truth value converts as well. -/
theorem conversions_agree_withTruth :
    withTruth.IntegersHold ∧ NativeInt.unsignedLong.Spans NativeInt.unsignedLong.allOnes ∧
      (∃ v, ∀ target : NativeInt, target.Spans v → Converts withTruth target (some 3) (.ok v)) ∧
      ∃ w', longFromUnsignedLong NativeInt.unsignedLong.allOnes withTruth = .ok (some 4) w' ∧
        Converts w' .unsignedLong (some 4) (.ok NativeInt.unsignedLong.allOnes) := by
  obtain ⟨-, -, hinteger, hrun, hboxed⟩ := conversions_agree withTruth
  have hhold := hrun _ _ _ thread_withTruth
  have hspan : NativeInt.unsignedLong.Spans NativeInt.unsignedLong.allOnes :=
    ⟨by decide, by decide⟩
  refine ⟨hhold, hspan, ?_, ?_⟩
  · obtain ⟨v, -, hconverts⟩ := hinteger hhold 3 _ rfl (.base rfl (.base rfl (.same rfl)))
    exact ⟨v, fun target => (hconverts target).1⟩
  · exact ⟨_, rfl, hboxed _ _ _ _ hspan (.inr ⟨_, _, .unsignedLong, rfl⟩)⟩

end Boundary

end ExtensionHost
