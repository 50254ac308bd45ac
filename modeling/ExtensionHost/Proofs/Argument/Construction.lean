import ExtensionHost.Proofs.Argument.Assembly
import ExtensionHost.Proofs.Upkeep.Thread

/-!
# `ExtensionHost.Proofs.Argument.Construction`: what comes of building a value

The whole answer to a format and a list of values. The values are compared with the
codes of the format first, in a list of codes that was made from the tree of items.
If they do not go with it the first difference is reported, and the world is the
very same: nothing was asked of the storage. If they do, all errors but that of
missing storage are out of the way. In particular no item finds the list of values
empty, although the items read it by a walk of their own.

`Constructs` puts this together, and `constructs_build` is the theorem. Each
reference that a value carries is taken once for each time it occurs. The count shows
that, up to 2^62, where objects are immortal and counts stay (`World.raised`,
`count_build_none`).
-/

set_option autoImplicit false

namespace ExtensionHost

namespace Argument

open World Box

variable {w w' : World} {owned : Multiset Ref} {values : List Native} {item : BuildItem}

/-! ### The checks -/

/-- The codes of the first values agree with a format, and the code of the next one is another. -/
structure FirstOther (codes : List FormatCode) (values : List Native) (position : Nat)
    (code : FormatCode) (value : Native) : Prop where
  before : codes.take position = (values.take position).map Native.code
  codeAt : codes[position]? = some code
  valueAt : values[position]? = some value
  other : value.code ≠ code

/-- The scan finds the first position at which the code of the format and that of the
value differ. -/
theorem firstOtherCode_eq_some {codes : List FormatCode} {values : List Native} {start : Nat}
    {e : ApiError} :
    firstOtherCode start codes values = some e ↔ ∃ position code value,
      FirstOther codes values position code value ∧
        e = .slotMismatch (start + position) code.char value.code.char := by
  induction codes generalizing values start with
  | nil =>
    refine ⟨nofun, ?_⟩
    rintro ⟨position, code, value, hother, -⟩
    cases hother.codeAt
  | cons code codes ih =>
    cases values with
    | nil =>
      refine ⟨nofun, ?_⟩
      rintro ⟨position, code, value, hother, -⟩
      cases hother.valueAt
    | cons value values =>
      rw [firstOtherCode]
      split
      · next hcode =>
        -- the first code agrees, so what the others have is one position further
        rw [ih]
        constructor
        · rintro ⟨position, code', value', ⟨hbefore, hcode', hvalue', hother⟩, rfl⟩
          refine ⟨position + 1, code', value', ⟨?_, hcode', hvalue', hother⟩, ?_⟩
          · rw [List.take_succ_cons, List.take_succ_cons, List.map_cons, hbefore, hcode]
          · rw [Nat.add_assoc, Nat.add_comm 1]
        · rintro ⟨position, code', value', ⟨hbefore, hcode', hvalue', hother⟩, rfl⟩
          cases position with
          | zero =>
            cases hcode'
            cases hvalue'
            exact absurd hcode hother
          | succ position =>
            refine ⟨position, code', value', ⟨?_, hcode', hvalue', hother⟩, ?_⟩
            · exact (List.cons.inj hbefore).2
            · rw [Nat.add_assoc, Nat.add_comm 1]
      · next hcode =>
        constructor
        · intro h
          cases h
          exact ⟨0, code, value, ⟨rfl, rfl, rfl, hcode⟩, rfl⟩
        · rintro ⟨position, code', value', ⟨hbefore, hcode', hvalue', hother⟩, rfl⟩
          cases position with
          | zero =>
            cases hcode'
            cases hvalue'
            rfl
          | succ position => exact absurd (List.cons.inj hbefore).1.symm hcode

/-- Positions are counted from the first of the codes. -/
theorem firstOtherCode_zero {codes : List FormatCode} {e : ApiError} :
    firstOtherCode 0 codes values = some e ↔ ∃ position code value,
      FirstOther codes values position code value ∧
        e = .slotMismatch position code.char value.code.char := by
  rw [firstOtherCode_eq_some]
  simp only [Nat.zero_add]

/-- The scan finds nothing exactly if each value has the code that the format asks for. -/
theorem firstOtherCode_eq_none {codes : List FormatCode} {values : List Native} (start : Nat)
    (hlength : codes.length = values.length) :
    firstOtherCode start codes values = none ↔ codes = values.map Native.code := by
  induction codes generalizing values start with
  | nil =>
    cases values with
    | nil => exact ⟨fun _ => rfl, fun _ => rfl⟩
    | cons value values => cases hlength
  | cons code codes ih =>
    cases values with
    | nil => cases hlength
    | cons value values =>
      rw [firstOtherCode, List.map_cons, List.cons.injEq, ← ih (start + 1) (Nat.succ.inj hlength)]
      split
      · next hcode => exact ⟨fun h => ⟨hcode.symm, h⟩, And.right⟩
      · next hcode => exact ⟨nofun, fun h => absurd h.1.symm hcode⟩

/-- The values pass the checks when their codes are those of the format. -/
theorem checkValues_eq_ok {format : BuildFormat} :
    checkValues format values = .ok () ↔ format.codes = values.map Native.code := by
  rw [checkValues]
  split
  · next harity =>
    rw [← firstOtherCode_eq_none 0 (format.arity_eq_length.symm.trans harity)]
    cases firstOtherCode 0 format.codes values with
    | none => exact ⟨fun _ => rfl, fun _ => rfl⟩
    | some e => exact ⟨nofun, nofun⟩
  · next harity =>
    refine ⟨nofun, fun hcodes => absurd ?_ harity⟩
    rw [BuildFormat.arity_eq_length, hcodes, List.length_map]

/-- Otherwise there are too few or too many of them, or one is not what it should be. -/
theorem checkValues_eq_error {format : BuildFormat} {e : ApiError} :
    checkValues format values = .error e ↔
      (values.length ≠ format.arity ∧ e = .arity format.arity format.arity values.length) ∨
      values.length = format.arity ∧ ∃ position code value,
        FirstOther format.codes values position code value ∧
          e = .slotMismatch position code.char value.code.char := by
  rw [checkValues]
  split
  -- the number of values comes first, and only then what they are
  · next harity =>
    cases hfirst : firstOtherCode 0 format.codes values with
    | none =>
      refine ⟨nofun, ?_⟩
      rintro (⟨hne, -⟩ | ⟨-, hother⟩)
      · exact absurd harity.symm hne
      · cases hfirst.symm.trans (firstOtherCode_zero.2 hother)
    | some found =>
      rw [← firstOtherCode_zero, hfirst, Except.error.injEq, Option.some.injEq]
      refine ⟨fun heq => .inr ⟨harity.symm, heq⟩, ?_⟩
      rintro (⟨hne, -⟩ | ⟨-, heq⟩)
      · exact absurd harity.symm hne
      · exact heq
  · next harity =>
    constructor
    · intro h
      cases h
      exact .inl ⟨Ne.symm harity, rfl⟩
    · rintro (⟨-, rfl⟩ | ⟨heq, -⟩)
      · rfl
      · exact absurd heq.symm harity

/-! ### A whole value -/

/-- The object `r` is what the items of a format describe: nothing, an item by itself,
or several items in a tuple. -/
inductive Describes (w : World) : List BuildItem → List Native → Ref → List Ref → Prop
  | nothing : Describes w [] [] Ref.none []
  | single {item : BuildItem} {values : List Native} {r : Ref} {made : List Ref}
      (h : Shows w item values r made) : Describes w [item] values r made
  | several {first second : BuildItem} {more : List BuildItem} {values : List Native} {r : Ref}
      {made : List Ref} (h : Shows w (.group (first :: second :: more)) values r made) :
      Describes w (first :: second :: more) values r made

/-- The answer to values that are to go with a format: there may be too few or too many of
them, or one may have another code, and otherwise they are put together. -/
structure Answers (w : World) (format : BuildFormat) (values : List Native)
    (result : Except ApiError Ref) (w' : World) : Prop where
  arity : ∀ least most found, result = .error (.arity least most found) ↔
    values.length ≠ format.arity ∧ least = format.arity ∧ most = format.arity ∧
      found = values.length
  slotMismatch : ∀ position expected found,
    result = .error (.slotMismatch position expected found) ↔
      values.length = format.arity ∧ ∃ code value,
        FirstOther format.codes values position code value ∧ code.char = expected ∧
          value.code.char = found
  built : format.codes = values.map Native.code →
    Assembled w [] (referents values) w.objects.size
      (fun r made w' => Describes w' format.items values r made) result w'

/-- What comes of building a value. Nothing is asked of the storage unless the values go
with the format. -/
structure Constructs (w : World) (text : String) (values : List Native)
    (result : Except ApiError Ref) (w' : World) : Prop where
  badFormat : (∃ reason, result = .error (.badFormat text reason)) ↔
    ∀ format, BuildFormat.parse text ≠ .ok format
  unasked : (∀ format, BuildFormat.parse text = .ok format →
    format.codes ≠ values.map Native.code) → w' = w
  answers : ∀ format, BuildFormat.parse text = .ok format → Answers w format values result w'

/-- Values that do not go with the format. -/
theorem answers_unchecked {format : BuildFormat} {e : ApiError}
    (hcheck : checkValues format values = .error e) : Answers w format values (.error e) w where
  arity least most found := by
    rcases checkValues_eq_error.1 hcheck with ⟨hne, rfl⟩ | ⟨hlength, position, code, value, -, rfl⟩
    · constructor
      · intro heq
        cases heq
        exact ⟨hne, rfl, rfl, rfl⟩
      · rintro ⟨-, rfl, rfl, rfl⟩
        rfl
    · exact ⟨nofun, fun ⟨hne, _⟩ => absurd hlength hne⟩
  slotMismatch position expected found := by
    constructor
    · rintro ⟨⟩
      rcases checkValues_eq_error.1 hcheck with ⟨-, heq⟩ | ⟨hlength, _, code, value, hother, heq⟩
      · cases heq
      · cases heq
        exact ⟨hlength, code, value, hother, rfl, rfl⟩
    · rintro ⟨hlength, code, value, hother, rfl, rfl⟩
      rw [checkValues_eq_error.2 (.inr ⟨hlength, position, code, value, hother, rfl⟩)] at hcheck
      cases hcheck
      rfl
  built hcodes := by
    rw [checkValues_eq_ok.2 hcodes] at hcheck
    cases hcheck

/-- Values that go with the format. Only storage may be missing then. -/
theorem answers_checked {format : BuildFormat} {result : Except ApiError Ref}
    (hcodes : format.codes = values.map Native.code)
    (hassembled : Assembled w [] (referents values) w.objects.size
      (fun r made w' => Describes w' format.items values r made) result w') :
    Answers w format values result w' where
  arity least most found := by
    refine ⟨fun heq => ?_, fun ⟨hne, _⟩ => absurd ?_ hne⟩
    · obtain ⟨size, hsize⟩ := hassembled.error heq
      cases hsize
    · rw [BuildFormat.arity_eq_length, hcodes, List.length_map]
  slotMismatch position expected found := by
    refine ⟨fun heq => ?_, fun ⟨_, code, value, hother, _⟩ => absurd ?_ hother.other⟩
    · obtain ⟨size, hsize⟩ := hassembled.error heq
      cases hsize
    · have hcode := hother.codeAt
      rw [hcodes, List.getElem?_map, hother.valueAt] at hcode
      exact Option.some.inj hcode
  built _ := hassembled

/-- A format is read in one way only. -/
theorem constructs_of_answers {text : String} {format : BuildFormat}
    {result : Except ApiError Ref} (hparse : BuildFormat.parse text = .ok format)
    (hanswers : Answers w format values result w')
    (hformat : ∀ reason, result ≠ .error (.badFormat text reason))
    (hsame : format.codes ≠ values.map Native.code → w' = w) :
    Constructs w text values result w' where
  badFormat := ⟨fun ⟨reason, heq⟩ => absurd heq (hformat reason),
    fun hnone => absurd hparse (hnone format)⟩
  unasked hnone := hsame (hnone format hparse)
  answers other hother := by
    cases hparse.symm.trans hother
    exact hanswers

/-- A format with one item gives what the item gives. -/
theorem assembled_item (h : Ready w owned w.objects.size values)
    (hlength : values.length = item.codes.length) {result : Except ApiError Ref}
    (hrun : (do return (← buildItem item values).1 : Attempt Ref).run w = .ok result w') :
    Assembled w [] (referents values) w.objects.size
      (fun r made w' => Shows w' item values r made) result w' := by
  obtain ⟨built, w₁, hrun₁, -⟩ := buildItem_spec item values w owned h.sound h.present
  have hassembled := assembled_buildItem item values [] hlength
    (by rw [List.append_nil]; exact h) (by rw [List.append_nil]; exact hrun₁)
  cases hassembled with
  | refused hrefused =>
    rw [Attempt.run_bind_error hrun₁] at hrun
    cases hrun
    exact .refused hrefused
  | made adds tiered what =>
    rw [Attempt.run_bind_ok hrun₁] at hrun
    cases hrun
    exact .made adds tiered what.shows

/-- The values that the caller gives refer to what is there. -/
theorem ready_of_sound (h : w.Sound owned) (hpresent : Present w values)
    (hpointed : .object none ∉ values) : Ready w owned w.objects.size values where
  sound := h
  tiered := h.tiered
  present := hpresent
  below r hr := by
    obtain ⟨object, hobject⟩ := Option.isSome_iff_exists.1 (hpresent r hr)
    exact lt_size_of_object? hobject
  pointed := hpointed
  start := by
    obtain ⟨object, hobject⟩ := Option.isSome_iff_exists.1 (h.first_alive (by decide : 0 < 3))
    exact lt_size_of_object? hobject

/-- Items whose codes are those of the values. -/
theorem assembled_items {format : BuildFormat} {result : Except ApiError Ref}
    (h : Ready w owned w.objects.size values) (hcodes : format.codes = values.map Native.code)
    (hrun : (match format.items with
      | [] => Box.newNone
      | [item] => do return (← buildItem item values).1
      | items => do return (← buildItem (.group items) values).1 : Attempt Ref).run w =
        .ok result w') :
    Assembled w [] (referents values) w.objects.size
      (fun r made w' => Describes w' format.items values r made) result w' := by
  have hlength : values.length = format.codes.length := by rw [hcodes, List.length_map]
  obtain ⟨items⟩ := format
  match items with
  | [] =>
    obtain rfl : values = [] := List.eq_nil_of_length_eq_zero hlength
    have hnone : (newNone : Attempt Ref).run w = .ok (.ok Ref.none) (w.retain Ref.none) := rfl
    rw [retain_first h.sound.housed (by decide)] at hnone
    cases hnone.symm.trans hrun
    exact .made (.refl w []) h.tiered .nothing
  | [item] =>
    rw [BuildFormat.codes, BuildItem.codesOfList, BuildItem.codesOfList, List.append_nil] at hlength
    exact (assembled_item h hlength hrun).imp fun _ _ => .single
  | first :: second :: more =>
    have hitem := @assembled_item _ _ _ _ (.group (first :: second :: more)) h hlength _ hrun
    exact hitem.imp fun _ _ => .several

/-- A run that builds a value ends with the answer that format and values call for. -/
theorem constructs_of_run {text : String} {result : Except ApiError Ref} (h : w.Sound owned)
    (hpresent : Present w values) (hpointed : .object none ∉ values)
    (hrun : (build text values).run w = .ok result w') : Constructs w text values result w' := by
  rw [build] at hrun
  cases hparse : BuildFormat.parse text with
  | error e =>
    rw [hparse, Attempt.run_bind_error (Attempt.run_ofExcept _ w)] at hrun
    cases hrun
    have hnone : ∀ format, BuildFormat.parse text ≠ .ok format := fun format hformat => by
      cases hparse.symm.trans hformat
    obtain ⟨reason, rfl⟩ := BuildFormat.parse_error hparse
    exact ⟨⟨fun _ => hnone, fun _ => ⟨reason, rfl⟩⟩, fun _ => rfl,
      fun format hformat => absurd hformat (hnone format)⟩
  | ok format =>
    rw [hparse, Attempt.run_bind_ok (Attempt.run_ofExcept _ w)] at hrun
    cases hcheck : checkValues format values with
    | error e =>
      rw [hcheck, Attempt.run_bind_error (Attempt.run_ofExcept _ w)] at hrun
      cases hrun
      refine constructs_of_answers hparse (answers_unchecked hcheck) ?_ fun _ => rfl
      rintro reason ⟨⟩
      rcases checkValues_eq_error.1 hcheck with ⟨-, heq⟩ | ⟨-, _, _, _, -, heq⟩ <;> cases heq
    | ok u =>
      -- past the checks the only error is that of missing storage
      rw [hcheck, Attempt.run_bind_ok (Attempt.run_ofExcept _ w)] at hrun
      have hcodes := checkValues_eq_ok.1 hcheck
      have hassembled := assembled_items (ready_of_sound h hpresent hpointed) hcodes hrun
      refine constructs_of_answers hparse (answers_checked hcodes hassembled) ?_
        fun hne => absurd hcodes hne
      intro reason heq
      obtain ⟨size, hsize⟩ := hassembled.error heq
      cases hsize

/-- Whatever the format and the values, the answer is the one that they call for. -/
theorem constructs_build (text : String) (values : List Native) (h : w.Sound owned)
    (hpresent : Present w values) (hpointed : .object none ∉ values) :
    ∃ result w', (build text values).run w = .ok result w' ∧ w'.Sound (gained result + owned) ∧
      Constructs w text values result w' := by
  obtain ⟨result, w', hrun, hsound⟩ := build_spec text values h hpresent
  exact ⟨result, w', hrun, hsound, constructs_of_run h hpresent hpointed hrun⟩

/-- A number, an absent text, and the tuple that holds a list, twice. -/
def entries : List Native := [.int 7, .object (some 5), .text none, .object (some 5)]

/-- A list in a tuple and a text are put into nested tuples, so two references are added
to the object that is given twice. -/
theorem constructs_entries : withListInTuple.Sound {5} ∧ Present withListInTuple entries ∧
    ∃ w', (build "i(O(s,O))" entries).run withListInTuple = .ok (.ok 6) w' ∧
      w'.count 5 = withListInTuple.count 5 + 2 ∧
      Constructs withListInTuple "i(O(s,O))" entries (.ok 6) w' := by
  have hpresent : Present withListInTuple entries := by
    intro r hr
    have hfive : 5 = r := by simpa [entries, referents, referent?] using hr
    rw [← hfive]
    rfl
  have hpointed : Native.object none ∉ entries := by simp [entries]
  have hsound := (thread_withListInTuple true).sound
  obtain ⟨result, w', hrun, -, hconstructs⟩ :=
    constructs_build "i(O(s,O))" entries hsound hpresent hpointed
  have hbuilt : (build "i(O(s,O))" entries).run withListInTuple = .ok (.ok 6) _ := rfl
  cases hbuilt.symm.trans hrun
  exact ⟨hsound, hpresent, _, rfl, rfl, hconstructs⟩

/-- The object that stands for nothing is immortal, so its count does not go up when a
value holds it. -/
theorem count_build_none :
    ∃ w', (build "O" [.object (some Ref.none)]).run (.new (.bounded 0x1000000) {}) =
        .ok (.ok Ref.none) w' ∧
      w'.count Ref.none ≠ (World.new (.bounded 0x1000000) {}).count Ref.none + 1 :=
  ⟨_, rfl, by decide⟩

end Argument

end ExtensionHost
