import ExtensionHost.Argument.Keywords

/-!
# `ExtensionHost.Proofs.Argument.Parsing`: parsing stores all values or none

A parse makes its checks one after the other, converts every argument, and
stores the values last. Two of its passes look at one position after the
other, at the outputs and at the slots of the argument tuple. Both stop at
the first position that fails, which `firstFailure` says once for both.

What a parse that is not refused has stored is `Filled`: each output whose
argument was supplied holds the value of that argument, and each other
output holds what it held. Why a parse is refused is `TupleRefusal`, one
case for each check with the checks before it passed.
`parseTuple_outcome` puts the two together. It asks nothing of the
arguments, the format or the world.
-/

set_option autoImplicit false

namespace ExtensionHost

namespace Argument

/-! ### Passes over positions -/

section
variable {α β : Type} {check : Nat → α → β → Option ApiError} {xs : List α} {ys : List β}

/-- The first failure of a check that is made position by position, as far
as both lists reach. -/
def firstFailure (check : Nat → α → β → Option ApiError) :
    (position : Nat) → List α → List β → Option ApiError
  | position, x :: xs, y :: ys =>
    match check position x y with
    | some e => some e
    | none => firstFailure check (position + 1) xs ys
  | _, _, _ => none

/-- The checks before a position pass, and the one at it fails. -/
def FailsFirst (check : Nat → α → β → Option ApiError) (xs : List α) (ys : List β)
    (e : ApiError) : Prop :=
  ∃ i x y, xs[i]? = some x ∧ ys[i]? = some y ∧ check i x y = some e ∧
    ∀ j x y, j < i → xs[j]? = some x → ys[j]? = some y → check j x y = none

/-- The checks at all positions pass. -/
def AllPass (check : Nat → α → β → Option ApiError) (xs : List α) (ys : List β) : Prop :=
  ∀ i x y, xs[i]? = some x → ys[i]? = some y → check i x y = none

-- The check is told the position, so a pass over the rest is one with the check shifted.
/-- A scan that starts one position later is a scan of the shifted check from the start. -/
theorem firstFailure_succ (n : Nat) :
    firstFailure check (n + 1) xs ys = firstFailure (fun i => check (i + 1)) n xs ys := by
  induction xs generalizing n ys with
  | nil => simp [firstFailure]
  | cons x xs ih =>
    cases ys with
    | nil => simp [firstFailure]
    | cons y ys => simp only [firstFailure, ih]

/-- A scan that finds no failure means that all positions pass. -/
theorem allPass_of_firstFailure (h : firstFailure check 0 xs ys = none) : AllPass check xs ys := by
  induction xs generalizing check ys with
  | nil => exact fun i x y hx => by simp at hx
  | cons x xs ih =>
    cases ys with
    | nil => exact fun i x y _ hy => by simp at hy
    | cons y ys =>
      simp only [firstFailure] at h
      split at h
      · cases h
      · rename_i hhead
        rw [firstFailure_succ] at h
        intro i x' y' hx hy
        cases i with
        | zero =>
          cases hx
          cases hy
          exact hhead
        | succ i => exact ih h i x' y' hx hy

/-- A failure that a scan finds is the first one. -/
theorem failsFirst_of_firstFailure {e : ApiError} (h : firstFailure check 0 xs ys = some e) :
    FailsFirst check xs ys e := by
  induction xs generalizing check ys with
  | nil => simp [firstFailure] at h
  | cons x xs ih =>
    cases ys with
    | nil => simp [firstFailure] at h
    | cons y ys =>
      simp only [firstFailure] at h
      split at h
      · rename_i found hhead
        cases h
        exact ⟨0, x, y, rfl, rfl, hhead, fun j _ _ hj => absurd hj (Nat.not_lt_zero j)⟩
      · rename_i hhead
        rw [firstFailure_succ] at h
        obtain ⟨i, x', y', hx, hy, hfails, hbefore⟩ := ih h
        refine ⟨i + 1, x', y', hx, hy, hfails, fun j x'' y'' hj hx' hy' => ?_⟩
        cases j with
        | zero =>
          cases hx'
          cases hy'
          exact hhead
        | succ j => exact hbefore j x'' y'' (Nat.lt_of_succ_lt_succ hj) hx' hy'

/-- A check that fails first at some position does not pass, and only one
error is the first. -/
theorem FailsFirst.firstFailure_eq {e : ApiError} (h : FailsFirst check xs ys e) :
    firstFailure check 0 xs ys = some e := by
  obtain ⟨i, x, y, hx, hy, hfails, hbefore⟩ := h
  cases hfound : firstFailure check 0 xs ys with
  | none =>
    have hpass := allPass_of_firstFailure hfound i x y hx hy
    rw [hfails] at hpass
    cases hpass
  | some e' =>
    obtain ⟨j, x', y', hx', hy', hfails', hbefore'⟩ := failsFirst_of_firstFailure hfound
    -- of two positions that fail the earlier one would have to pass
    rcases Nat.lt_trichotomy i j with hij | rfl | hji
    · have hpass := hbefore' i x y hij hx hy
      rw [hfails] at hpass
      cases hpass
    · rw [hx] at hx'
      rw [hy] at hy'
      cases hx'
      cases hy'
      rw [← hfails', hfails]
    · have hpass := hbefore j x' y' hji hx' hy'
      rw [hfails'] at hpass
      cases hpass

/-- If all positions pass, the scan finds no failure. -/
theorem AllPass.firstFailure_eq (h : AllPass check xs ys) : firstFailure check 0 xs ys = none := by
  cases hfound : firstFailure check 0 xs ys with
  | none => rfl
  | some e =>
    obtain ⟨i, x, y, hx, hy, hfails, -⟩ := failsFirst_of_firstFailure hfound
    have hpass := h i x y hx hy
    rw [hfails] at hpass
    cases hpass

end

/-! ### Converting arguments -/

variable {w : World} {codes : List FormatCode} {outputs : List Output} {values : Extracted}
  {argument : Nat → Option Ref} {e : ApiError}

/-- Why an output does not go with a code. -/
def letterFailure (position : Nat) (code : FormatCode) (output : Output) : Option ApiError :=
  if output.letter = code.char then none
  else some (.slotMismatch position code.char output.letter)

/-- Why the occupant of a slot cannot be converted. -/
def slotFailure (w : World) (position : Nat) (code : FormatCode) : Option Ref → Option ApiError
  | none => some (.uninitializedSlot position)
  | some item =>
    match Native.ofObject w code item with
    | .error e => some e
    | .ok _ => none

/-- Each supplied argument has been converted under its code, and nothing
stands for the others. -/
structure Converted (w : World) (codes : List FormatCode) (argument : Nat → Option Ref)
    (values : Extracted) : Prop where
  length : values.length = codes.length
  absent : ∀ i, i < codes.length → argument i = none → values[i]? = some none
  present : ∀ i code item, codes[i]? = some code → argument i = some item →
    ∃ value, Native.ofObject w code item = .ok value ∧ values[i]? = some (some value)

/-- Without codes there is nothing to convert. -/
theorem converted_nil : Converted w [] argument [] where
  length := rfl
  absent i hi := absurd hi (Nat.not_lt_zero i)
  present i code item hi := by simp at hi

/-- A value that is converted for the first position goes in front of those for the
positions behind it. -/
theorem Converted.cons {code : FormatCode} {value : Option Native}
    (h : Converted w codes (fun i => argument (i + 1)) values)
    (habsent : argument 0 = none → value = none)
    (hpresent : ∀ item, argument 0 = some item →
      ∃ native, Native.ofObject w code item = .ok native ∧ value = some native) :
    Converted w (code :: codes) argument (value :: values) where
  length := by rw [List.length_cons, List.length_cons, h.length]
  absent i hi hargument := by
    cases i with
    | zero => rw [List.getElem?_cons_zero, habsent hargument]
    | succ i => exact h.absent i (Nat.lt_of_succ_lt_succ hi) hargument
  present i code' item hcode hargument := by
    cases i with
    | zero =>
      cases hcode
      obtain ⟨native, hconvert, hvalue⟩ := hpresent item hargument
      exact ⟨native, hconvert, by rw [List.getElem?_cons_zero, hvalue]⟩
    | succ i => exact h.present i code' item hcode hargument

/-- The mismatch of outputs that the code looks for is the first failure of the letters. -/
theorem firstMismatch_eq (position : Nat) (codes : List FormatCode) (outputs : List Output) :
    firstMismatch position codes outputs = firstFailure letterFailure position codes outputs := by
  induction codes generalizing position outputs with
  | nil => rfl
  | cons code codes ih =>
    cases outputs with
    | nil => rfl
    | cons output outputs =>
      simp only [firstMismatch, firstFailure, letterFailure, ih]
      split <;> rfl

/-- An argument that stands in a slot is converted first, and then those behind it. -/
theorem convertSlots_cons_some (position : Nat) (code : FormatCode) (codes : List FormatCode)
    (item : Ref) (slots : List (Option Ref)) :
    convertSlots w position (code :: codes) (some item :: slots) = (do
      let value ← Native.ofObject w code item
      let values ← convertSlots w (position + 1) codes slots
      return some value :: values) := rfl

/-- Without a second list there is nothing to check. -/
theorem firstFailure_nil {α β : Type} (check : Nat → α → β → Option ApiError) (position : Nat)
    (xs : List α) : firstFailure check position xs [] = none := by
  cases xs <;> rfl

/-- Behind the last slot there is nothing to convert, and nothing that fails. -/
theorem convertSlots_nil (position : Nat) (codes : List FormatCode) :
    ∃ values, convertSlots w position codes [] = .ok values ∧
      Converted w codes (fun i => ([] : List (Option Ref))[i]?.join) values := by
  induction codes generalizing position with
  | nil => exact ⟨[], rfl, converted_nil⟩
  | cons code codes ih =>
    obtain ⟨values, hvalues, hconverted⟩ := ih (position + 1)
    refine ⟨none :: values, ?_, hconverted.cons (fun _ => rfl) nofun⟩
    simp only [convertSlots, hvalues]
    rfl

/-- Slots are converted up to the first one that fails. -/
theorem convertSlots_eq (position : Nat) (codes : List FormatCode) (slots : List (Option Ref)) :
    (∃ e, firstFailure (slotFailure w) position codes slots = some e ∧
        convertSlots w position codes slots = .error e) ∨
      (firstFailure (slotFailure w) position codes slots = none ∧
        ∃ values, convertSlots w position codes slots = .ok values ∧
          Converted w codes (fun i => slots[i]?.join) values) := by
  induction codes generalizing position slots with
  | nil => exact .inr ⟨by cases slots <;> rfl, [], rfl, converted_nil⟩
  | cons code codes ih =>
    cases slots with
    | nil => exact .inr ⟨firstFailure_nil _ position _, convertSlots_nil position _⟩
    | cons slot slots =>
      cases slot with
      | none => exact .inl ⟨_, rfl, rfl⟩
      | some item =>
        cases hconvert : Native.ofObject w code item with
        | error e =>
          refine .inl ⟨e, ?_, ?_⟩
          · simp only [firstFailure, slotFailure, hconvert]
          · rw [convertSlots_cons_some, hconvert]
            rfl
        | ok value =>
          -- the first slot passes, so the rest decides
          have hhead : firstFailure (slotFailure w) position (code :: codes) (some item :: slots)
              = firstFailure (slotFailure w) (position + 1) codes slots := by
            simp only [firstFailure, slotFailure, hconvert]
          rw [hhead]
          rcases ih (position + 1) slots with ⟨e, hfails, herror⟩ | ⟨hpass, values, hvalues, hrest⟩
          · refine .inl ⟨e, hfails, ?_⟩
            rw [convertSlots_cons_some, hconvert, herror]
            rfl
          · refine .inr ⟨hpass, some value :: values, ?_, ?_⟩
            · rw [convertSlots_cons_some, hconvert, hvalues]
              rfl
            · refine hrest.cons nofun fun found hfound => ?_
              cases hfound
              exact ⟨value, hconvert, rfl⟩

/-! ### Storing values -/

/-- What a converted value is: of the type that its code names. -/
theorem code_of_ofObject {code : FormatCode} {item : Ref} {value : Native}
    (h : Native.ofObject w code item = .ok value) : value.code = code := by
  cases code <;> simp only [Native.ofObject, Except.map] at h <;>
    first
    | (cases h; rfl)
    | (split at h <;> cases h; rfl)

/-- Different codes have different letters. -/
theorem code_eq_of_char {code other : FormatCode} (h : code.char = other.char) : code = other := by
  have hsome := FormatCode.ofChar?_char code
  rw [h, FormatCode.ofChar?_char] at hsome
  exact (Option.some.inj hsome).symm

end Argument

/-- What stands in an output is of the type that its letter names. -/
def Output.Declared (output : Output) : Prop :=
  ∀ old, output.content = some old → old.code.char = output.letter

/-- An output that holds a value, if it has a place for one. -/
def Output.holding (output : Output) (value : Native) : Output :=
  { output with content := output.content.map fun _ => value }

/-- An output takes a value of its own type. -/
theorem Output.store_eq_holding {output : Output} {value : Native}
    (h : ∀ old, output.content = some old → old.code = value.code) :
    output.store value = output.holding value := by
  obtain ⟨letter, content⟩ := output
  cases content with
  | none => rfl
  | some old =>
    show (if old.code = value.code then _ else _) = _
    rw [if_pos (h old rfl)]
    rfl

namespace Argument

variable {w : World} {codes : List FormatCode} {outputs : List Output} {values : Extracted}
  {argument : Nat → Option Ref} {e : ApiError}

/-- Each output is stored to on its own, with the value of its position. -/
theorem getElem?_storeAll (values : Extracted) (outputs : List Output) (i : Nat) :
    (storeAll values outputs)[i]? = outputs[i]?.map fun output =>
      match values[i]?.join with
      | some value => output.store value
      | none => output := by
  induction values generalizing outputs i with
  | nil =>
    have hsame : storeAll [] outputs = outputs := by cases outputs <;> rfl
    rw [hsame]
    cases outputs[i]? <;> rfl
  | cons value values ih =>
    cases outputs with
    | nil => cases value <;> rfl
    | cons output outputs =>
      cases i with
      | zero => cases value <;> rfl
      | succ i => cases value <;> exact ih outputs i

/-- The outputs after a parse: where an argument was supplied stands its
value, and elsewhere what stood there before. A value always goes to an
output of its own type. -/
structure Filled (w : World) (codes : List FormatCode) (argument : Nat → Option Ref)
    (outputs outputs' : List Output) : Prop where
  length : outputs'.length = outputs.length
  kept : ∀ i, argument i = none → outputs'[i]? = outputs[i]?
  stored : ∀ i code item output, codes[i]? = some code → argument i = some item →
    outputs[i]? = some output →
      ∃ value, Native.ofObject w code item = .ok value ∧
        outputs'[i]? = some (output.store value) ∧
        (output.Declared → output.store value = output.holding value ∧
          ∀ old, output.content = some old → old.code = value.code)

/-- Storing converted values fills each output with the value of its argument. -/
theorem Converted.filled (h : Converted w codes argument values)
    (hlength : outputs.length = codes.length) (hletters : AllPass letterFailure codes outputs) :
    Filled w codes argument outputs (storeAll values outputs) where
  length := by
    have hsame : ∀ i : Nat, (storeAll values outputs)[i]? = none ↔ outputs[i]? = none := by
      intro i
      rw [getElem?_storeAll, Option.map_eq_none_iff]
    simp only [List.getElem?_eq_none_iff] at hsame
    have hle := (hsame outputs.length).2 (Nat.le_refl _)
    have hge := (hsame (storeAll values outputs).length).1 (Nat.le_refl _)
    omega
  kept i hargument := by
    rw [getElem?_storeAll]
    by_cases hi : i < codes.length
    · rw [h.absent i hi hargument]
      cases outputs[i]? <;> rfl
    · have hnone : outputs[i]? = none := List.getElem?_eq_none_iff.2 (by omega)
      rw [hnone]
      rfl
  stored i code item output hcode hargument houtput := by
    obtain ⟨value, hconvert, hvalue⟩ := h.present i code item hcode hargument
    refine ⟨value, hconvert, by rw [getElem?_storeAll, houtput, hvalue]; rfl, fun hdeclared => ?_⟩
    -- the letter of the output is that of the code, and no two codes have the same
    have hletter : output.letter = code.char := by
      have hpass := hletters i code output hcode houtput
      rw [letterFailure] at hpass
      split at hpass
      · assumption
      · cases hpass
    have hold : ∀ old, output.content = some old → old.code = value.code := by
      intro old hcontent
      rw [code_of_ofObject hconvert]
      exact code_eq_of_char ((hdeclared old hcontent).trans hletter)
    exact ⟨Output.store_eq_holding hold, hold⟩

/-! ### Formats and outputs -/

variable {w' : World} {text : String} {format : ExtractFormat}

/-- The outputs go with the format that a text is. -/
structure Agrees (text : String) (outputs : List Output) (format : ExtractFormat) : Prop where
  parse : ExtractFormat.parse text = .ok format
  length : outputs.length = format.length
  letters : AllPass letterFailure format.codes outputs

/-- Why a format or the outputs are refused before any argument is looked
at. -/
inductive OutputsRefusal (text : String) (outputs : List Output) : ApiError → Prop
  | format {e : ApiError} (h : ExtractFormat.parse text = .error e) : OutputsRefusal text outputs e
  | count {format : ExtractFormat} (hparse : ExtractFormat.parse text = .ok format)
      (h : outputs.length ≠ format.length) :
      OutputsRefusal text outputs (.badFormat text (toString format.length ++ " codes but "
        ++ toString outputs.length ++ " output slots"))
  | letter {format : ExtractFormat} {e : ApiError} (hparse : ExtractFormat.parse text = .ok format)
      (hlength : outputs.length = format.length)
      (h : FailsFirst letterFailure format.codes outputs e) : OutputsRefusal text outputs e

/-- Outputs agree with a format, or there is an error that says why not. -/
theorem agrees_or_refused (text : String) (outputs : List Output) :
    (∃ format, Agrees text outputs format) ∨ ∃ e, OutputsRefusal text outputs e := by
  cases hparse : ExtractFormat.parse text with
  | error e => exact .inr ⟨e, .format hparse⟩
  | ok format =>
    by_cases hlength : outputs.length = format.length
    · cases hletters : firstFailure letterFailure 0 format.codes outputs with
      | none => exact .inl ⟨format, hparse, hlength, allPass_of_firstFailure hletters⟩
      | some e => exact .inr ⟨e, .letter hparse hlength (failsFirst_of_firstFailure hletters)⟩
    · exact .inr ⟨_, .count hparse hlength⟩

variable {take : ExtractFormat → Except ApiError Extracted}

/-- A parse whose outputs are refused stores nothing and reports nothing. -/
theorem OutputsRefusal.parseWith (h : OutputsRefusal text outputs e) :
    parseWith w text outputs take = ((.error e, outputs), w) := by
  cases h with
  | format h => simp only [Argument.parseWith, h]
  | count hparse h => simp only [Argument.parseWith, hparse, checkOutputs, if_neg h]
  | letter hparse hlength h =>
    simp only [Argument.parseWith, hparse, checkOutputs, if_pos hlength, firstMismatch_eq,
      h.firstFailure_eq]

/-- Once the outputs agree with the format, all depends on the
arguments. -/
theorem Agrees.parseWith (h : Agrees text outputs format) :
    parseWith w text outputs take =
      match take format with
      | .error e => ((.error e, outputs), w.report (failureEvent format e))
      | .ok values => ((.ok (), storeAll values outputs), w) := by
  cases htake : take format with
  | error e =>
    simp only [Argument.parseWith, h.parse, checkOutputs, if_pos h.length, firstMismatch_eq,
      h.letters.firstFailure_eq, htake]
  | ok values =>
    simp only [Argument.parseWith, h.parse, checkOutputs, if_pos h.length, firstMismatch_eq,
      h.letters.firstFailure_eq, htake]

/-- How a parse ends: with all values stored, or with the outputs as they
were. Either way no object is touched; at most an event is reported. -/
inductive Outcome (w : World) (outputs : List Output)
    (accepts : List FormatCode → (Nat → Option Ref) → Prop) (refuses : ApiError → Prop) :
    (Except ApiError Unit × List Output) × World → Prop
  | stored {codes : List FormatCode} {argument : Nat → Option Ref} {outputs' : List Output}
      (haccepts : accepts codes argument) (hfilled : Filled w codes argument outputs outputs') :
      Outcome w outputs accepts refuses ((.ok (), outputs'), w)
  | refused {e : ApiError} {w' : World} (hrefuses : refuses e)
      (hdepart : w' = w ∨ ∃ event, w' = w.report event) :
      Outcome w outputs accepts refuses ((.error e, outputs), w')

/-! ### Arguments by position -/

/-- A tuple that has an argument for each required code and none too
many, each slot filled with something that converts. -/
structure TupleAccepted (w : World) (args : Ref) (text : String) (outputs : List Output)
    (format : ExtractFormat) (slots : List (Option Ref)) : Prop where
  agrees : Agrees text outputs format
  tuple : Box.tupleSlots w args = .ok slots
  enough : format.required ≤ slots.length
  fit : slots.length ≤ format.length
  convert : AllPass (slotFailure w) format.codes slots

/-- Why a tuple of arguments is refused: the first check that fails. -/
inductive TupleRefusal (w : World) (args : Ref) (text : String) (outputs : List Output) :
    ApiError → Prop
  | outputs {e : ApiError} (h : OutputsRefusal text outputs e) :
      TupleRefusal w args text outputs e
  | tuple {format : ExtractFormat} {e : ApiError} (hagrees : Agrees text outputs format)
      (h : Box.tupleSlots w args = .error e) : TupleRefusal w args text outputs e
  | arity {format : ExtractFormat} {slots : List (Option Ref)}
      (hagrees : Agrees text outputs format) (hslots : Box.tupleSlots w args = .ok slots)
      (h : slots.length < format.required ∨ format.length < slots.length) :
      TupleRefusal w args text outputs (.arity format.required format.length slots.length)
  | argument {format : ExtractFormat} {slots : List (Option Ref)} {e : ApiError}
      (hagrees : Agrees text outputs format) (hslots : Box.tupleSlots w args = .ok slots)
      (henough : format.required ≤ slots.length) (hfit : slots.length ≤ format.length)
      (h : FailsFirst (slotFailure w) format.codes slots e) : TupleRefusal w args text outputs e

variable {args : Ref} {slots : List (Option Ref)}

/-- Arguments that are no tuple are refused with the error of reading the tuple. -/
theorem extractUnder_error (h : Box.tupleSlots w args = .error e) :
    extractUnder w format args = .error e := by
  rw [extractUnder, h]
  rfl

/-- The number of arguments is checked before any of them is converted. -/
theorem extractUnder_ok (h : Box.tupleSlots w args = .ok slots) :
    extractUnder w format args =
      if slots.length < format.required ∨ format.length < slots.length then
        .error (.arity format.required format.length slots.length)
      else convertSlots w 0 format.codes slots := by
  rw [extractUnder, h]
  rfl

/-- The refusal is the answer, and no output has changed. -/
theorem TupleRefusal.parseTuple (h : TupleRefusal w args text outputs e) :
    ∃ w', parseTuple w args text outputs = ((.error e, outputs), w') ∧
      (w' = w ∨ ∃ event, w' = w.report event) := by
  cases h with
  | outputs h => exact ⟨w, h.parseWith, .inl rfl⟩
  | @tuple format e hagrees h =>
    refine ⟨w.report (failureEvent format e), ?_, .inr ⟨_, rfl⟩⟩
    rw [Argument.parseTuple, hagrees.parseWith, extractUnder_error h]
  | @arity format slots hagrees hslots h =>
    refine ⟨w.report (failureEvent format (.arity format.required format.length slots.length)), ?_,
      .inr ⟨_, rfl⟩⟩
    rw [Argument.parseTuple, hagrees.parseWith, extractUnder_ok hslots, if_pos h]
  | @argument format slots e hagrees hslots henough hfit h =>
    refine ⟨w.report (failureEvent format e), ?_, .inr ⟨_, rfl⟩⟩
    rw [Argument.parseTuple, hagrees.parseWith, extractUnder_ok hslots, if_neg (by omega)]
    rcases convertSlots_eq (w := w) 0 _ _ with ⟨e', hfails, herror⟩ | ⟨hpass, -⟩
    · rw [h.firstFailure_eq] at hfails
      cases hfails
      rw [herror]
    · rw [h.firstFailure_eq] at hpass
      cases hpass

/-- A tuple that passes all checks has its arguments stored. -/
theorem TupleAccepted.parseTuple (h : TupleAccepted w args text outputs format slots) :
    ∃ outputs', parseTuple w args text outputs = ((.ok (), outputs'), w) ∧
      Filled w format.codes (fun i => slots[i]?.join) outputs outputs' := by
  have hfit := h.fit
  have henough := h.enough
  rcases convertSlots_eq (w := w) 0 format.codes slots with ⟨e, hfails, -⟩ |
    ⟨-, values, hvalues, hconverted⟩
  · rw [h.convert.firstFailure_eq] at hfails
    cases hfails
  · refine ⟨storeAll values outputs, ?_, hconverted.filled h.agrees.length h.agrees.letters⟩
    rw [Argument.parseTuple, h.agrees.parseWith, extractUnder_ok h.tuple, if_neg (by omega),
      hvalues]

/-- A tuple is taken apart, or there is an error that says why not. -/
theorem tupleAccepted_or_refused (w : World) (args : Ref) (text : String) (outputs : List Output) :
    (∃ format slots, TupleAccepted w args text outputs format slots) ∨
      ∃ e, TupleRefusal w args text outputs e := by
  rcases agrees_or_refused text outputs with ⟨format, hagrees⟩ | ⟨e, h⟩
  · cases hslots : Box.tupleSlots w args with
    | error e => exact .inr ⟨e, .tuple hagrees hslots⟩
    | ok slots =>
      by_cases harity : slots.length < format.required ∨ format.length < slots.length
      · exact .inr ⟨_, .arity hagrees hslots harity⟩
      · have henough : format.required ≤ slots.length := by omega
        have hfit : slots.length ≤ format.length := by omega
        cases hconvert : firstFailure (slotFailure w) 0 format.codes slots with
        | none =>
          exact .inl
            ⟨format, slots, hagrees, hslots, henough, hfit, allPass_of_firstFailure hconvert⟩
        | some e =>
          exact .inr ⟨e, .argument hagrees hslots henough hfit
            (failsFirst_of_firstFailure hconvert)⟩
  · exact .inr ⟨e, .outputs h⟩

/-- How a parse of a tuple of arguments ends. -/
theorem parseTuple_outcome (w : World) (args : Ref) (text : String) (outputs : List Output) :
    Outcome w outputs
      (fun codes argument => ∃ format slots, TupleAccepted w args text outputs format slots ∧
        codes = format.codes ∧ argument = fun i => slots[i]?.join)
      (TupleRefusal w args text outputs) (parseTuple w args text outputs) := by
  rcases tupleAccepted_or_refused w args text outputs with ⟨format, slots, haccepted⟩ |
    ⟨e, hrefusal⟩
  · obtain ⟨outputs', hparse, hfilled⟩ := haccepted.parseTuple
    rw [hparse]
    exact .stored ⟨format, slots, haccepted, rfl, rfl⟩ hfilled
  · obtain ⟨w', hparse, hdepart⟩ := hrefusal.parseTuple
    rw [hparse]
    exact .refused hrefusal hdepart

end Argument

end ExtensionHost
