import ExtensionHost.Argument.Build
import ExtensionHost.Method.Dispatch
import ExtensionHost.Proofs.Argument.Pairs
import ExtensionHost.Proofs.Format.Extraction
import ExtensionHost.Proofs.Format.Grammar
import ExtensionHost.Proofs.Object.Refusals

/-!
# `ExtensionHost.Proofs.Method.Arity`: what a wrong number of arguments is reported as

A refusal for the number of arguments tells how many there were and how many
there may be. It is `Truthful` when the one number lies outside the range of
the others. Everything that counts arguments of one sort is refused
truthfully: positional arguments, values to put together, members of a pair,
arguments of a call.

With arguments by name the two sorts are added up, and the sum is also what
a call is told that leaves out a position without a name. There an argument
for an optional position can stand in for the one that is missing, and bring the
sum into the range (`arity_namedOptional`). This is the one exception
(`CountsAll`). Fewer than the least number of arguments are for required positions
even then.
-/

set_option autoImplicit false

namespace ExtensionHost

open Argument

/-- The number of arguments that is reported lies outside the range that is
reported with it. -/
def ApiError.Truthful : ApiError → Prop
  | .arity least most found => least ≤ most ∧ (found < least ∨ most < found)
  | _ => True

/-- An error that tells no number tells no wrong one. -/
theorem NoArity.truthful {e : ApiError} (h : NoArity e) : e.Truthful := by
  cases e with
  | arity => exact absurd rfl h
  | _ => trivial

/-! ### Formats -/

/-- Reading a format tells no number of arguments. -/
theorem ExtractFormat.refusedOnly_parse (text : String) :
    RefusedOnly NoArity (ExtractFormat.parse text) := by
  intro e he
  obtain ⟨reason, -, rfl⟩ := ExtractFormat.parse_eq_error_iff.1 he
  exact nofun

/-- Reading the format of values tells no number of arguments. -/
theorem BuildFormat.refusedOnly_parse (text : String) :
    RefusedOnly NoArity (BuildFormat.parse text) := by
  intro e he
  obtain ⟨reason, -, rfl⟩ := BuildFormat.parse_eq_error_iff.1 he
  exact nofun

namespace Argument

variable {w : World} {names : List String} {given required : Nat} {entries : KeywordEntries}
  {source : KeywordSource}
  {slots : List (Option Ref)} {format : ExtractFormat} {args : Ref} {text : String} {e : ApiError}

/-! ### Arguments by position -/

/-- Converting an object tells no number of arguments. -/
theorem refusedOnly_ofObject (w : World) (code : FormatCode) (r : Ref) :
    RefusedOnly NoArity (Native.ofObject w code r) := by
  cases code with
  | text => exact (Box.refusedOnly_terminatedText w r).map _
  | int | long | longLong => exact (Box.refusedOnly_native w r _).map _
  | double | float => exact (Box.refusedOnly_real w r).map _
  | object => exact .ok _

/-- Converting slots tells no number of arguments. -/
theorem refusedOnly_convertSlots (w : World) (codes : List FormatCode) (index : Nat)
    (slots : List (Option Ref)) : RefusedOnly NoArity (convertSlots w index codes slots) := by
  induction codes generalizing index slots with
  | nil => exact .ok _
  | cons code codes ih =>
    cases slots with
    | nil => exact (ih _ _).bind fun _ _ => .ok _
    | cons slot slots =>
      cases slot with
      | none => exact .error nofun
      | some item =>
        exact (refusedOnly_ofObject w code item).bind fun _ _ => (ih _ _).bind fun _ _ => .ok _

/-- The number of arguments is compared with the range of the format. -/
theorem truthful_extractUnder (w : World) (args : Ref)
    (hformat : ExtractFormat.parse text = .ok format) :
    RefusedOnly ApiError.Truthful (extractUnder w format args) := by
  refine ((Box.refusedOnly_tupleSlots w args).imp fun _ => NoArity.truthful).bind fun slots _ => ?_
  split
  · next hcount => exact .error ⟨required_le_length hformat, hcount⟩
  · exact (refusedOnly_convertSlots w _ _ _).imp fun _ => NoArity.truthful

/-- A tuple is refused with the number of arguments that it has, which is out of range. -/
theorem truthful_extract (w : World) (args : Ref) (text : String) :
    RefusedOnly ApiError.Truthful (extract w args text) :=
  ((ExtractFormat.refusedOnly_parse text).imp fun _ => NoArity.truthful).bind
    fun _ hformat => truthful_extractUnder w args hformat

/-- Checking outputs tells no number of arguments. -/
theorem refusedOnly_checkOutputs (format : ExtractFormat) (text : String)
    (outputs : List Output) : RefusedOnly NoArity (checkOutputs format text outputs) := by
  have hmismatch : ∀ (codes : List FormatCode) (outputs : List Output) (position : Nat) e,
      firstMismatch position codes outputs = some e → NoArity e := by
    intro codes
    induction codes with
    | nil => intro outputs position e h; cases h
    | cons code codes ih =>
      intro outputs position e h
      cases outputs with
      | nil => cases h
      | cons output outputs =>
        rw [firstMismatch] at h
        split at h
        · exact ih _ _ _ h
        · cases h
          rintro ⟨⟩
  rw [checkOutputs]
  split
  · split
    · next e h => exact .error (hmismatch _ _ _ e h)
    · exact .ok _
  · exact .error (by rintro ⟨⟩)

/-- Parsing into outputs is refused for what its values are, or before it
comes to them. -/
theorem refusedOnly_parseWith {P : ApiError → Prop} (hP : ∀ e, NoArity e → P e) (w : World)
    (outputs : List Output) {values : ExtractFormat → Except ApiError Extracted}
    (hvalues : ∀ format, ExtractFormat.parse text = .ok format → RefusedOnly P (values format)) :
    RefusedOnly P (parseWith w text outputs values).1.1 := by
  rw [parseWith]
  split
  · next e h => exact .error (hP e (ExtractFormat.refusedOnly_parse text e h))
  · next format hformat =>
    split
    · next e h => exact .error (hP e (refusedOnly_checkOutputs format text outputs e h))
    · split
      · next e h => exact .error (hvalues format hformat e h)
      · exact .ok _

/-- A parse refuses a tuple with the number of arguments that it has. -/
theorem truthful_parseTuple (w : World) (args : Ref) (text : String) (outputs : List Output) :
    RefusedOnly ApiError.Truthful (parseTuple w args text outputs).1.1 :=
  refusedOnly_parseWith (fun _ => NoArity.truthful) w outputs
    fun _ hformat => truthful_extractUnder w args hformat

/-! ### Values to put together -/

/-- Values are refused with the number that there are, which is not the one that is
asked for. -/
theorem truthful_checkValues (format : BuildFormat) (values : List Native) :
    RefusedOnly ApiError.Truthful (checkValues format values) := by
  have hother : ∀ (codes : List FormatCode) (values : List Native) (position : Nat) e,
      firstOtherCode position codes values = some e → e.Truthful := by
    intro codes
    induction codes with
    | nil => intro values position e h; cases h
    | cons code codes ih =>
      intro values position e h
      cases values with
      | nil => cases h
      | cons value values =>
        rw [firstOtherCode] at h
        split at h
        · exact ih _ _ _ h
        · cases h
          trivial
  rw [checkValues]
  split
  · split
    · next e h => exact .error (hother _ _ _ e h)
    · exact .ok _
  · next hcount => exact .error ⟨Nat.le_refl _, by omega⟩

/-- Boxing a value tells no number of arguments. -/
theorem refusedOnly_boxNative (value : Native) :
    Attempt.RefusedOnly NoArity (boxNative value) := by
  cases value with
  | text value =>
    cases value with
    | none => exact .lift _
    | some text => exact Box.refusedOnly_newText text
  | int | long | longLong | double | float => exact Object.refusedOnly_allocate _ _ _
  | object pointer =>
    cases pointer with
    | none => exact .throw nofun
    | some r => exact (Attempt.RefusedOnly.lift _).bind fun _ => .pure r

/-- An item without a value is one argument too few. -/
theorem truthful_buildCode (values : List Native) :
    Attempt.RefusedOnly ApiError.Truthful (buildCode values) := by
  cases values with
  | nil => exact .throw ⟨Nat.le_refl 1, .inl Nat.zero_lt_one⟩
  | cons value rest =>
    exact ((refusedOnly_boxNative value).imp fun _ => NoArity.truthful).bind fun _ => .pure _

mutual

/-- An item that is built refuses values with a true number. -/
theorem truthful_buildItem : (item : BuildItem) → (values : List Native) →
    Attempt.RefusedOnly ApiError.Truthful (buildItem item values)
  | .code _, values => truthful_buildCode values
  | .group items, values =>
    ((Object.refusedOnly_newSized _ _ _).imp fun _ => NoArity.truthful).bind fun r =>
      Attempt.RefusedOnly.consuming
        ((truthful_buildMembers items r 0 values).bind fun _ => .pure _) r

/-- The members of a group refuse values with a true number. -/
theorem truthful_buildMembers : (items : List BuildItem) → (r : Ref) → (index : Nat) →
    (values : List Native) →
      Attempt.RefusedOnly ApiError.Truthful (buildMembers r index items values)
  | [], _, _, values => .pure values
  | item :: items, r, index, values =>
    (truthful_buildItem item values).bind fun (member, values) =>
      ((Box.refusedOnly_setTupleItem r index member).imp fun _ => NoArity.truthful).bind fun _ =>
        truthful_buildMembers items r (index + 1) values

end

/-- Building refuses values with a true number. -/
theorem truthful_build (text : String) (values : List Native) :
    Attempt.RefusedOnly ApiError.Truthful (build text values) := by
  refine (Attempt.RefusedOnly.ofExcept
    ((BuildFormat.refusedOnly_parse text).imp fun _ => NoArity.truthful)).bind fun format => ?_
  refine (Attempt.RefusedOnly.ofExcept (truthful_checkValues format values)).bind fun _ => ?_
  split
  · exact .lift _
  · exact (truthful_buildItem _ values).bind fun _ => .pure _
  · exact (truthful_buildItem _ values).bind fun _ => .pure _

/-! ### Pairs -/

/-- A pair is refused with the number of its slots, if it has not two. -/
theorem truthful_keywordEntry (w : World) (pair : Ref) :
    RefusedOnly ApiError.Truthful (keywordEntry w pair) := by
  refine ((Box.refusedOnly_tupleLength w pair).imp fun _ => NoArity.truthful).bind
    fun length _ => ?_
  split
  · have hmembers : RefusedOnly NoArity (do
        let name ← Box.text w (← Box.tupleItem w pair 0)
        let value ← Box.tupleItem w pair 1
        return (name, value)) :=
      (Box.refusedOnly_tupleItem w pair 0).bind fun key _ =>
        (Box.refusedOnly_text w key).bind fun name _ =>
          (Box.refusedOnly_tupleItem w pair 1).bind fun value _ => .ok _
    exact hmembers.imp fun _ => NoArity.truthful
  · next hlength => exact .error ⟨Nat.le_refl 2, by omega⟩

/-- Pairs are refused as the first of them that cannot be read. -/
theorem truthful_keywordEntriesOfSlots (w : World) (slots : List (Option Ref)) (index : Nat) :
    RefusedOnly ApiError.Truthful (keywordEntriesOfSlots w index slots) := by
  induction slots generalizing index with
  | nil => exact .ok _
  | cons slot slots ih =>
    cases slot with
    | none => exact .error trivial
    | some pair =>
      exact (truthful_keywordEntry w pair).bind fun _ _ => (ih (index + 1)).bind fun _ _ => .ok _

/-- A source of pairs is refused with true numbers. -/
theorem truthful_keywordEntries (w : World) (pairs : Ref) :
    RefusedOnly ApiError.Truthful (keywordEntries w pairs) :=
  ((Box.refusedOnly_sequenceSlots w pairs).imp fun _ => NoArity.truthful).bind
    fun slots _ => truthful_keywordEntriesOfSlots w slots 0

/-! ### Arguments by name -/

/-- How many arguments by name are for positions that are required. -/
def requiredNamed (names : List String) (required : Nat) (entries : KeywordEntries) : Nat :=
  entries.countP fun entry => (keywordPosition? names entry.1).any (· < required)

/-- A required position is left out that has no name, and an argument for an
optional position is counted in its stead. The arguments for required positions
are too few all the same. -/
structure StandsIn (names : List String) (given : Nat) (entries : KeywordEntries)
    (required : Nat) : Prop where
  position : ∃ i, given ≤ i ∧ i < required ∧ names[i]? = some ""
  few : given + requiredNamed names required entries < required
  optional : ∃ entry ∈ entries, ∃ i, Hits names i entry ∧ required ≤ i

/-- The arguments that are counted are those by position and those by name, and
their number lies outside the range of the format, unless an argument for an
optional position stands in for one that is left out. -/
structure CountsAll (w : World) (args : Ref) (text : String) (names : List String)
    (source : KeywordSource) (least most found : Nat) : Prop where
  range : least ≤ most
  counted : ∃ format slots entries, ExtractFormat.parse text = .ok format ∧
    Box.tupleSlots w args = .ok slots ∧ source.read w = .ok entries ∧
    least = format.required ∧ most = format.length ∧ found = slots.length + entries.length ∧
    (found < least ∨ most < found ∨ StandsIn names slots.length entries least)

/-- What a refusal for the number of arguments says when there are arguments by
name. -/
def CountsKeywords (w : World) (args : Ref) (text : String) (names : List String)
    (source : KeywordSource) : ApiError → Prop
  | .arity least most found => CountsAll w args text names source least most found
  | _ => True

/-- An error that tells no number is accounted for. -/
theorem NoArity.countsKeywords (h : NoArity e) : CountsKeywords w args text names source e := by
  cases e with
  | arity => exact absurd rfl h
  | _ => trivial

/-- A refusal is that of the source of the arguments by name, or says what their
number is. -/
def Accounted (w : World) (args : Ref) (text : String) (names : List String)
    (source : KeywordSource) (e : ApiError) : Prop :=
  source.read w = .error e ∨ CountsKeywords w args text names source e

/-- Arguments for required positions leave the position out that has none. -/
theorem Resolved.few (h : Resolved names given entries) {i : Nat} (hgiven : given ≤ i)
    (hi : i < required) (hfree : ∀ entry ∈ entries, ¬ Hits names i entry) :
    given + requiredNamed names required entries < required := by
  have hle := h.length_le_of_hits List.filter_sublist
    ((List.range' given (required - given)).erase i) fun entry hmem => by
      obtain ⟨hmem, hchosen⟩ := List.mem_filter.1 hmem
      obtain ⟨j, hj, hle⟩ := h.resolves entry hmem
      change (keywordPosition? names entry.1).any (· < required) at hchosen
      rw [keywordPosition?_eq_some_iff.2 hj, Option.any_some, decide_eq_true_eq] at hchosen
      have hne : j ≠ i := fun heq => hfree entry hmem (heq ▸ hj)
      exact ⟨j, (List.mem_erase_of_ne hne).2 (List.mem_range'_1.2 (by omega)), hj⟩
  rw [List.length_erase_of_mem (List.mem_range'_1.2 (by omega)), List.length_range',
    ← List.countP_eq_length_filter] at hle
  change requiredNamed names required entries ≤ _ at hle
  omega

/-- The number of all arguments is too small as well when a position without a
name is left out, unless one of them is for an optional position. -/
theorem Resolved.leavesOut (h : Resolved names given entries) {i : Nat} (hgiven : given ≤ i)
    (hi : i < required) (hname : names[i]? = some "")
    (hfree : ∀ entry ∈ entries, ¬ Hits names i entry) :
    given + entries.length < required ∨ StandsIn names given entries required := by
  have hfew := h.few hgiven hi hfree
  by_cases hoptional : ∃ entry ∈ entries, ∃ j, Hits names j entry ∧ required ≤ j
  · exact .inr ⟨⟨i, hgiven, hi, hname⟩, hfew, hoptional⟩
  · have hall : requiredNamed names required entries = entries.length := by
      refine List.countP_eq_length.2 fun entry hmem => ?_
      obtain ⟨j, hj, -⟩ := h.resolves entry hmem
      rw [keywordPosition?_eq_some_iff.2 hj, Option.any_some, decide_eq_true_eq]
      exact Nat.lt_of_not_le fun hle => hoptional ⟨entry, hmem, j, hj, hle⟩
    exact .inl (hall ▸ hfew)

/-- Arguments by position and by name are refused for their number if there are
too many by position, or if a position is left out that has no name. -/
theorem accounted_extractKeywords (w : World) (args : Ref) (source : KeywordSource)
    (text : String) (names : List String) :
    RefusedOnly (Accounted w args text names source)
      (extractKeywords w args source text names) := by
  intro e he
  cases extractKeywords_eq_error_iff.1 he with
  | format h => exact .inr (NoArity.countsKeywords (ExtractFormat.refusedOnly_parse text e h))
  | count => exact .inr trivial
  | tuple _ _ h => exact .inr (NoArity.countsKeywords (Box.refusedOnly_tupleSlots w args e h))
  | source _ _ _ h => exact .inl h
  | @arity format slots entries hformat _ hslots hread h =>
    exact .inr
      ⟨required_le_length hformat, format, slots, entries, hformat, hslots, hread, rfl, rfl,
      rfl, .inr (.inl (Nat.lt_add_right _ h))⟩
  | entry _ _ _ _ _ h =>
    obtain ⟨before, entry, after, -, -, hrefused⟩ := h
    cases hrefused <;> exact .inr trivial
  | @position format slots entries e hformat hcount hslots hread hroom hentries h =>
    obtain ⟨i, -, hrefused, -⟩ := h
    refine .inr ?_
    cases hrefused with
    | unset => trivial
    | unconverted _ _ h => exact NoArity.countsKeywords (refusedOnly_ofObject w _ _ e h)
    | @missing name hname hrequired hset habsent =>
      rw [missingArgument]
      split
      · next hempty =>
        subst hempty
        -- the position is behind the slots, for a slot has an occupant
        have hgiven : slots.length ≤ i := by
          by_contra hlt
          have hslot : i < slots.length := Nat.lt_of_not_le hlt
          have hget := List.getElem?_eq_getElem hslot
          cases hoccupant : slots[i] with
          | none => exact hset (hget.trans (congrArg some hoccupant))
          | some item => exact habsent item (.slot (hget.trans (congrArg some hoccupant)))
        have hfree : ∀ entry ∈ entries, ¬ Hits names i entry :=
          fun entry hmem hhit => habsent entry.2 (.named hmem hhit)
        exact ⟨required_le_length hformat, format, slots, entries, hformat, hslots, hread, rfl, rfl,
          rfl, (hentries.leavesOut hgiven hrequired hname hfree).imp_right .inr⟩
      · trivial

/-- The parse that stores tells the same numbers as the one that answers. -/
theorem accounted_parseTupleAndKeywords (w : World) (args : Ref) (source : KeywordSource)
    (text : String) (names : List String) (outputs : List Output) :
    RefusedOnly (Accounted w args text names source)
      (parseTupleAndKeywords w args source text names outputs).1.1 := by
  refine refusedOnly_parseWith (fun _ h => .inr (NoArity.countsKeywords h)) w outputs
    fun format hformat => ?_
  have hunder : extractKeywords w args source text names =
      extractKeywordsUnder w format text names args source := by
    rw [extractKeywords, hformat]
    rfl
  exact hunder ▸ accounted_extractKeywords w args source text names

/-- None of the arguments that the source gives is for an optional position. -/
def OnlyRequired (w : World) (text : String) (names : List String) (source : KeywordSource) :
    Prop :=
  ∀ format entries, ExtractFormat.parse text = .ok format → source.read w = .ok entries →
    ∀ entry ∈ entries, ∀ i, Hits names i entry → i < format.required

/-- Without arguments for optional positions the number is truthful, if the source is. -/
theorem Accounted.truthful (h : Accounted w args text names source e)
    (hsource : RefusedOnly ApiError.Truthful (source.read w))
    (hrequired : OnlyRequired w text names source) : e.Truthful := by
  rcases h with hread | hcounts
  · exact hsource e hread
  cases e with
  | arity least most found =>
    obtain ⟨hrange, format, slots, entries, hformat, -, hread, rfl, rfl, rfl,
      hless | hmore | hinstead⟩ := hcounts
    · exact ⟨hrange, .inl hless⟩
    · exact ⟨hrange, .inr hmore⟩
    · obtain ⟨entry, hmem, i, hi, hoptional⟩ := hinstead.optional
      exact absurd (hrequired format entries hformat hread entry hmem i hi)
        (Nat.not_lt.2 hoptional)
  | _ => trivial

end Argument

/-! ### Calls -/

namespace Method

/-- Looking at the arguments by name tells no number of arguments. -/
theorem refusedOnly_namedArguments (w : World) (keywords : Option Ref) :
    RefusedOnly NoArity (namedArguments w keywords) := by
  cases keywords with
  | none => exact .ok _
  | some keywords => exact (Box.refusedOnly_sequenceSlots w keywords).bind fun _ _ => .ok _

/-- The check of the arguments by name tells true numbers. -/
theorem truthful_checkKeywords (w : World) (method : Method) (keywords : Option Ref) :
    RefusedOnly ApiError.Truthful (checkKeywords w method keywords) := by
  cases keywords with
  | none => exact .ok _
  | some keywords =>
    refine ((truthful_keywordEntries w keywords).bind fun _ _ => .ok _).bind
      fun source hsource => ?_
    obtain ⟨-, -, rfl⟩ := except_map_eq_ok.1 hsource
    split
    · exact .ok _
    · exact (truthful_keywordEntries w keywords).bind fun entries _ => .error trivial

/-- Counting the arguments tells no number of arguments that would be wrong. -/
theorem refusedOnly_argumentCount (w : World) (arguments : Option Ref) :
    RefusedOnly NoArity (argumentCount w arguments) := by
  cases arguments with
  | none => exact .ok _
  | some arguments => exact Box.refusedOnly_tupleLength w arguments

/-- A convention that fixes the number of arguments refuses every other one. -/
theorem truthful_run (method : Method) (receiver keywords : Option Ref) {arguments : Option Ref}
    {count : Nat} (hcount : arguments = none → count = 0) :
    Attempt.RefusedOnly ApiError.Truthful (method.run receiver arguments keywords count) := by
  unfold run
  cases method.convention with
  | noArgs =>
    dsimp only
    split
    · exact .lift _
    · exact .throw ⟨Nat.le_refl 0, by omega⟩
  | object =>
    cases arguments with
    | none => exact .throw ⟨Nat.le_refl 1, .inl (hcount rfl ▸ Nat.zero_lt_one)⟩
    | some arguments =>
      rcases count with - | - | count
      · exact .throw ⟨Nat.le_refl 1, .inl Nat.zero_lt_one⟩
      · exact (Attempt.RefusedOnly.read fun w => (Box.refusedOnly_tupleItem w arguments 0).imp
          fun _ => NoArity.truthful).bind fun _ => .lift _
      · exact .throw ⟨Nat.le_refl 1, .inr (by omega)⟩
  | varArgs | varArgsKeywords =>
    cases arguments with
    | some arguments => exact .lift _
    | none =>
      exact ((Object.refusedOnly_newSized _ _ _).imp fun _ => NoArity.truthful).bind fun _ =>
        (Attempt.RefusedOnly.lift _).bind fun _ => (Attempt.RefusedOnly.lift _).bind fun _ =>
          .pure _

/-- What the function of a method answers is no refusal for the number of
arguments, so those there are come from the checks of the call. -/
theorem truthful_call (method : Method) (receiver arguments keywords : Option Ref) :
    Attempt.RefusedOnly ApiError.Truthful (method.call receiver arguments keywords) := by
  refine .read_bind (fun w => (refusedOnly_argumentCount w arguments).imp
    fun _ => NoArity.truthful) fun w count hcount => ?_
  refine (Attempt.RefusedOnly.read fun w => (refusedOnly_namedArguments w keywords).imp
    fun _ => NoArity.truthful).bind fun keywords => ?_
  refine (Attempt.RefusedOnly.read fun w => truthful_checkKeywords w method keywords).bind
    fun _ => (Attempt.RefusedOnly.lift _).bind fun _ => ?_
  refine (truthful_run method receiver keywords ?_).bind fun answer => ?_
  · rintro rfl
    cases hcount
    rfl
  · cases answer with
    | some answer => exact .pure _
    | none => exact .throw trivial

end Method

/-! ### Whatever the input -/

namespace Argument

/-- Every refusal for a number of arguments reports a range and a number outside it,
except when an argument for an optional position stands in for one without a name. A
source of arguments by name may be refused for reasons of its own while a call is
parsed; a list never is, and a box is refused truthfully. -/
theorem arities_truthful (w : World) :
    (∀ args text, RefusedOnly ApiError.Truthful (extract w args text)) ∧
    (∀ args text outputs, RefusedOnly ApiError.Truthful (parseTuple w args text outputs).1.1) ∧
    (∀ text values e w', (build text values).run w = .ok (.error e) w' → e.Truthful) ∧
    (∀ pairs, RefusedOnly ApiError.Truthful ((KeywordSource.boxed pairs).read w)) ∧
    (∀ entries, RefusedOnly ApiError.Truthful ((KeywordSource.listed entries).read w)) ∧
    (∀ (method : Method) receiver arguments keywords e w',
      (method.call receiver arguments keywords).run w = .ok (.error e) w' → e.Truthful) ∧
    ∀ args (source : KeywordSource) text names,
      RefusedOnly (Accounted w args text names source)
        (extractKeywords w args source text names) ∧
      (∀ outputs, RefusedOnly (Accounted w args text names source)
        (parseTupleAndKeywords w args source text names outputs).1.1) ∧
      (RefusedOnly ApiError.Truthful (source.read w) → OnlyRequired w text names source →
        RefusedOnly ApiError.Truthful (extractKeywords w args source text names) ∧
        ∀ outputs, RefusedOnly ApiError.Truthful
          (parseTupleAndKeywords w args source text names outputs).1.1) := by
  refine ⟨truthful_extract w, truthful_parseTuple w,
    fun text values => truthful_build text values w,
    truthful_keywordEntries w, fun entries => .ok entries, fun method receiver arguments keywords =>
      Method.truthful_call method receiver arguments keywords w, fun args source text names => ?_⟩
  -- calls with names have the exception, which comes down to a required position
  have hextract := accounted_extractKeywords w args source text names
  have hparse := accounted_parseTupleAndKeywords w args source text names
  exact ⟨hextract, hparse, fun hsource hrequired =>
    ⟨hextract.imp fun _ h => h.truthful hsource hrequired,
      fun outputs => (hparse outputs).imp fun _ h => h.truthful hsource hrequired⟩⟩

/-- Two positions are declared, the first without a name, and one argument is given for
the second, which is optional. -/
theorem arity_namedOptional :
    extractKeywords withPair 3 (.listed [("b", Ref.yes)]) "l|l" ["", "b"] =
        .error (.arity 1 2 1) ∧
      ¬ (ApiError.arity 1 2 1).Truthful :=
  ⟨rfl, by rintro ⟨-, hless | hmore⟩ <;> omega⟩

/-- The argument comes in a box, and both positions are required: the number of
arguments is too small. -/
theorem arities_truthful_withPair :
    RefusedOnly ApiError.Truthful ((KeywordSource.boxed 6).read withPair) ∧
      OnlyRequired withPair "ll" ["", "n"] (.boxed 6) ∧
      extractKeywords withPair 3 (.boxed 6) "ll" ["", "n"] = .error (.arity 2 2 1) ∧
      (ApiError.arity 2 2 1).Truthful := by
  have hrequired : OnlyRequired withPair "ll" ["", "n"] (.boxed 6) := by
    rintro format entries hformat - entry - i hi
    cases hformat
    exact Declares.lt hi
  have hrefused : extractKeywords withPair 3 (.boxed 6) "ll" ["", "n"] = .error (.arity 2 2 1) :=
    rfl
  obtain ⟨-, -, -, hboxed, -, -, hkeywords⟩ := arities_truthful withPair
  obtain ⟨-, -, htruthful⟩ := hkeywords 3 (.boxed 6) "ll" ["", "n"]
  exact ⟨hboxed 6, hrequired, hrefused, (htruthful (hboxed 6) hrequired).1 _ hrefused⟩

end Argument

end ExtensionHost
