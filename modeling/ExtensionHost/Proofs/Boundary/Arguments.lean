import ExtensionHost.Boundary.Arguments
import ExtensionHost.Proofs.Argument.Keywords

/-!
# `ExtensionHost.Proofs.Boundary.Arguments`: parsing for foreign code

The boundary functions check what they are passed before they parse: the
pointers and the texts in the order of the parameters, then the array of
outputs. A call that is refused answers zero and leaves every output as it
was, whichever check refuses it; one that is not answers one, with the
outputs filled. `parsing_allOrNothing` says so for all four ways to parse,
on both sides of the boundary.

The entry is reported before anything is checked. Reporting changes no
object (`tupleSlots_report` and the lemmas after it), so what is said of the
arguments is said of the world before the call.
-/

set_option autoImplicit false

namespace ExtensionHost

/-! ### Reports leave arguments alone -/

namespace Argument

variable (w : World) (event : Event)

/-- Events are no slots. -/
theorem tupleSlots_report : Box.tupleSlots (w.report event) = Box.tupleSlots w := rfl

/-- Events are no pairs. -/
theorem keywordEntries_report (pairs : Ref) :
    keywordEntries (w.report event) pairs = keywordEntries w pairs :=
  keywordEntries_congr rfl fun _ => rfl

/-- Conversion does not look at events. -/
theorem convertPlaced_report (format : ExtractFormat) (supplied index : Nat)
    (codes : List FormatCode) (names : List String) (slots placed : List (Option Ref)) :
    convertPlaced (w.report event) format supplied index codes names slots placed
      = convertPlaced w format supplied index codes names slots placed := by
  induction codes generalizing index names slots placed with
  | nil => rfl
  | cons code codes ih =>
    have hnext : convertNext (w.report event) = convertNext w := rfl
    simp only [convertPlaced_cons, hnext, ih]

/-- Taking arguments apart does not look at events. -/
theorem extractKeywordsUnder_report (format : ExtractFormat) (text : String) (names : List String)
    (args : Ref) (entries : KeywordEntries) :
    extractKeywordsUnder (w.report event) format text names args entries
      = extractKeywordsUnder w format text names args entries := by
  simp only [extractKeywordsUnder, KeywordSource.listed, tupleSlots_report, convertPlaced_report]

section
variable {w : World} {event : Event} {args : Ref} {text : String} {outputs : List Output}
  {format : ExtractFormat} {slots : List (Option Ref)} {entries : KeywordEntries}
  {names : List String} {e : ApiError} {source : KeywordSource}

/-- Outputs that are filled after a report are filled without it. -/
theorem Filled.of_report {codes : List FormatCode} {argument : Nat → Option Ref}
    {outputs' : List Output} (h : Filled (w.report event) codes argument outputs outputs') :
    Filled w codes argument outputs outputs' :=
  ⟨h.length, h.kept, h.stored⟩

/-- A tuple that is accepted after a report is accepted without it. -/
theorem TupleAccepted.of_report
    (h : TupleAccepted (w.report event) args text outputs format slots) :
    TupleAccepted w args text outputs format slots :=
  ⟨h.agrees, h.tuple, h.enough, h.fit, h.convert⟩

/-- A tuple that is refused after a report is refused without it. -/
theorem TupleRefusal.of_report (h : TupleRefusal (w.report event) args text outputs e) :
    TupleRefusal w args text outputs e := by
  cases h with
  | outputs h => exact .outputs h
  | tuple hagrees h => exact .tuple hagrees h
  | arity hagrees hslots h => exact .arity hagrees hslots h
  | argument hagrees hslots henough hfit h => exact .argument hagrees hslots henough hfit h

/-- Arguments by name that are accepted after a report are accepted without it. -/
theorem KeywordsAccepted.of_report
    (h : KeywordsAccepted (w.report event) args entries text names outputs format slots) :
    KeywordsAccepted w args entries text names outputs format slots :=
  ⟨h.agrees, h.declared, h.tuple, h.fit, h.filled, h.known, h.required⟩

/-- The arguments are what the source gives, wherever they were read. -/
theorem KeywordsRefusal.of_report (hread : source.read (w.report event) = .ok entries)
    (h : KeywordsRefusal (w.report event) args source text names outputs e) :
    KeywordsRefusal w args entries text names outputs e := by
  rw [KeywordsRefusal] at h ⊢
  simpa only [extractKeywordsUnder_of_read hread, extractKeywordsUnder_report] using h

end

end Argument

namespace Boundary

open Argument (Filled Outcome TupleAccepted TupleRefusal KeywordsAccepted KeywordsRefusal
  suppliedArgument)

variable {w w' : World} {entry : String} {e : ApiError}

/-! ### How a boundary function answers -/

/-- An attempt that is made for foreign code answers what it gives, or reports the error
and answers with the value for failure. -/
theorem run_reporting {α : Type} (entry : String) (failure : α) (attempt : Attempt α) (w : World) :
    reporting entry failure attempt w =
      match attempt.run w with
      | .ok (.ok a) w' => .ok a w'
      | .ok (.error e) w' => .ok failure (w'.report (.entryFailed entry e))
      | .error fault w' => .error fault w' := by
  show (attempt.run >>= _) w = _
  rw [Host.run_bind]
  cases attempt.run w with
  | ok answer w' => cases answer <;> rfl
  | error fault w' => rfl

/-- A parse answers 1 with the outputs that were stored to, or reports the error,
answers 0 and leaves the outputs. -/
theorem run_truth (outputs : List Output) (attempt : Attempt (List Output)) (w : World) :
    truth entry outputs attempt w =
      match attempt.run w with
      | .ok (.ok stored) w' => .ok (1, stored) w'
      | .ok (.error e) w' => .ok (0, outputs) (w'.report (.entryFailed entry e))
      | .error fault w' => .error fault w' := by
  rw [truth, run_reporting, Attempt.run_bind]
  cases attempt.run w with
  | ok answer w' => cases answer <;> rfl
  | error fault w' => rfl

/-- A parse keeps its outputs if it succeeds, and gives its error otherwise. -/
theorem run_parsing (parse : World → (Except ApiError Unit × List Output) × World) (w : World) :
    (parsing parse).run w =
      match parse w with
      | ((.ok (), outputs), w') => .ok (.ok outputs) w'
      | ((.error e, _), w') => .ok (.error e) w' := by
  have hget : (monadLift (modifyGet parse : Host _) : Attempt _).run w
      = .ok (.ok (parse w).1) (parse w).2 := rfl
  refine (Attempt.run_bind_ok hget _).trans ?_
  rcases parse w with ⟨⟨answer, outputs⟩, w'⟩
  cases answer <;> rfl

/-- How a parse for foreign code ends: the answer is one and the outputs
are filled, or it is zero and the outputs are as they were. Nothing but
events has come to the world. -/
inductive ParseOutcome (w : World) (entry : String) (slots : SlotArray Output)
    (accepts : List FormatCode → (Nat → Option Ref) → Prop) (refuses : ApiError → Prop) :
    EStateM.Result Fault World (Int × List Output) → Prop
  | stored {codes : List FormatCode} {argument : Nat → Option Ref} {outputs' : List Output}
      (haccepts : accepts codes argument)
      (hfilled : Filled w codes argument (outputsOf slots) outputs') :
      ParseOutcome w entry slots accepts refuses
        (.ok (1, outputs') (w.report (.entered entry slots.length)))
  | refused {e : ApiError} {w' : World} (hrefuses : refuses e)
      (hdepart : w' = w.report (.entered entry slots.length) ∨
        ∃ event, w' = (w.report (.entered entry slots.length)).report event) :
      ParseOutcome w entry slots accepts refuses
        (.ok (0, outputsOf slots) (w'.report (.entryFailed entry e)))

/-- Slots that can be read are the outputs that they describe. -/
theorem SlotArray.read_ok {slots : SlotArray Output} {outputs : List Output}
    (h : slots.read = .ok outputs) : outputs = outputsOf slots := by
  cases slots with
  | slots xs =>
    cases h
    rfl
  | null n =>
    cases n with
    | zero =>
      cases h
      rfl
    | succ n => cases h

section
variable {slots : SlotArray Output} {accepts : List FormatCode → (Nat → Option Ref) → Prop}
  {refuses : ApiError → Prop} {attempt : Attempt (List Output)}

/-- A check that fails refuses the call. -/
theorem ParseOutcome.of_refused
    (h : attempt.run (w.report (.entered entry slots.length))
      = .ok (.error e) (w.report (.entered entry slots.length)))
    (hrefuses : refuses e) :
    ParseOutcome w entry slots accepts refuses
      (truth entry (outputsOf slots) attempt (w.report (.entered entry slots.length))) := by
  rw [run_truth, h]
  exact .refused hrefuses (.inl rfl)

/-- A call whose checks pass ends as the parse does. -/
theorem ParseOutcome.of_outcome
    (parse : World → (Except ApiError Unit × List Output) × World)
    {accepts' : List FormatCode → (Nat → Option Ref) → Prop} {refuses' : ApiError → Prop}
    (h : attempt.run (w.report (.entered entry slots.length))
      = (parsing parse).run (w.report (.entered entry slots.length)))
    (houtcome : Outcome (w.report (.entered entry slots.length)) (outputsOf slots) accepts' refuses'
      (parse (w.report (.entered entry slots.length))))
    (haccepts : ∀ codes argument, accepts' codes argument → accepts codes argument)
    (hrefuses : ∀ e, refuses' e → refuses e) :
    ParseOutcome w entry slots accepts refuses
      (truth entry (outputsOf slots) attempt (w.report (.entered entry slots.length))) := by
  rw [run_truth, h, run_parsing]
  generalize parse (w.report (.entered entry slots.length)) = result at houtcome
  cases houtcome with
  | stored haccepted hfilled => exact .stored (haccepts _ _ haccepted) hfilled.of_report
  | refused hrefused hdepart => exact .refused (hrefuses _ hrefused) hdepart

end

/-! ### The two parses -/

/-- Why a text that is passed by pointer cannot be read. -/
theorem read_error {text : RawText} (h : text.read = .error e) :
    text = none ∧ e = .nullReference ∨
      ∃ bytes, text = some bytes ∧ String.fromUTF8? bytes = none ∧ e = .invalidUtf8 := by
  cases text with
  | none =>
    cases h
    exact .inl ⟨rfl, rfl⟩
  | some bytes =>
    simp only [RawText.read] at h
    split at h
    · cases h
    · rename_i hbytes
      cases h
      exact .inr ⟨bytes, rfl, hbytes, rfl⟩

/-- The source of the arguments that foreign code passes by name; a null pointer passes
none. -/
def sourceOf : Pointer → KeywordSource
  | some pairs => .boxed pairs
  | none => .none

/-- The arguments that foreign code passes by name. -/
def keywordsOf (w : World) (keywords : Pointer) : Except ApiError KeywordEntries :=
  (sourceOf keywords).read w

/-- Reading the arguments by name does not look at events. -/
theorem keywordsOf_report (event : Event) (keywords : Pointer) :
    keywordsOf (w.report event) keywords = keywordsOf w keywords := by
  cases keywords with
  | none => rfl
  | some pairs => exact Argument.keywordEntries_report w event pairs

/-- Why foreign code is refused a parse of a tuple: the first check that
fails. -/
inductive TupleCallRefusal (w : World) (arguments : Pointer) (format : RawText)
    (slots : SlotArray Output) : ApiError → Prop
  | arguments (h : arguments = none) :
      TupleCallRefusal w arguments format slots .nullReference
  | format {args : Ref} {e : ApiError} (hargs : arguments = some args)
      (h : format = none ∧ e = .nullReference ∨
        ∃ bytes, format = some bytes ∧ String.fromUTF8? bytes = none ∧ e = .invalidUtf8) :
      TupleCallRefusal w arguments format slots e
  | slots {args n : Nat} {text : String} (hargs : arguments = some args)
      (hformat : format.read = .ok text) (h : slots = .null (n + 1)) :
      TupleCallRefusal w arguments format slots .nullReference
  | parse {args : Ref} {text : String} {e : ApiError} (hargs : arguments = some args)
      (hformat : format.read = .ok text) (hslots : slots.read = .ok (outputsOf slots))
      (h : TupleRefusal w args text (outputsOf slots) e) :
      TupleCallRefusal w arguments format slots e

/-- Why foreign code is refused a parse of arguments by position and by
name: the first check that fails. -/
inductive KeywordsCallRefusal (w : World) (arguments keywords : Pointer) (format : RawText)
    (names : Option (List ByteArray)) (slots : SlotArray Output) : ApiError → Prop
  | arguments (h : arguments = none) :
      KeywordsCallRefusal w arguments keywords format names slots .nullReference
  | format {args : Ref} {e : ApiError} (hargs : arguments = some args)
      (h : format = none ∧ e = .nullReference ∨
        ∃ bytes, format = some bytes ∧ String.fromUTF8? bytes = none ∧ e = .invalidUtf8) :
      KeywordsCallRefusal w arguments keywords format names slots e
  | names {args : Ref} {text : String} {e : ApiError} (hargs : arguments = some args)
      (hformat : format.read = .ok text) (h : declaredNames names = .error e)
      (hnull : names = none → e = .nullReference) :
      KeywordsCallRefusal w arguments keywords format names slots e
  | slots {args n : Nat} {text : String} {declared : List String} (hargs : arguments = some args)
      (hformat : format.read = .ok text) (hnames : declaredNames names = .ok declared)
      (h : slots = .null (n + 1)) :
      KeywordsCallRefusal w arguments keywords format names slots .nullReference
  | entries {args pairs : Ref} {text : String} {declared : List String} {e : ApiError}
      (hargs : arguments = some args) (hformat : format.read = .ok text)
      (hnames : declaredNames names = .ok declared)
      (hslots : slots.read = .ok (outputsOf slots)) (hkeywords : keywords = some pairs)
      (h : Argument.keywordEntries w pairs = .error e) :
      KeywordsCallRefusal w arguments keywords format names slots e
  | parse {args : Ref} {text : String} {declared : List String} {entries : KeywordEntries}
      {e : ApiError} (hargs : arguments = some args) (hformat : format.read = .ok text)
      (hnames : declaredNames names = .ok declared)
      (hslots : slots.read = .ok (outputsOf slots))
      (hentries : keywordsOf w keywords = .ok entries)
      (h : KeywordsRefusal w args entries text declared (outputsOf slots) e) :
      KeywordsCallRefusal w arguments keywords format names slots e

/-- Slots that cannot be read are a null pointer with a count. -/
theorem slots_error {slots : SlotArray Output} (h : slots.read = .error e) :
    e = .nullReference ∧ ∃ n, slots = .null (n + 1) := by
  cases slots with
  | slots xs => cases h
  | null n =>
    cases n with
    | zero => cases h
    | succ n =>
      cases h
      exact ⟨rfl, n, rfl⟩

section
variable {event : Event} {pairs : Ref}

/-- A box is refused before anything is parsed if it is no sequence of pairs. -/
theorem run_source_error (h : Argument.keywordEntries w pairs = .error e)
    (next : KeywordSource → Attempt (List Output)) :
    (Attempt.read (KeywordSource.ofObject · pairs) >>= next).run (w.report event)
      = .ok (.error e) (w.report event) := by
  have hread : (KeywordSource.boxed pairs).read (w.report event) = .error e :=
    (Argument.keywordEntries_report w event pairs).trans h
  refine Attempt.run_bind_error ?_ next
  rw [Attempt.run_read, KeywordSource.ofObject, hread]
  rfl

/-- Otherwise it is the source from then on. -/
theorem run_source_ok {entries : KeywordEntries} (h : Argument.keywordEntries w pairs = .ok entries)
    (next : KeywordSource → Attempt (List Output)) :
    (Attempt.read (KeywordSource.ofObject · pairs) >>= next).run (w.report event)
      = (next (.boxed pairs)).run (w.report event) := by
  have hread : (KeywordSource.boxed pairs).read (w.report event) = .ok entries :=
    (Argument.keywordEntries_report w event pairs).trans h
  refine Attempt.run_bind_ok ?_ next
  rw [Attempt.run_read, KeywordSource.ofObject, hread]
  rfl

end

/-- How a parse of a tuple for foreign code ends. -/
theorem parseTuple_outcome (w : World) (arguments : Pointer) (format : RawText)
    (slots : SlotArray Output) :
    ParseOutcome w "PyArg_ParseTupleSlots" slots
      (fun codes argument => ∃ args text fmt items, arguments = some args ∧
        format.read = .ok text ∧ slots.read = .ok (outputsOf slots) ∧
        TupleAccepted w args text (outputsOf slots) fmt items ∧ codes = fmt.codes ∧
        argument = fun i => items[i]?.join)
      (TupleCallRefusal w arguments format slots) (parseTuple arguments format slots w) := by
  show ParseOutcome w _ slots _ _ (truth _ (outputsOf slots) _ (w.report (.entered _ slots.length)))
  -- the checks in the order in which they are made
  cases arguments with
  | none => exact .of_refused rfl (.arguments rfl)
  | some args =>
    cases hformat : format.read with
    | error e =>
      exact .of_refused rfl (.format rfl (read_error hformat))
    | ok text =>
      cases hslots : slots.read with
      | error e =>
        obtain ⟨rfl, n, hnull⟩ := slots_error hslots
        exact .of_refused rfl (.slots rfl hformat hnull)
      | ok outputs =>
        obtain rfl := SlotArray.read_ok hslots
        refine .of_outcome (Argument.parseTuple · args text (outputsOf slots)) rfl
          (Argument.parseTuple_outcome _ args text _) ?_ ?_
        · rintro codes argument ⟨fmt, items, haccepted, hcodes, hargument⟩
          exact ⟨args, text, fmt, items, rfl, rfl, rfl, haccepted.of_report, hcodes, hargument⟩
        · exact fun e h => .parse rfl hformat hslots h.of_report

/-- How a parse of arguments by position and by name for foreign code
ends. -/
theorem parseTupleAndKeywords_outcome (w : World) (arguments keywords : Pointer) (format : RawText)
    (names : Option (List ByteArray)) (slots : SlotArray Output) :
    ParseOutcome w "PyArg_ParseTupleAndKeywordsSlots" slots
      (fun codes argument => ∃ args text declared entries fmt items, arguments = some args ∧
        format.read = .ok text ∧ declaredNames names = .ok declared ∧
        slots.read = .ok (outputsOf slots) ∧ keywordsOf w keywords = .ok entries ∧
        KeywordsAccepted w args entries text declared (outputsOf slots) fmt items ∧
        codes = fmt.codes ∧ argument = suppliedArgument declared entries items)
      (KeywordsCallRefusal w arguments keywords format names slots)
      (parseTupleAndKeywords arguments keywords format names slots w) := by
  show ParseOutcome w _ slots _ _ (truth _ (outputsOf slots) _ (w.report (.entered _ slots.length)))
  cases arguments with
  | none => exact .of_refused rfl (.arguments rfl)
  | some args =>
    cases hformat : format.read with
    | error e =>
      exact .of_refused rfl (.format rfl (read_error hformat))
    | ok text =>
      cases hnames : declaredNames names with
      | error e =>
        -- without an array there is nothing to be read that could be refused
        refine .of_refused rfl (.names rfl hformat hnames fun hnone => ?_)
        subst hnone
        cases hnames
        rfl
      | ok declared =>
        cases hslots : slots.read with
        | error e =>
          obtain ⟨rfl, n, hnull⟩ := slots_error hslots
          exact .of_refused rfl (.slots rfl hformat hnames hnull)
        | ok outputs =>
          obtain rfl := SlotArray.read_ok hslots
          cases hentries : keywordsOf w keywords with
          | error e =>
            cases keywords with
            | none => cases hentries
            | some pairs =>
              refine .of_refused ?_ (.entries rfl hformat hnames hslots rfl hentries)
              exact run_source_error hentries _
          | ok entries =>
            have hread : ∀ event, (sourceOf keywords).read (w.report event) = .ok entries :=
              fun event => (keywordsOf_report event keywords).trans hentries
            refine .of_outcome
              (Argument.parseTupleAndKeywords · args (sourceOf keywords) text declared
                (outputsOf slots)) ?_
              (Argument.parseTupleAndKeywords_outcome _ args _ text declared _) ?_ ?_
            -- a null pointer stands for no names, and the parse goes on from the same world
            · cases keywords with
              | none => rfl
              | some pairs => exact run_source_ok hentries _
            · rintro codes argument ⟨fmt, items, found, hfound, haccepted, hcodes, hargument⟩
              -- the source is read again and gives the same
              rw [hread] at hfound
              cases hfound
              exact ⟨args, text, declared, entries, fmt, items, rfl, rfl, rfl, rfl, rfl,
                haccepted.of_report, hcodes, hargument⟩
            · exact fun e h => .parse rfl hformat hnames hslots hentries (h.of_report (hread _))

/-! ### All four ways to parse -/

/-- A parse changes no count, whether it succeeds or not. -/
theorem Outcome.count {outputs : List Output}
    {accepts : List FormatCode → (Nat → Option Ref) → Prop}
    {refuses : ApiError → Prop} {result : (Except ApiError Unit × List Output) × World}
    (h : Outcome w outputs accepts refuses result) (r : Ref) : result.2.count r = w.count r := by
  cases h with
  | stored haccepts hfilled => rfl
  | refused hrefuses hdepart =>
    rcases hdepart with rfl | ⟨event, rfl⟩
    · rfl
    · rfl

/-- A parse for foreign code ends, and changes no count. -/
theorem ParseOutcome.count {slots : SlotArray Output}
    {accepts : List FormatCode → (Nat → Option Ref) → Prop} {refuses : ApiError → Prop}
    {result : EStateM.Result Fault World (Int × List Output)}
    (h : ParseOutcome w entry slots accepts refuses result) :
    ∃ answer w', result = .ok answer w' ∧ ∀ r, w'.count r = w.count r := by
  cases h with
  | stored haccepts hfilled => exact ⟨_, _, rfl, fun r => rfl⟩
  | refused hrefuses hdepart =>
    refine ⟨_, _, rfl, fun r => ?_⟩
    rcases hdepart with rfl | ⟨event, rfl⟩
    · rfl
    · rfl

/-- A tuple is refused with the error of the first check that fails. -/
theorem parseTuple_error_iff {args : Ref} {text : String} {outputs : List Output} :
    (Argument.parseTuple w args text outputs).1.1 = .error e ↔
      TupleRefusal w args text outputs e := by
  refine ⟨fun h => ?_, fun h => ?_⟩
  · have houtcome := Argument.parseTuple_outcome w args text outputs
    generalize Argument.parseTuple w args text outputs = result at h houtcome
    cases houtcome with
    | stored haccepts hfilled => cases h
    | refused hrefuses hdepart =>
      cases h
      exact hrefuses
  · obtain ⟨w', hparse, -⟩ := h.parseTuple
    rw [hparse]

/-- However arguments are parsed, either all that were supplied are stored
in their outputs, or the parse is refused and no output has changed; a tuple
is refused with the error of the first check that fails. No count changes. -/
theorem parsing_allOrNothing (w : World) :
    (∀ args text outputs,
      Outcome w outputs
        (fun codes argument => ∃ format slots, TupleAccepted w args text outputs format slots ∧
          codes = format.codes ∧ argument = fun i => slots[i]?.join)
        (TupleRefusal w args text outputs) (Argument.parseTuple w args text outputs) ∧
      (∀ e, (Argument.parseTuple w args text outputs).1.1 = .error e ↔
        TupleRefusal w args text outputs e) ∧
      ∀ r, (Argument.parseTuple w args text outputs).2.count r = w.count r) ∧
    (∀ args source text names outputs,
      Outcome w outputs
        (fun codes argument => ∃ format slots entries, source.read w = .ok entries ∧
          KeywordsAccepted w args entries text names outputs format slots ∧
            codes = format.codes ∧ argument = suppliedArgument names entries slots)
        (KeywordsRefusal w args source text names outputs)
        (Argument.parseTupleAndKeywords w args source text names outputs) ∧
      ∀ r, (Argument.parseTupleAndKeywords w args source text names outputs).2.count r
        = w.count r) ∧
    (∀ arguments format slots,
      ParseOutcome w "PyArg_ParseTupleSlots" slots
        (fun codes argument => ∃ args text fmt items, arguments = some args ∧
          format.read = .ok text ∧ slots.read = .ok (outputsOf slots) ∧
          TupleAccepted w args text (outputsOf slots) fmt items ∧ codes = fmt.codes ∧
          argument = fun i => items[i]?.join)
        (TupleCallRefusal w arguments format slots) (parseTuple arguments format slots w) ∧
      ∃ answer w', parseTuple arguments format slots w = .ok answer w' ∧
        ∀ r, w'.count r = w.count r) ∧
    ∀ arguments keywords format names slots,
      ParseOutcome w "PyArg_ParseTupleAndKeywordsSlots" slots
        (fun codes argument => ∃ args text declared entries fmt items, arguments = some args ∧
          format.read = .ok text ∧ declaredNames names = .ok declared ∧
          slots.read = .ok (outputsOf slots) ∧ keywordsOf w keywords = .ok entries ∧
          KeywordsAccepted w args entries text declared (outputsOf slots) fmt items ∧
          codes = fmt.codes ∧ argument = suppliedArgument declared entries items)
        (KeywordsCallRefusal w arguments keywords format names slots)
        (parseTupleAndKeywords arguments keywords format names slots w) ∧
      ∃ answer w', parseTupleAndKeywords arguments keywords format names slots w = .ok answer w' ∧
        ∀ r, w'.count r = w.count r := by
  -- the two parsers, and then the two functions through which foreign code reaches them
  refine ⟨fun args text outputs => ?_, fun args source text names outputs => ?_,
    fun arguments format slots => ?_, fun arguments keywords format names slots => ?_⟩
  · have houtcome := Argument.parseTuple_outcome w args text outputs
    exact ⟨houtcome, fun e => parseTuple_error_iff, Outcome.count houtcome⟩
  · have houtcome := Argument.parseTupleAndKeywords_outcome w args source text names outputs
    exact ⟨houtcome, Outcome.count houtcome⟩
  · have houtcome := parseTuple_outcome w arguments format slots
    exact ⟨houtcome, houtcome.count⟩
  · have houtcome := parseTupleAndKeywords_outcome w arguments keywords format names slots
    exact ⟨houtcome, houtcome.count⟩

end Boundary

end ExtensionHost
