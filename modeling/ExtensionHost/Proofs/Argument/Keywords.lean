import ExtensionHost.Proofs.Argument.Parsing
import ExtensionHost.Proofs.Object.Attempts

/-!
# `ExtensionHost.Proofs.Argument.Keywords`: which argument a position takes

When arguments are given by name as well, the argument of a position is
the occupant of its slot as far as the argument tuple reaches, and behind
it the value given under the name of the position
(`suppliedArgument`). The parse works this out by putting the named values
into a table one after the other. `placeEntries_ok` says what the table
holds in the end: at each position that was empty the value of the first
entry for it, which is the only one.
-/

set_option autoImplicit false

namespace ExtensionHost.Argument

variable {w : World} {names : List String} {given : Nat} {entries : KeywordEntries}
  {source : KeywordSource}
  {placed placed' slots : List (Option Ref)} {format : ExtractFormat} {codes : List FormatCode}
  {values : Extracted} {args : Ref} {text : String} {outputs : List Output} {supplied : Nat}

/-- Entries are read off the pairs and the slots that the pairs stand in, and off nothing
else. -/
theorem keywordEntries_congr {w' : World} {pairs : Ref}
    (hslots : Box.sequenceSlots w' pairs = Box.sequenceSlots w pairs)
    (hentry : ∀ pair, keywordEntry w' pair = keywordEntry w pair) :
    keywordEntries w' pairs = keywordEntries w pairs := by
  have hentries (index : Nat) (slots : List (Option Ref)) :
      keywordEntriesOfSlots w' index slots = keywordEntriesOfSlots w index slots := by
    induction slots generalizing index with
    | nil => rfl
    | cons slot slots ih =>
      cases slot with
      | none => rfl
      | some pair =>
        show (keywordEntry w' pair >>= fun entry =>
          keywordEntriesOfSlots w' (index + 1) slots >>= fun entries => pure (entry :: entries)) = _
        rw [hentry, ih]
        rfl
  show (Box.sequenceSlots w' pairs >>= keywordEntriesOfSlots w' 0) = _
  rw [hslots, funext (hentries 0)]
  rfl

/-- A box becomes a source when its pairs can be read, and they are read again later. -/
theorem ofObject_eq_ok_iff {pairs : Ref} :
    KeywordSource.ofObject w pairs = .ok source ↔
      source = .boxed pairs ∧ ∃ entries, keywordEntries w pairs = .ok entries := by
  constructor
  · intro h
    obtain ⟨entries, hread, h⟩ := except_bind_eq_ok.1 h
    cases h
    exact ⟨rfl, entries, hread⟩
  · rintro ⟨rfl, entries, hread⟩
    exact except_bind_eq_ok.2 ⟨entries, hread, rfl⟩

/-- The value that is given under the name of a position. -/
def namedArgument (names : List String) (entries : KeywordEntries) (position : Nat) : Option Ref :=
  (entries.find? fun entry => keywordPosition? names entry.1 = some position).map (·.2)

/-- The argument of a position. -/
def suppliedArgument (names : List String) (entries : KeywordEntries) (slots : List (Option Ref))
    (position : Nat) : Option Ref :=
  if position < slots.length then slots[position]?.join else namedArgument names entries position

/-- Without names nothing is given by name. -/
theorem namedArgument_nil (position : Nat) : namedArgument names [] position = none := rfl

/-- The first pair gives the argument of its own position. -/
theorem namedArgument_cons_self {name : String} {value : Ref} {position : Nat}
    (h : keywordPosition? names name = some position) :
    namedArgument names ((name, value) :: entries) position = some value := by
  simp [namedArgument, h]

/-- A pair gives nothing to another position. -/
theorem namedArgument_cons_of_ne {name : String} {value : Ref} {position other : Nat}
    (h : keywordPosition? names name = some position) (hne : other ≠ position) :
    namedArgument names ((name, value) :: entries) other = namedArgument names entries other := by
  have hskip : ¬ some position = some other := fun heq => hne (by cases heq; rfl)
  simp [namedArgument, h, hskip]

/-- The position of a name is one of the positions. -/
theorem keywordPosition?_lt {name : String} {position : Nat}
    (h : keywordPosition? names name = some position) : position < names.length := by
  obtain ⟨hlt, -⟩ := List.findIdx?_eq_some_iff_getElem.1 h
  exact hlt

/-- What the table holds when all entries have been put into it, and where
each entry is. -/
theorem placeEntries_ok (hlength : placed.length = names.length)
    (h : placeEntries names given entries placed = .ok placed') :
    placed'.length = placed.length ∧
      (∀ i, placed'[i]?.join = placed[i]?.join.or (namedArgument names entries i)) ∧
      ∀ name value, (name, value) ∈ entries → ∃ i, keywordPosition? names name = some i ∧
        given ≤ i ∧ placed'[i]?.join = some value := by
  induction entries generalizing placed with
  | nil =>
    cases h
    exact ⟨rfl, fun i => by rw [namedArgument_nil, Option.or_none], nofun⟩
  | cons entry entries ih =>
    obtain ⟨name, value⟩ := entry
    simp only [placeEntries] at h
    split at h
    · cases h
    · rename_i position hposition
      split at h
      · cases h
      · rename_i hfree
        -- the position is behind the slots, and no entry before this one was for it
        have hgiven : given ≤ position := by omega
        have hempty : placed[position]?.join = none := by
          simpa using fun h => hfree (.inr h)
        have hlt : position < placed.length := hlength ▸ keywordPosition?_lt hposition
        obtain ⟨hlength', htable, hentries⟩ := ih (by rw [List.length_set, hlength]) h
        have hset : placed'[position]?.join = some value := by
          rw [htable, List.getElem?_set_self hlt]
          rfl
        refine ⟨by rw [hlength', List.length_set], fun i => ?_, fun other found hmem => ?_⟩
        · by_cases hi : i = position
          · subst hi
            rw [hset, hempty, namedArgument_cons_self hposition]
            rfl
          · rw [htable, List.getElem?_set_ne (Ne.symm hi), namedArgument_cons_of_ne hposition hi]
        · rcases List.mem_cons.1 hmem with heq | hmem
          · cases heq
            exact ⟨position, hposition, hgiven, hset⟩
          · exact hentries other found hmem

/-- The occupant of a slot, or what stands in the table where the slots
end. -/
def placedArgument (slots placed : List (Option Ref)) (position : Nat) : Option Ref :=
  match slots[position]? with
  | some slot => slot
  | none => placed[position]?.join

/-- What is placed behind the first position is placed one further to the left there. -/
theorem placedArgument_tail (slots placed : List (Option Ref)) (position : Nat) :
    placedArgument slots.tail placed.tail position =
      placedArgument slots placed (position + 1) := by
  simp only [placedArgument, List.getElem?_tail]

/-- The argument of the next position. -/
def nextArgument (index : Nat) (slots placed : List (Option Ref)) : Except ApiError (Option Ref) :=
  match slots with
  | some item :: _ => .ok (some item)
  | none :: _ => .error (.uninitializedSlot index)
  | [] => .ok placed.head?.join

/-- The value of an argument, if there is one. -/
def convertNext (w : World) (format : ExtractFormat) (supplied index : Nat) (code : FormatCode)
    (names : List String) : Option Ref → Except ApiError (Option Native)
  | some item => (Native.ofObject w code item).map some
  | none =>
    if index < format.required then .error (missingArgument format (names.headD "") supplied)
    else .ok none

/-- Positions are converted from left to right, and the first one that fails decides. -/
theorem convertPlaced_cons (index : Nat) (code : FormatCode) (codes : List FormatCode) :
    convertPlaced w format supplied index (code :: codes) names slots placed = (do
      let argument ← nextArgument index slots placed
      let value ← convertNext w format supplied index code names argument
      let values ←
        convertPlaced w format supplied (index + 1) codes names.tail slots.tail placed.tail
      return value :: values) := by
  cases slots with
  | nil =>
    simp only [convertPlaced, nextArgument, convertNext]
    cases placed.head?.join with
    | some item => rfl
    | none =>
      simp only [bind, Except.bind]
      split <;> rfl
  | cons slot slots => cases slot <;> rfl

/-- The argument of the next position is that of the first one in the lists,
and no empty slot stands there. -/
theorem nextArgument_ok {index : Nat} {argument : Option Ref}
    (h : nextArgument index slots placed = .ok argument) :
    placedArgument slots placed 0 = argument ∧ slots[0]? ≠ some none := by
  cases slots with
  | nil =>
    cases h
    refine ⟨?_, nofun⟩
    cases placed <;> rfl
  | cons slot slots =>
    cases slot with
    | none => cases h
    | some item =>
      cases h
      exact ⟨rfl, nofun⟩

/-- An argument that is there is converted by its own code. -/
theorem convertNext_some_ok {index : Nat} {code : FormatCode} {item : Ref} {value : Option Native}
    (h : convertNext w format supplied index code names (some item) = .ok value) :
    ∃ native, Native.ofObject w code item = .ok native ∧ value = some native := by
  simp only [convertNext] at h
  cases hconvert : Native.ofObject w code item with
  | error e =>
    rw [hconvert] at h
    cases h
  | ok native =>
    rw [hconvert] at h
    cases h
    exact ⟨native, rfl, rfl⟩

/-- Only a position that is not required goes without an argument. -/
theorem convertNext_none_ok {index : Nat} {code : FormatCode} {value : Option Native}
    (h : convertNext w format supplied index code names none = .ok value) :
    value = none ∧ format.required ≤ index := by
  simp only [convertNext] at h
  split at h
  · cases h
  · next hnot =>
    cases h
    exact ⟨rfl, Nat.le_of_not_lt hnot⟩

/-- Arguments that are converted are those of their positions. A slot
without an occupant and a required position without an argument are
refused. -/
theorem convertPlaced_ok {index : Nat}
    (h : convertPlaced w format supplied index codes names slots placed = .ok values) :
    Converted w codes (placedArgument slots placed) values ∧
      (∀ i, i < codes.length → index + i < format.required →
        placedArgument slots placed i ≠ none) ∧
      ∀ i, i < codes.length → slots[i]? ≠ some none := by
  induction codes generalizing index names slots placed values with
  | nil =>
    cases h
    exact ⟨converted_nil, fun i hi => absurd hi (Nat.not_lt_zero i),
      fun i hi => absurd hi (Nat.not_lt_zero i)⟩
  | cons code codes ih =>
    rw [convertPlaced_cons] at h
    obtain ⟨argument, hargument, h⟩ := except_bind_eq_ok.1 h
    obtain ⟨value, hvalue, h⟩ := except_bind_eq_ok.1 h
    obtain ⟨rest, hrest, h⟩ := except_bind_eq_ok.1 h
    cases h
    obtain ⟨hzero, hfilled⟩ := nextArgument_ok hargument
    obtain ⟨hconverted, hrequired, hset⟩ := ih hrest
    -- what is left of the lists has the arguments of the positions after this one
    have htail : placedArgument slots.tail placed.tail
        = fun i => placedArgument slots placed (i + 1) :=
      funext fun i => placedArgument_tail slots placed i
    rw [htail] at hconverted hrequired
    refine ⟨hconverted.cons (fun hnone => ?_) fun item hitem => ?_, fun i hi hlt => ?_,
      fun i hi => ?_⟩
    · obtain rfl : argument = none := hzero.symm.trans hnone
      exact (convertNext_none_ok hvalue).1
    · obtain rfl : argument = some item := hzero.symm.trans hitem
      exact convertNext_some_ok hvalue
    · cases i with
      | zero =>
        rw [hzero]
        rintro rfl
        have := (convertNext_none_ok hvalue).2
        omega
      | succ i => exact hrequired i (Nat.lt_of_succ_lt_succ hi) (by omega)
    · cases i with
      | zero => exact hfilled
      | succ i =>
        have hnext := hset i (Nat.lt_of_succ_lt_succ hi)
        rwa [List.getElem?_tail] at hnext

/-- The named values stand in the table for the positions behind the slots. -/
theorem placedArgument_eq_supplied
    (htable : ∀ i, placed[i]?.join = namedArgument names entries i) :
    placedArgument slots placed = suppliedArgument names entries slots := by
  funext i
  rw [placedArgument, suppliedArgument]
  by_cases hi : i < slots.length
  · rw [if_pos hi, List.getElem?_eq_getElem hi]
    rfl
  · rw [if_neg hi, List.getElem?_eq_none_iff.2 (by omega), htable]

/-! ### Parsing -/

/-- Arguments by position and by name that go with a format: every slot is
filled, every name is that of one position that takes its value, and no
required position is left out. -/
structure KeywordsAccepted (w : World) (args : Ref) (entries : KeywordEntries) (text : String)
    (names : List String) (outputs : List Output) (format : ExtractFormat)
    (slots : List (Option Ref)) : Prop where
  agrees : Agrees text outputs format
  declared : names.length = format.length
  tuple : Box.tupleSlots w args = .ok slots
  fit : slots.length ≤ format.length
  filled : ∀ slot ∈ slots, slot ≠ none
  known : ∀ name value, (name, value) ∈ entries → ∃ i, keywordPosition? names name = some i ∧
    slots.length ≤ i ∧ suppliedArgument names entries slots i = some value
  required : ∀ i, i < format.length → i < format.required →
    suppliedArgument names entries slots i ≠ none

/-- Why arguments by position and by name are refused. -/
def KeywordsRefusal (w : World) (args : Ref) (source : KeywordSource) (text : String)
    (names : List String) (outputs : List Output) (e : ApiError) : Prop :=
  OutputsRefusal text outputs e ∨ ∃ format, Agrees text outputs format ∧
    extractKeywordsUnder w format text names args source = .error e

/-- A source is only asked for its arguments. -/
theorem extractKeywordsUnder_of_read (h : source.read w = .ok entries) :
    extractKeywordsUnder w format text names args source =
      extractKeywordsUnder w format text names args entries := by
  simp only [extractKeywordsUnder, h, KeywordSource.listed]

/-- A parse that succeeds read its source, accepted all pairs and converted the argument
of each position. -/
theorem extractKeywordsUnder_ok (hagrees : Agrees text outputs format)
    (h : extractKeywordsUnder w format text names args source = .ok values) :
    ∃ slots entries, source.read w = .ok entries ∧
      KeywordsAccepted w args entries text names outputs format slots ∧
      Converted w format.codes (suppliedArgument names entries slots) values := by
  rw [extractKeywordsUnder] at h
  split at h
  · cases h
  · rename_i hnames
    have hnames : names.length = format.length := Decidable.of_not_not hnames
    obtain ⟨slots, hslots, h⟩ := except_bind_eq_ok.1 h
    obtain ⟨entries, hread, h⟩ := except_bind_eq_ok.1 h
    simp only at h
    split at h
    · cases h
    · rename_i hfit
      obtain ⟨placed, hplaced, h⟩ := except_bind_eq_ok.1 h
      obtain ⟨hlength, htable, hentries⟩ := placeEntries_ok (by simp [hnames]) hplaced
      obtain ⟨hconverted, hrequired, hset⟩ := convertPlaced_ok h
      -- the table is empty at first, so it has the named values and nothing else
      have htable : ∀ i, placed[i]?.join = namedArgument names entries i := by
        intro i
        have hempty : (List.replicate format.length (none : Option Ref))[i]?.join = none := by
          rw [List.getElem?_replicate]
          split <;> rfl
        rw [htable, hempty, Option.none_or]
      rw [placedArgument_eq_supplied htable] at hconverted hrequired
      refine ⟨slots, entries, hread, ⟨hagrees, hnames, hslots, by omega, fun slot hmem => ?_,
        fun name value hmem => ?_, fun i hi hlt => hrequired i hi (by omega)⟩, hconverted⟩
      · obtain ⟨i, hi, rfl⟩ := List.getElem_of_mem hmem
        have hlt : i < format.codes.length := by
          have hcodes : format.length = format.codes.length := rfl
          omega
        exact fun hnone => hset i hlt (by rw [List.getElem?_eq_getElem hi, hnone])
      · obtain ⟨i, hposition, hgiven, hvalue⟩ := hentries name value hmem
        refine ⟨i, hposition, hgiven, ?_⟩
        rw [suppliedArgument, if_neg (by omega), ← htable, hvalue]

/-- How a parse of arguments by position and by name ends. -/
theorem parseTupleAndKeywords_outcome (w : World) (args : Ref) (source : KeywordSource)
    (text : String) (names : List String) (outputs : List Output) :
    Outcome w outputs
      (fun codes argument => ∃ format slots entries, source.read w = .ok entries ∧
        KeywordsAccepted w args entries text names outputs format slots ∧
          codes = format.codes ∧ argument = suppliedArgument names entries slots)
      (KeywordsRefusal w args source text names outputs)
      (parseTupleAndKeywords w args source text names outputs) := by
  rcases agrees_or_refused text outputs with ⟨format, hagrees⟩ | ⟨e, hrefusal⟩
  · rw [parseTupleAndKeywords, hagrees.parseWith]
    cases hextract : extractKeywordsUnder w format text names args source with
    | error e => exact .refused (.inr ⟨format, hagrees, hextract⟩) (.inr ⟨_, rfl⟩)
    | ok values =>
      obtain ⟨slots, entries, hread, haccepted, hconverted⟩ :=
        extractKeywordsUnder_ok hagrees hextract
      exact .stored ⟨format, slots, entries, hread, haccepted, rfl, rfl⟩
        (hconverted.filled hagrees.length hagrees.letters)
  · rw [parseTupleAndKeywords, hrefusal.parseWith]
    exact .refused (.inl hrefusal) (.inl rfl)

end ExtensionHost.Argument
