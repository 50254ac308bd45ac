import ExtensionHost.Argument.Extract
import ExtensionHost.Box.Sequence

/-!
# `ExtensionHost.Argument.Keywords`: arguments given by name

A call may give arguments by name after those it gives by position. A name
stands for the first position that is declared under it; a position that
is declared under the empty name can only be given by position. Each
position takes one argument.

Arguments by name come from a source, which is read when the arguments by
position are known. Reading it may be refused: the pairs of a boxed
sequence are checked when the source is made, and are read again then.
-/

set_option autoImplicit false

namespace ExtensionHost

/-- The arguments of a call that are given by name. -/
abbrev KeywordEntries := List (String × Ref)

namespace Argument

/-- The name and the value of one boxed entry: a tuple of two, the first
of which is a text. -/
def keywordEntry (w : World) (pair : Ref) : Except ApiError (String × Ref) := do
  let length ← Box.tupleLength w pair
  if length = 2 then
    let name ← Box.text w (← Box.tupleItem w pair 0)
    let value ← Box.tupleItem w pair 1
    return (name, value)
  else .error (.arity 2 2 length)

/-- The entries in the slots of a sequence, the first of which has
position `index`. -/
def keywordEntriesOfSlots (w : World) :
    (index : Nat) → List (Option Ref) → Except ApiError KeywordEntries
  | _, [] => .ok []
  | index, none :: _ => .error (.uninitializedSlot index)
  | index, some pair :: slots => do
    let entry ← keywordEntry w pair
    let entries ← keywordEntriesOfSlots w (index + 1) slots
    return entry :: entries

/-- The entries of a boxed sequence of pairs. -/
def keywordEntries (w : World) (pairs : Ref) : Except ApiError KeywordEntries := do
  keywordEntriesOfSlots w 0 (← Box.sequenceSlots w pairs)

end Argument

/-- Where the arguments of a call that are given by name come from. -/
structure KeywordSource where
  /-- The arguments, or why they are refused. -/
  read : World → Except ApiError KeywordEntries

namespace KeywordSource

/-- A list of arguments, which is never refused. -/
def listed (entries : KeywordEntries) : KeywordSource := ⟨fun _ => .ok entries⟩

instance : Coe KeywordEntries KeywordSource := ⟨listed⟩

/-- No arguments. -/
def none : KeywordSource := listed []

/-- The pairs of a boxed sequence, whatever stands there by then. -/
def boxed (pairs : Ref) : KeywordSource := ⟨(Argument.keywordEntries · pairs)⟩

/-- A boxed sequence as a source, if it is one of pairs now. -/
def ofObject (w : World) (pairs : Ref) : Except ApiError KeywordSource := do
  let _ ← (boxed pairs).read w
  return boxed pairs

end KeywordSource

namespace Argument

/-- The first position declared under a name; the empty name declares
none. -/
def keywordPosition? (names : List String) (name : String) : Option Nat :=
  names.findIdx? fun declared => declared ≠ "" && declared = name

/-- Puts the entries at their positions, of which the first `given` are
taken already. -/
def placeEntries (names : List String) (given : Nat) :
    KeywordEntries → (placed : List (Option Ref)) → Except ApiError (List (Option Ref))
  | [], placed => .ok placed
  | (name, value) :: entries, placed =>
    match keywordPosition? names name with
    | none => .error (.unknownKeyword name)
    | some position =>
      if position < given ∨ (placed[position]?.join).isSome then
        .error (.duplicateArgument name)
      else placeEntries names given entries (placed.set position (some value))

/-- The refusal of a call that leaves out a required argument. One that
cannot be named is reported as too few. -/
def missingArgument (format : ExtractFormat) (name : String) (supplied : Nat) : ApiError :=
  if name = "" then .arity format.required format.length supplied else .missingArgument name

/-- Converts arguments under codes, the first of which has position
`index`: those in slots first, the later ones from their places. -/
def convertPlaced (w : World) (format : ExtractFormat) (supplied : Nat) :
    (index : Nat) → List FormatCode → (names : List String) → (slots : List (Option Ref)) →
      (placed : List (Option Ref)) → Except ApiError Extracted
  | _, [], _, _, _ => .ok []
  | index, code :: codes, names, slots, placed => do
    let argument ← match slots with
      | some item :: _ => Except.ok (some item)
      | none :: _ => .error (.uninitializedSlot index)
      | [] => .ok placed.head?.join
    let value ← match argument with
      | some item => (Native.ofObject w code item).map some
      | none =>
        if index < format.required then
          .error (missingArgument format (names.headD "") supplied)
        else .ok none
    let values ←
      convertPlaced w format supplied (index + 1) codes names.tail slots.tail placed.tail
    return value :: values

/-- Takes arguments apart that are given by position and by name, under a
format that was read from `text`. -/
def extractKeywordsUnder (w : World) (format : ExtractFormat) (text : String)
    (names : List String) (args : Ref) (source : KeywordSource) :
    Except ApiError Extracted := do
  if names.length ≠ format.length then
    .error (.badFormat text
      (toString format.length ++ " codes but " ++ toString names.length ++ " keyword names"))
  else
    let slots ← Box.tupleSlots w args
    let entries ← source.read w
    let supplied := slots.length + entries.length
    if format.length < slots.length then
      .error (.arity format.required format.length supplied)
    else
      let placed ←
        placeEntries names slots.length entries (List.replicate format.length none)
      convertPlaced w format supplied 0 format.codes names slots placed

/-- Takes arguments apart that are given by position and by name. -/
def extractKeywords (w : World) (args : Ref) (source : KeywordSource) (text : String)
    (names : List String) : Except ApiError Extracted := do
  let format ← ExtractFormat.parse text
  extractKeywordsUnder w format text names args source

/-- Takes arguments apart that are given by position and by name into
outputs. -/
def parseTupleAndKeywords (w : World) (args : Ref) (source : KeywordSource) (text : String)
    (names : List String) (outputs : List Output) :
    (Except ApiError Unit × List Output) × World :=
  parseWith w text outputs fun format =>
    extractKeywordsUnder w format text names args source

end Argument

end ExtensionHost
