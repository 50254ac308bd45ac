import ExtensionHost.Argument.Native
import ExtensionHost.Box.Tuple
import ExtensionHost.Format.Extract

/-!
# `ExtensionHost.Argument.Extract`: taking an argument tuple apart

The arguments of a call are converted from left to right under the codes
of a format. Optional arguments that are not supplied give no value.
Parsing stores the values in outputs, and does so only when all of them
were converted: a refused call leaves every output as it was.
-/

set_option autoImplicit false

namespace ExtensionHost

/-- The values of a call by position; nothing stands for an argument that
was not supplied. -/
abbrev Extracted := List (Option Native)

namespace Argument

/-- Converts the occupants of slots, the first of which has position
`index`, under codes. Where the slots end no value is supplied. -/
def convertSlots (w : World) :
    (index : Nat) → List FormatCode → List (Option Ref) → Except ApiError Extracted
  | _, [], _ => .ok []
  | index, _ :: codes, [] => do
    let values ← convertSlots w (index + 1) codes []
    return none :: values
  | index, code :: codes, slot :: slots => do
    let item ← match slot with
      | some item => Except.ok item
      | none => .error (.uninitializedSlot index)
    let value ← Native.ofObject w code item
    let values ← convertSlots w (index + 1) codes slots
    return some value :: values

/-- Takes an argument tuple apart under a format that was read. -/
def extractUnder (w : World) (format : ExtractFormat) (args : Ref) :
    Except ApiError Extracted := do
  let slots ← Box.tupleSlots w args
  if slots.length < format.required ∨ format.length < slots.length then
    .error (.arity format.required format.length slots.length)
  else convertSlots w 0 format.codes slots

/-- Takes an argument tuple apart. -/
def extract (w : World) (args : Ref) (format : String) : Except ApiError Extracted := do
  let format ← ExtractFormat.parse format
  extractUnder w format args

/-- The first code whose output has another letter. -/
def firstMismatch : (position : Nat) → List FormatCode → List Output → Option ApiError
  | position, code :: codes, output :: outputs =>
    if output.letter = code.char then firstMismatch (position + 1) codes outputs
    else some (.slotMismatch position code.char output.letter)
  | _, _, _ => none

/-- Refuses outputs that do not go with a format. -/
def checkOutputs (format : ExtractFormat) (text : String) (outputs : List Output) :
    Except ApiError Unit :=
  if outputs.length = format.length then
    match firstMismatch 0 format.codes outputs with
    | some error => .error error
    | none => .ok ()
  else
    .error (.badFormat text
      (toString format.length ++ " codes but " ++ toString outputs.length ++ " output slots"))

/-- Stores the values that were supplied; the other outputs stay as they
were. -/
def storeAll : Extracted → List Output → List Output
  | some value :: values, output :: outputs => output.store value :: storeAll values outputs
  | none :: values, output :: outputs => output :: storeAll values outputs
  | _, outputs => outputs

/-- What a refused conversion is reported as. -/
def failureEvent (format : ExtractFormat) (error : ApiError) : Event :=
  .conversionFailed format.functionName error format.failureText

/-- Reads a format, checks the outputs, and stores what `values` gives. The
answer comes with the outputs as they are afterwards. -/
def parseWith (w : World) (text : String) (outputs : List Output)
    (values : ExtractFormat → Except ApiError Extracted) :
    (Except ApiError Unit × List Output) × World :=
  match ExtractFormat.parse text with
  | .error e => ((.error e, outputs), w)
  | .ok format =>
    match checkOutputs format text outputs with
    | .error e => ((.error e, outputs), w)
    | .ok () =>
      match values format with
      | .error e => ((.error e, outputs), w.report (failureEvent format e))
      | .ok values => ((.ok (), storeAll values outputs), w)

/-- Takes an argument tuple apart into outputs. -/
def parseTuple (w : World) (args : Ref) (text : String) (outputs : List Output) :
    (Except ApiError Unit × List Output) × World :=
  parseWith w text outputs fun format => extractUnder w format args

end Argument

end ExtensionHost
