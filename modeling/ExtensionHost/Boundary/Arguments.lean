import ExtensionHost.Argument.Build
import ExtensionHost.Argument.Keywords
import ExtensionHost.Boundary.Report
import ExtensionHost.Text.Raw

/-!
# `ExtensionHost.Boundary.Arguments`: arguments and values at the boundary

Foreign code describes its outputs and its values by slots, each with a
letter of its own, and passes them as an array. What it passes is checked
before anything is done with it: the pointers in the order of the
parameters, then the slots against the format.
-/

set_option autoImplicit false

namespace ExtensionHost.Boundary

/-- An array passed by pointer. A null pointer will do for an array of
nothing. -/
inductive SlotArray (α : Type)
  | slots (xs : List α)
  | null (n : Nat)
deriving Repr

namespace SlotArray

/-- The number of slots that the caller states. -/
def length {α : Type} : SlotArray α → Nat
  | slots xs => xs.length
  | null n => n

/-- The slots of an array. -/
def read {α : Type} : SlotArray α → Except ApiError (List α)
  | slots xs => .ok xs
  | null 0 => .ok []
  | null _ => .error .nullReference

end SlotArray

/-- A value that foreign code passes, with its letter. Texts are not yet
read, and a letter may be none that is known. -/
inductive RawValue
  | text (bytes : RawText)
  | native (value : Native)
  | object (pointer : Pointer)
  | unknown (letter : Char)

namespace RawValue

/-- The native value that is meant. -/
def decode : RawValue → Except ApiError Native
  | text none => .ok (.text none)
  | text (some bytes) =>
    match String.fromUTF8? bytes with
    | some valid => .ok (.text (some valid))
    | none => .error .invalidUtf8
  | native value => .ok value
  | object pointer => (deref pointer).map fun r => .object (some r)
  | unknown letter => .error (.badFormat letter.toString "unknown build argument code")

end RawValue

/-- The names by which arguments are declared, which a null pointer
ends. -/
def declaredNames (names : Option (List ByteArray)) : Except ApiError (List String) :=
  match names with
  | none => .error .nullReference
  | some names => names.mapM fun bytes => RawText.read (some bytes)

/-- One for success and zero for failure, with the outputs as they are
afterwards. -/
def truth (entry : String) (outputs : List Output)
    (attempt : Attempt (List Output)) : Host (Int × List Output) :=
  reporting entry (0, outputs) do return (1, ← attempt)

/-- The outputs of a slot array; a null pointer has none. -/
def outputsOf : SlotArray Output → List Output
  | .slots outputs => outputs
  | .null _ => []

/-- Makes a parse whose answer carries the outputs into an attempt that
gives them. A refused parse left them as they were. -/
def parsing (parse : World → (Except ApiError Unit × List Output) × World) :
    Attempt (List Output) := do
  let (answer, outputs) ← modifyGet parse
  Attempt.ofExcept answer
  return outputs

/-- Takes an argument tuple apart. -/
def parseTuple (arguments : Pointer) (format : RawText) (slots : SlotArray Output) :
    Host (Int × List Output) := do
  Host.report (.entered "PyArg_ParseTupleSlots" slots.length)
  truth "PyArg_ParseTupleSlots" (outputsOf slots) do
    let arguments ← Attempt.ofExcept (deref arguments)
    let format ← Attempt.ofExcept format.read
    let outputs ← Attempt.ofExcept slots.read
    parsing (Argument.parseTuple · arguments format outputs)

/-- Takes arguments apart that are given by position and by name. -/
def parseTupleAndKeywords (arguments keywords : Pointer) (format : RawText)
    (names : Option (List ByteArray)) (slots : SlotArray Output) :
    Host (Int × List Output) := do
  Host.report (.entered "PyArg_ParseTupleAndKeywordsSlots" slots.length)
  truth "PyArg_ParseTupleAndKeywordsSlots" (outputsOf slots) do
    let arguments ← Attempt.ofExcept (deref arguments)
    let format ← Attempt.ofExcept format.read
    let names ← Attempt.ofExcept (declaredNames names)
    let outputs ← Attempt.ofExcept slots.read
    let source ← match keywords with
      | some keywords => Attempt.read (KeywordSource.ofObject · keywords)
      | none => pure .none
    parsing (Argument.parseTupleAndKeywords · arguments source format names outputs)

/-- Puts values together. -/
def buildValue (format : RawText) (values : SlotArray RawValue) : Host Pointer := do
  Host.report (.entered "Py_BuildValueSlots" values.length)
  newReference "Py_BuildValueSlots" do
    let format ← Attempt.ofExcept format.read
    let values ← Attempt.ofExcept values.read
    let values ← Attempt.ofExcept (values.mapM RawValue.decode)
    Argument.build format values

end ExtensionHost.Boundary
