import ExtensionHost.Argument.Native
import ExtensionHost.Box.Tuple
import ExtensionHost.Format.Build

/-!
# `ExtensionHost.Argument.Build`: putting values together

A build format and a list of native values give one object: nothing for
no items, the value itself for one, and a tuple for more. A group gives a
tuple, which is made before its members. When storage runs out midway,
what was made is released with the tuple it was put into.
-/

set_option autoImplicit false

namespace ExtensionHost

namespace Argument

/-- The first code whose value is of another type. -/
def firstOtherCode : (position : Nat) → List FormatCode → List Native → Option ApiError
  | position, code :: codes, value :: values =>
    if value.code = code then firstOtherCode (position + 1) codes values
    else some (.slotMismatch position code.char value.code.char)
  | _, _, _ => none

/-- Refuses values that do not go with a format. -/
def checkValues (format : BuildFormat) (values : List Native) : Except ApiError Unit :=
  if format.arity = values.length then
    match firstOtherCode 0 format.codes values with
    | some error => .error error
    | none => .ok ()
  else .error (.arity format.arity format.arity values.length)

/-- Boxes a native value. An absent text gives the object that stands for
nothing. -/
def boxNative : Native → Attempt Ref
  | .text none => Box.newNone
  | .text (some text) => Box.newText text
  | .int v | .long v | .longLong v => Box.newInteger v
  | .double x => Box.newReal x
  | .float x => Box.newReal x.widen
  | .object none => throw .nullReference
  | .object (some r) => do
    Host.retain r
    return r

/-- Boxes the first of the values that are left. -/
def buildCode : List Native → Attempt (Ref × List Native)
  | [] => throw (.arity 1 1 0)
  | value :: rest => do return (← boxNative value, rest)

mutual

/-- Builds an item from the values that are left, and gives those that are
left after it. -/
def buildItem : BuildItem → List Native → Attempt (Ref × List Native)
  | .code _, values => buildCode values
  | .group items, values => do
    let r ← Box.newTuple items.length
    Attempt.consuming r do
      let values ← buildMembers r 0 items values
      return (r, values)

/-- Builds items and puts them into the slots of a tuple from `index`
on. -/
def buildMembers (r : Ref) :
    (index : Nat) → List BuildItem → List Native → Attempt (List Native)
  | _, [], values => return values
  | index, item :: items, values => do
    let (member, values) ← buildItem item values
    Box.setTupleItem r index member
    buildMembers r (index + 1) items values

end

/-- Builds an object. -/
def build (text : String) (values : List Native) : Attempt Ref := do
  let format ← Attempt.ofExcept (BuildFormat.parse text)
  Attempt.ofExcept (checkValues format values)
  match format.items with
  | [] => Box.newNone
  | [item] => return (← buildItem item values).1
  | items => return (← buildItem (.group items) values).1

end Argument

end ExtensionHost
