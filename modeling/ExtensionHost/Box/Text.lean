import ExtensionHost.Object.Create

/-!
# `ExtensionHost.Box.Text`: boxed texts

The bytes of a text stand in the block of its object. The NUL behind them
is never written: the block is zeroed before the text is, and is one byte
longer than the text needs.
-/

set_option autoImplicit false

namespace ExtensionHost.Box

/-- Boxes a text in an object of a type derived from `str`. -/
def newTextOf (type : TypeObject) (text : String) : Attempt Ref := do
  let bytes := text.toUTF8
  let r ← Object.newSized type bytes.size (.text bytes.size)
  match (← get).object? r with
  | some { home := some a, .. } =>
    modify (·.modifyPayload a (·.write World.contentStart bytes))
  | _ => pure ()
  return r

/-- Boxes a text. -/
def newText (text : String) : Attempt Ref := newTextOf .str text

/-- Boxes bytes as a text of a type derived from `str`, if they are
UTF-8. -/
def newTextOfBytes (type : TypeObject) (bytes : ByteArray) : Attempt Ref :=
  match String.fromUTF8? bytes with
  | some text => newTextOf type text
  | none => throw .invalidUtf8

/-- The object of a text, and the number of bytes of the text. -/
def textObject (w : World) (r : Ref) : Except ApiError (Object × Nat) :=
  match w.instanceOf r .str with
  | .error e => .error e
  | .ok object =>
    match object.body with
    | .text length => .ok (object, length)
    | _ => .error (.typeMismatch TypeObject.str.name object.type.name)

/-- The text in a box. -/
def text (w : World) (r : Ref) : Except ApiError String :=
  match textObject w r with
  | .error e => .error e
  | .ok (object, length) =>
    match String.fromUTF8? ((w.payloadOf object).read World.contentStart length) with
    | some text => .ok text
    | none => .error .invalidUtf8

/-- The bytes before the first NUL, if there is one. -/
def untilNul (bytes : ByteArray) : Option ByteArray :=
  match bytes.findIdx? (· = 0) with
  | some n => some (bytes.extract 0 n)
  | none => none

/-- The text in a box for users who take it to end at the first NUL. The
only NUL may be the one behind the text. -/
def terminatedText (w : World) (r : Ref) : Except ApiError String :=
  match textObject w r with
  | .error e => .error e
  | .ok (object, length) =>
    match untilNul ((w.payloadOf object).read World.contentStart (length + 1)) with
    | none => .error .embeddedNul
    | some bytes =>
      if bytes.size = length then
        match String.fromUTF8? bytes with
        | some text => .ok text
        | none => .error .invalidUtf8
      else .error .embeddedNul

end ExtensionHost.Box
