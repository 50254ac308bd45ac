import ExtensionHost.Error

/-!
# `ExtensionHost.Format.Code`: the letters of a format string

A format string describes native values one letter each. The letter fixes
the native type, its width in bytes, and the type of boxed object that it
goes with.
-/

set_option autoImplicit false

namespace ExtensionHost

/-- What one letter of a format string stands for. -/
inductive FormatCode
  /-- Text without a NUL inside. -/
  | text
  /-- A 32-bit signed integer. -/
  | int
  /-- A 64-bit signed integer. -/
  | long
  /-- A 64-bit signed integer under its other name. -/
  | longLong
  /-- A binary64 number. -/
  | double
  /-- A binary32 number. -/
  | float
  /-- Any object, passed as it is. -/
  | object
deriving DecidableEq, Repr

namespace FormatCode

/-- All codes, in the order in which they are documented. -/
def all : List FormatCode := [text, int, long, longLong, double, float, object]

/-- The letter of a code. -/
def char : FormatCode → Char
  | text => 's'
  | int => 'i'
  | long => 'l'
  | longLong => 'L'
  | double => 'd'
  | float => 'f'
  | object => 'O'

/-- The code a letter stands for. -/
def ofChar? : Char → Option FormatCode
  | 's' => some text
  | 'i' => some int
  | 'l' => some long
  | 'L' => some longLong
  | 'd' => some double
  | 'f' => some float
  | 'O' => some object
  | _ => none

/-- The code a byte stands for, read as the character of that number. -/
def ofByte? (byte : UInt8) : Option FormatCode :=
  ofChar? (Char.ofNat byte.toNat)

/-- The bytes that the native value takes. -/
def nativeSize : FormatCode → Nat
  | int | float => 4
  | _ => 8

/-- The name of the type of object that the code goes with. -/
def typeName : FormatCode → String
  | text => "str"
  | int | long | longLong => "int"
  | double | float => "float"
  | object => "object"

/-- Each code is read back from its letter. -/
@[simp] theorem ofChar?_char (code : FormatCode) : ofChar? code.char = some code := by
  cases code <;> rfl

/-- A letter that is read as a code is the letter of that code. -/
theorem char_of_ofChar? {c : Char} {code : FormatCode} (h : ofChar? c = some code) :
    code.char = c := by
  unfold ofChar? at h
  split at h <;> cases h <;> rfl

end FormatCode

/-- The first byte of a character's UTF-8 form, shown as the character of
that number: how a letter that is no code is named in an error. -/
def leadingByte (c : Char) : Char :=
  Char.ofNat (((String.utf8EncodeChar c).headD 0).toNat)

/-- The reason given for a letter that is no code. -/
def unknownCode (c : Char) : String :=
  "unknown code '" ++ (leadingByte c).toString ++ "'"

end ExtensionHost
