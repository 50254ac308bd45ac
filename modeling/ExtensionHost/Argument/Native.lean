import ExtensionHost.Box.Scalar
import ExtensionHost.Box.Text
import ExtensionHost.Format.Code

/-!
# `ExtensionHost.Argument.Native`: native values and where they go

A native value has the type that one letter of a format names. Objects
are converted to native values one letter at a time, and an output is a
place that a value of one letter is stored in.
-/

set_option autoImplicit false

namespace ExtensionHost

/-- A native value. Texts and objects are passed by pointer and may be
absent. -/
inductive Native
  | text (value : Option String)
  | int (value : Int)
  | long (value : Int)
  | longLong (value : Int)
  | double (value : Double)
  | float (value : Single)
  | object (value : Option Ref)
deriving DecidableEq, Repr

namespace Native

/-- The code of the native type that a value is of. -/
def code : Native → FormatCode
  | text _ => .text
  | int _ => .int
  | long _ => .long
  | longLong _ => .longLong
  | double _ => .double
  | float _ => .float
  | object _ => .object

/-- The value of a code that an integer is written as. Where the code
takes a pointer that is the null pointer. -/
def ofInt (v : Int) : FormatCode → Native
  | .text => text none
  | .int => int v
  | .long => long v
  | .longLong => longLong v
  | .double => double (.ofInt v)
  | .float => float (Double.ofInt v).narrow
  | .object => object none

/-- The native value of an object under a code. -/
def ofObject (w : World) (code : FormatCode) (r : Ref) : Except ApiError Native :=
  match code with
  | .text => (Box.terminatedText w r).map fun text => .text (some text)
  | .int => (Box.native w r .int).map .int
  | .long => (Box.native w r .long).map .long
  | .longLong => (Box.native w r .longLong).map .longLong
  | .double => (Box.real w r).map .double
  | .float => (Box.real w r).map fun x => .float x.narrow
  | .object => .ok (.object (some r))

end Native

/-- A place for a native value. -/
structure Output where
  /-- The letter by which the place says what it is for. -/
  letter : Char
  /-- What stands in the place, if there is one. -/
  content : Option Native
deriving DecidableEq, Repr

namespace Output

/-- A place that holds a value and takes others of the same type. -/
def ofNative (value : Native) : Output := ⟨value.code.char, some value⟩

/-- Stores a value. Where there is no place nothing is stored, and a place
never takes a value of another type. -/
def store (output : Output) (value : Native) : Output :=
  match output.content with
  | none => output
  | some old => if old.code = value.code then { output with content := some value } else output

end Output

end ExtensionHost
