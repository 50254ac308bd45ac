import ExtensionHost.Boundary.Report
import ExtensionHost.Box.Scalar
import ExtensionHost.Box.Text
import ExtensionHost.Text.Raw

/-!
# `ExtensionHost.Boundary.Scalars`: numbers and texts at the boundary

Three kinds of functions: those that box a native value, those that give
the native value of a box, with a value of the native type standing for
failure, and those that give it through an output and say apart whether
there is one.
-/

set_option autoImplicit false

namespace ExtensionHost.Boundary

/-! ### Integers -/

/-- Boxes a `long`. -/
def longFromLong (v : Int) : Host Pointer :=
  newReference "PyLong_FromLong" (Box.newInteger v)

/-- Boxes an `unsigned long`. -/
def longFromUnsignedLong (v : Int) : Host Pointer :=
  newReference "PyLong_FromUnsignedLong" (Box.newInteger v)

/-- Boxes a `long long`. -/
def longFromLongLong (v : Int) : Host Pointer :=
  newReference "PyLong_FromLongLong" (Box.newInteger v)

/-- Boxes a `size_t`. -/
def longFromSize (v : Int) : Host Pointer :=
  newReference "PyLong_FromSize_t" (Box.newInteger v)

/-- The native integer in a box. -/
def asNative (entry : String) (target : NativeInt) (failure : Int) (pointer : Pointer) :
    Host Int :=
  reporting entry failure (readFrom pointer (Box.native · · target))

/-- The `long` in a box, or minus one. -/
def longAsLong : Pointer → Host Int := asNative "PyLong_AsLong" .long (-1)

/-- The `long long` in a box, or minus one. -/
def longAsLongLong : Pointer → Host Int := asNative "PyLong_AsLongLong" .longLong (-1)

/-- The `unsigned long` in a box, or the greatest one. -/
def longAsUnsignedLong : Pointer → Host Int :=
  asNative "PyLong_AsUnsignedLong" .unsignedLong NativeInt.unsignedLong.greatest

/-- The `size_t` in a box, or the greatest one. -/
def longAsSize : Pointer → Host Int :=
  asNative "PyLong_AsSize_t" .size NativeInt.size.greatest

/-- The native integer in a box through an output. -/
def asNativeChecked (entry : String) (target : NativeInt) (pointer : Pointer)
    (output : Option Int) : Host (Int × Option Int) :=
  checked entry output (readFrom pointer (Box.native · · target))

/-- The `long` in a box through an output. -/
def longAsLongChecked : Pointer → Option Int → Host (Int × Option Int) :=
  asNativeChecked "pyabi_long_as_long_checked" .long

/-- The `long long` in a box through an output. -/
def longAsLongLongChecked : Pointer → Option Int → Host (Int × Option Int) :=
  asNativeChecked "pyabi_long_as_long_long_checked" .longLong

/-- The `size_t` in a box through an output. -/
def longAsSizeChecked : Pointer → Option Int → Host (Int × Option Int) :=
  asNativeChecked "pyabi_long_as_size_t_checked" .size

/-- Whether there is an integer, a truth value included. -/
def longCheck (pointer : Pointer) : Host Bool := test pointer (·.isInstance · .int)

/-- Whether there is an integer of no derived type. -/
def longCheckExact (pointer : Pointer) : Host Bool := test pointer (·.isExact · .int)

/-! ### Truth values -/

/-- The truth value of a `long`: every number but zero is true. -/
def boolFromLong (v : Int) : Host Pointer := do return some (← Box.newBool (v ≠ 0))

/-- Whether there is a truth value. -/
def boolCheck (pointer : Pointer) : Host Bool := test pointer (·.isExact · .bool)

/-! ### Floats -/

/-- Boxes a `double`. -/
def floatFromDouble (x : Double) : Host Pointer :=
  newReference "PyFloat_FromDouble" (Box.newReal x)

/-- The `double` in a box, or minus one. -/
def floatAsDouble (pointer : Pointer) : Host Double :=
  reporting "PyFloat_AsDouble" (.ofInt (-1)) (readFrom pointer Box.real)

/-- The `double` in a box through an output. -/
def floatAsDoubleChecked (pointer : Pointer) (output : Option Double) :
    Host (Int × Option Double) :=
  checked "pyabi_float_as_double_checked" output (readFrom pointer Box.real)

/-- Whether there is a float. -/
def floatCheck (pointer : Pointer) : Host Bool := test pointer (·.isInstance · .float)

/-- Whether there is a float of no derived type. -/
def floatCheckExact (pointer : Pointer) : Host Bool := test pointer (·.isExact · .float)

/-! ### Texts -/

/-- Boxes a text that is passed by pointer. -/
def textFromPointer (text : RawText) : Host Pointer :=
  newReference "PyUnicode_FromString" do
    match text with
    | none => throw .nullReference
    | some bytes => Box.newTextOfBytes .str bytes

/-- The text in a box as its users see it, up to the first NUL; nothing
stands for a null pointer. -/
def textAsPointer (pointer : Pointer) : Host RawText :=
  reporting "PyUnicode_AsUTF8" none do
    let text ← readFrom pointer Box.text
    return RawText.ofBytes text.toUTF8

/-- Whether there is a text. -/
def textCheck (pointer : Pointer) : Host Bool := test pointer (·.isInstance · .str)

end ExtensionHost.Boundary
