/-!
# `ExtensionHost.Number.Native`: the native integer types

A boxed integer is wide; a native one has a range. Conversion gives the
integer itself when it lies in the range and nothing otherwise: there is
no wrapping and no clamping.
-/

set_option autoImplicit false

namespace ExtensionHost

/-- A native integer type that boxed integers are converted to. -/
inductive NativeInt
  | int | long | longLong | unsignedLong | size | signedSize | signedChar
deriving DecidableEq, Repr

namespace NativeInt

/-- The name under which an overflow is reported. -/
def name : NativeInt → String
  | int => "int"
  | long => "long"
  | longLong => "long long"
  | unsignedLong => "unsigned long"
  | size => "size_t"
  | signedSize => "Py_ssize_t"
  | signedChar => "signed char"

/-- The number of values. -/
def cardinality : NativeInt → Nat
  | signedChar => 0x100
  | int => 0x100000000
  | _ => 0x10000000000000000

/-- Whether there are negative values. -/
def isSigned : NativeInt → Bool
  | unsignedLong | size => false
  | _ => true

/-- The number of values below zero. -/
def negatives (target : NativeInt) : Nat :=
  if target.isSigned then target.cardinality / 2 else 0

/-- The least value. -/
def least (target : NativeInt) : Int := -target.negatives

/-- The greatest value. -/
def greatest (target : NativeInt) : Int := target.least + target.cardinality - 1

/-- Whether an integer is a value of the type. -/
def holds (target : NativeInt) (v : Int) : Bool :=
  target.least ≤ v && v ≤ target.greatest

/-- The integer itself when it is a value of the type. -/
def convert? (target : NativeInt) (v : Int) : Option Int :=
  if target.holds v then some v else none

/-- The value of the type that is congruent to an integer modulo the
number of values: what arithmetic on the type gives. -/
def wrap (target : NativeInt) (v : Int) : Int :=
  target.least + (v - target.least) % target.cardinality

end NativeInt

end ExtensionHost
