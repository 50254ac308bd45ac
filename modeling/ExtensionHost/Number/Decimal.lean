import ExtensionHost.Size

/-!
# `ExtensionHost.Number.Decimal`: sizes written in decimal digits

A size is written as digits, at least one, behind an optional plus sign.
Leading zeros are allowed; signs of other kinds, separators and numbers
that are no size are not.
-/

set_option autoImplicit false

namespace ExtensionHost.Number

/-- The number that digits write, the first of them most significant. -/
def ofDigits? (base : Nat) (value : Char → Option Nat) : List Char → Option Nat
  | digits => digits.foldlM (fun n c => (value c).map (base * n + ·)) 0

/-- The value of a decimal digit. -/
def digit? (c : Char) : Option Nat :=
  if '0' ≤ c ∧ c ≤ '9' then some (c.toNat - '0'.toNat) else none

/-- The size that a text writes. -/
def size? (text : String) : Option Nat :=
  let digits := match text.toList with
    | '+' :: rest => rest
    | all => all
  if digits.isEmpty then none
  else
    (ofDigits? 10 digit? digits).bind fun n => if n ≤ Size.greatest then some n else none

end ExtensionHost.Number
