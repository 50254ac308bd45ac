/-!
# `ExtensionHost.Number.Rounding`: division to nearest, ties to even

Every conversion that loses digits loses them here: the quotient goes to
the nearest integer, and a remainder of exactly one half goes to the even
neighbour.
-/

set_option autoImplicit false

namespace ExtensionHost.Number

/-- `n / d` rounded to the nearest integer, a half to the even one. -/
def roundDiv (n d : Nat) : Nat :=
  let quotient := n / d
  let twice := 2 * (n % d)
  if twice < d then quotient
  else if d < twice then quotient + 1
  else quotient + quotient % 2

end ExtensionHost.Number
