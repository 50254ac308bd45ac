import ExtensionHost.Number.Rounding

/-!
# `ExtensionHost.Number.Binary`: floating-point numbers as their bits

A double is its 64 bits and a single its 32 bits: a sign, a biased
exponent, and a fraction below the leading one. Widening is exact;
narrowing and the conversion of integers round to nearest, ties to even.
A rounded fraction that reaches the next power of two carries into the
exponent by plain addition, which is also how the largest singles become
infinite.
-/

set_option autoImplicit false

namespace ExtensionHost

/-- A binary64 number, by its bits. -/
structure Double where
  bits : UInt64
deriving DecidableEq, Repr, Inhabited

/-- A binary32 number, by its bits. -/
structure Single where
  bits : UInt32
deriving DecidableEq, Repr, Inhabited

namespace Double

/-- The sign bit. -/
def negative (x : Double) : Bool := x.bits >>> 63 = 1

/-- The biased exponent. -/
def exponent (x : Double) : Nat := x.bits.toNat >>> 52 % 0x800

/-- The fraction below the leading one. -/
def fraction (x : Double) : Nat := x.bits.toNat % 1 <<< 52

/-- Not a number: the greatest exponent with a fraction. -/
def isNaN (x : Double) : Bool := x.exponent = 2047 && x.fraction ≠ 0

/-- Puts a sign in front of a magnitude. -/
def ofMagnitude (negative : Bool) (magnitude : Nat) : Double :=
  ⟨UInt64.ofNat ((if negative then 1 <<< 63 else 0) + magnitude)⟩

/-- The double nearest to an integer of at most 1023 binary digits. -/
def ofInt (v : Int) : Double :=
  let n := v.natAbs
  if n = 0 then ⟨0⟩
  else
    let top := n.log2
    -- The leading one stands at bit 52, so it adds one to the exponent.
    let leading := if top ≤ 52 then n <<< (52 - top) else Number.roundDiv n (1 <<< (top - 52))
    ofMagnitude (v < 0) ((top + 1022) <<< 52 + leading)

/-- The product of two doubles, rounded to nearest. -/
def mul (x y : Double) : Double :=
  ⟨(Float.ofBits x.bits * Float.ofBits y.bits).toBits⟩

end Double

namespace Single

/-- The sign bit. -/
def negative (x : Single) : Bool := x.bits >>> 31 = 1

/-- The biased exponent. -/
def exponent (x : Single) : Nat := x.bits.toNat >>> 23 % 0x100

/-- The fraction below the leading one. -/
def fraction (x : Single) : Nat := x.bits.toNat % 1 <<< 23

/-- Not a number: the greatest exponent with a fraction. -/
def isNaN (x : Single) : Bool := x.exponent = 255 && x.fraction ≠ 0

/-- Puts a sign in front of a magnitude. -/
def ofMagnitude (negative : Bool) (magnitude : Nat) : Single :=
  ⟨UInt32.ofNat ((if negative then 1 <<< 31 else 0) + magnitude)⟩

/-- The double of the same value. A subnormal single is normal as a
double, so its fraction is shifted up until it has a leading one. -/
def widen (x : Single) : Double :=
  let magnitude :=
    -- What is no number stays quiet and keeps its payload.
    if x.exponent = 255 then
      2047 <<< 52 +
        (if x.fraction = 0 then 0 else 1 <<< 51 + (x.fraction % 1 <<< 22) <<< 29)
    else if x.exponent = 0 then
      if x.fraction = 0 then 0
      else
        -- The value is `x.fraction` units of two to the power -149, and the
        -- bias of the double is 1023.
        let top := x.fraction.log2
        (top + 873) <<< 52 + x.fraction <<< (52 - top)
    -- The biases differ by 896.
    else (x.exponent + 896) <<< 52 + x.fraction <<< 29
  Double.ofMagnitude x.negative magnitude

end Single

namespace Double

/-- The single nearest to a double: infinite when the magnitude is beyond
the greatest finite single by half a unit or more, and with fewer digits
below the least normal one. -/
def narrow (x : Double) : Single :=
  let magnitude :=
    if x.exponent = 2047 then
      255 <<< 23 + (if x.fraction = 0 then 0 else 1 <<< 22 + x.fraction >>> 29 % 1 <<< 22)
    -- From two to the power 128 on every magnitude is infinite.
    else if 1151 ≤ x.exponent then 255 <<< 23
    else if 897 ≤ x.exponent then
      (x.exponent - 897) <<< 23 + Number.roundDiv (1 <<< 52 + x.fraction) (1 <<< 29)
    -- Below the least normal single the leading one is shifted in as well.
    else Number.roundDiv (1 <<< 52 + x.fraction) (1 <<< (926 - x.exponent))
  Single.ofMagnitude x.negative magnitude

end Double

end ExtensionHost
