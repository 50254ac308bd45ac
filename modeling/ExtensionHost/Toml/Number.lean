import ExtensionHost.Number.Native
import ExtensionHost.Toml.Text
import ExtensionHost.Toml.Value

/-!
# `ExtensionHost.Toml.Number`: numbers and times

An underscore may stand between two digits. Decimal integers have no
leading zeros, integers to other bases have no sign, and an integer that
does not fit a signed 64-bit word is refused. A floating-point number is
refused when it is so large that it rounds to infinity and is positive.
-/

set_option autoImplicit false

namespace ExtensionHost.Toml

open Reader
open Text (hexDigit?)

/-- Whether a character is a decimal digit. -/
def isDigit (c : Char) : Bool := (Number.digit? c).isSome

/-- Digits of a class with underscores between them. -/
def digits (isMember : Char → Bool) : Reader (List Char) := do
  let first ← anyOf isMember
  let rest ← many do
    discard (perhaps (char '_'))
    anyOf isMember
  return first :: rest

/-- A sign; whether it is the minus sign. -/
def sign : Reader Bool := do
  match ← perhaps (anyOf fun c => c = '+' || c = '-') with
  | some c => return c = '-'
  | none => return false

/-- A decimal integer: whether it is negative, and its digits. -/
def decimal : Reader (Bool × List Char) := do
  let negative ← sign
  let zero ← perhaps (char '0')
  if zero.isSome then return (negative, ['0'])
  else return (negative, ← digits isDigit)

/-- An integer, if it fits a signed 64-bit word. -/
def wordSized (v : Int) : Reader Value :=
  if NativeInt.longLong.holds v then return .integer v else failure

/-- An integer to a base with a mark of its own. -/
def based (mark : String) (base : Nat) : Reader Value := do
  word mark
  let isMember (c : Char) : Bool := (hexDigit? c).any (· < base)
  match Number.ofDigits? base hexDigit? (← digits isMember) with
  | some n => wordSized n
  | none => failure

/-- A decimal integer as a value. -/
def decimalInteger : Reader Value := do
  let (negative, chars) ← decimal
  match Number.ofDigits? 10 Number.digit? chars with
  | some n => wordSized (if negative then -n else n)
  | none => failure

/-- An integer. -/
def integer : Reader Value :=
  based "0x" 16 <|> based "0o" 8 <|> based "0b" 2 <|> decimalInteger

/-! ### Floating-point numbers -/

/-- The least real number that rounds to infinity: half a unit beyond the
greatest double. -/
def infinityBound : Nat := (1 <<< 54 - 1) <<< 970

/-- The number whose digits are those of `n` with `count` zeros behind
them. -/
def withZeros (n : Nat) : (count : Nat) → Nat
  | 0 => n
  | count + 1 => withZeros (10 * n) count

/-- Whether `mantissa` times ten to the power `exponent` rounds to
infinity. Where the number of digits decides, the power is not computed. -/
def overflows (mantissa : Nat) (exponent : Int) : Bool :=
  -- The number lies below ten to the power `magnitude`, and infinity starts
  -- between the powers 308 and 309.
  let magnitude := (Nat.toDigits 10 mantissa).length + exponent
  if mantissa = 0 ∨ magnitude < 308 then false
  else if 310 < magnitude then true
  else if 0 ≤ exponent then infinityBound ≤ withZeros mantissa exponent.toNat
  else withZeros infinityBound (-exponent).toNat ≤ mantissa

/-- The digits behind a decimal point. -/
def fraction : Reader (List Char) := do
  char '.'
  digits isDigit

/-- The power of ten by which a number is multiplied. -/
def exponent : Reader Int := do
  discard (anyOf fun c => c = 'e' || c = 'E')
  let negative ← sign
  match Number.ofDigits? 10 Number.digit? (← digits isDigit) with
  | some n => return if negative then -(n : Int) else n
  | none => failure

/-- A floating-point number written in digits. -/
def finiteReal : Reader Value := do
  let (negative, whole) ← decimal
  let (part, power) ←
    (do return ([], ← exponent)) <|>
    (do
      let part ← fraction
      return (part, (← perhaps exponent).getD 0))
  match Number.ofDigits? 10 Number.digit? (whole ++ part) with
  | some mantissa =>
    if !negative && overflows mantissa (power - part.length) then failure else return .real
  | none => failure

/-- A floating-point number that is no number or infinite. -/
def specialReal : Reader Value := do
  discard sign
  word "inf" <|> word "nan"
  return .real

/-! ### Times -/

/-- A number of exactly `count` digits between two bounds. -/
def field (count least greatest : Nat) : Reader Nat := fun chars => do
  let digits := chars.take count
  if digits.length < count then none
  else
    let n ← Number.ofDigits? 10 Number.digit? digits
    if least ≤ n ∧ n ≤ greatest then some (n, chars.drop count) else none

/-- The days of a month. -/
def daysOfMonth (year month : Nat) : Nat :=
  if month = 2 then
    if year % 4 = 0 ∧ (year % 100 ≠ 0 ∨ year % 400 = 0) then 29 else 28
  else if [4, 6, 9, 11].contains month then 30
  else 31

/-- A day. -/
def date : Reader Unit := do
  let year ← field 4 0 9999
  char '-'
  let month ← field 2 1 12
  char '-'
  discard (field 2 1 (daysOfMonth year month))

/-- A time of day, with a second for a leap. -/
def timeOfDay : Reader Unit := do
  discard (field 2 0 23)
  char ':'
  discard (field 2 0 59)
  char ':'
  discard (field 2 0 60)
  discard <| perhaps do
    char '.'
    run1 isDigit

/-- The distance from universal time. -/
def offset : Reader Unit :=
  discard (anyOf fun c => c = 'Z' || c = 'z') <|> do
    discard (anyOf fun c => c = '+' || c = '-')
    discard (field 2 0 23)
    char ':'
    discard (field 2 0 59)

/-- A day, a time of day, or both. -/
def time : Reader Value :=
  (do
    date
    discard <| perhaps do
      discard (anyOf fun c => c = 'T' || c = 't' || c = ' ')
      timeOfDay
      perhaps offset
    return .time) <|>
  (do
    timeOfDay
    return .time)

/-- A number or a time. -/
def number : Reader Value := time <|> finiteReal <|> specialReal <|> integer

end ExtensionHost.Toml
