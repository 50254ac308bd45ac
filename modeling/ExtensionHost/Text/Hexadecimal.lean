/-!
# `ExtensionHost.Text.Hexadecimal`: numbers and bytes in hexadecimal digits

Digits are written in lower case and read in either case. A byte takes two
digits.
-/

set_option autoImplicit false

namespace ExtensionHost.Text

/-- The value of a hexadecimal digit. -/
def hexDigit? (c : Char) : Option Nat :=
  if '0' ≤ c ∧ c ≤ '9' then some (c.toNat - '0'.toNat)
  else if 'a' ≤ c ∧ c ≤ 'f' then some (c.toNat - 'a'.toNat + 10)
  else if 'A' ≤ c ∧ c ≤ 'F' then some (c.toNat - 'A'.toNat + 10)
  else none

/-- The number that a text writes in hexadecimal digits; other characters
count as zero. -/
def ofHex (text : String) : Nat :=
  text.toList.foldl (fun n c => 16 * n + (hexDigit? c).getD 0) 0

/-- A number in at least `width` hexadecimal digits. -/
def toHex (width n : Nat) : String :=
  let digits := Nat.toDigits 16 n
  String.ofList (List.replicate (width - digits.length) '0' ++ digits)

/-- Bytes written one after the other. -/
def hexOfBytes (bytes : ByteArray) : String :=
  String.join (bytes.toList.map fun byte => toHex 2 byte.toNat)

/-- The bytes that pairs of digits write, behind those that are there. -/
def readBytes (bytes : ByteArray) : List Char → ByteArray
  | high :: low :: rest =>
    readBytes (bytes.push (.ofNat (ofHex (String.ofList [high, low])))) rest
  | _ => bytes

/-- The bytes that a text writes. -/
def bytesOfHex (text : String) : ByteArray := readBytes ByteArray.empty text.toList

end ExtensionHost.Text
