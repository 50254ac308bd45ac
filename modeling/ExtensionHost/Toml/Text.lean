import ExtensionHost.Number.Decimal
import ExtensionHost.Text.Hexadecimal
import ExtensionHost.Toml.Reader

/-!
# `ExtensionHost.Toml.Text`: texts and keys

A text stands between quotation marks, where a backslash starts an escape,
or between apostrophes, where every character stands for itself. Three
marks instead of one allow for ends of lines; one or two marks may then
stand inside, also right in front of the three that end the text.
-/

set_option autoImplicit false

namespace ExtensionHost.Toml

open Reader
open Text (hexDigit?)

/-- The mark around texts with escapes. -/
def quotationMark : Char := Char.ofNat 34

/-- The mark around texts without escapes. -/
def apostrophe : Char := Char.ofNat 39

/-- The characters that a backslash and a letter stand for. -/
def escapes : List (Char × Char) :=
  [('b', Char.ofNat 8), ('t', '\t'), ('n', '\n'), ('f', Char.ofNat 12), ('r', '\r'),
    (quotationMark, quotationMark), ('\\', '\\')]

/-- A character written by its number in `count` hexadecimal digits. -/
def numbered (count : Nat) : Reader Char := fun chars => do
  let digits := chars.take count
  if digits.length < count then none
  else
    let n ← Number.ofDigits? 16 hexDigit? digits
    if n.isValidChar then some (Char.ofNat n, chars.drop count) else none

/-- An escape. -/
def escape : Reader Char := do
  char '\\'
  let letter ← anyOf fun _ => true
  if letter = 'u' then numbered 4
  else if letter = 'U' then numbered 8
  else
    match escapes.lookup letter with
    | some c => return c
    | none => failure

/-- A character that stands for itself in a text with escapes. -/
def isVerbatim (c : Char) : Bool := isPlain c && c ≠ quotationMark && c ≠ '\\'

/-- A character that may stand in a text without escapes. -/
def isLiteral (c : Char) : Bool := isPlain c && c ≠ apostrophe

/-- A text with escapes on one line. -/
def basicText : Reader String := do
  char quotationMark
  let chars ← many (anyOf isVerbatim <|> escape)
  char quotationMark
  return String.ofList chars

/-- A text without escapes on one line. -/
def literalText : Reader String := do
  char apostrophe
  let chars ← run isLiteral
  char apostrophe
  return String.ofList chars

/-- Marks inside a text between three marks: one or two of them. -/
def innerMarks (mark : Char) : Reader (List Char) := do
  let marks ← run1 (· = mark)
  if 2 < marks.length then failure else return marks

/-- The marks that end a text between three marks, with the one or two in
front of them that belong to the text. -/
def closingMarks (mark : Char) : Reader (List Char) := do
  let marks ← run1 (· = mark)
  if marks.length < 3 ∨ 5 < marks.length then failure else return marks.drop 3

/-- A text between three marks, made of pieces. An end of a line right
behind the opening marks does not count. -/
def longText (mark : Char) (piece : Reader (List Char)) : Reader String := do
  char mark
  char mark
  char mark
  discard (perhaps newline)
  let pieces ← many (piece <|> (do newline; return ['\n']) <|> innerMarks mark)
  let marks ← closingMarks mark
  return String.ofList (pieces.flatten ++ marks)

/-- A backslash at the end of a line, which stands for nothing and takes
the white space behind it along. -/
def continuation : Reader (List Char) := do
  char '\\'
  blanks
  newline
  discard (many (discard (anyOf isBlank) <|> newline))
  return []

/-- A text with escapes over lines. -/
def longBasicText : Reader String :=
  longText quotationMark
    (run1 isVerbatim <|> continuation <|> (do return [← escape]))

/-- A text without escapes over lines. -/
def longLiteralText : Reader String := longText apostrophe (run1 isLiteral)

/-- A text. -/
def textLiteral : Reader String :=
  longBasicText <|> basicText <|> longLiteralText <|> literalText

/-! ### Keys -/

/-- A character of a key without marks. -/
def isBare (c : Char) : Bool := c.isAlphanum || c = '_' || c = '-'

/-- A key without dots. -/
def simpleKey : Reader String :=
  (do return String.ofList (← run1 isBare)) <|> basicText <|> literalText

/-- The number of parts that a dotted key may not reach, and the number of
levels to which values may not be nested. -/
def depthLimit : Nat := 80

/-- A key: the parts before the last dot, and the last part. -/
def key : Reader (List String × String) := do
  let parts ← separated
    (do
      blanks
      let part ← simpleKey
      blanks
      return part)
    (char '.')
  match parts.getLast? with
  | some last => if parts.length < depthLimit then return (parts.dropLast, last) else failure
  | none => failure

end ExtensionHost.Toml
