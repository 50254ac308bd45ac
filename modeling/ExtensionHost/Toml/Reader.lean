/-!
# `ExtensionHost.Toml.Reader`: reading from the front of a text

A reader takes characters from the front of a text and gives what they
mean, or nothing when they do not fit; where it has alternatives, the next
one starts again where the first one did.
-/

set_option autoImplicit false

namespace ExtensionHost.Toml

/-- Takes characters from the front of a text. -/
abbrev Reader := StateT (List Char) Option

namespace Reader

variable {α β : Type}

/-- A character of a class. -/
def anyOf (isMember : Char → Bool) : Reader Char := fun chars =>
  match chars with
  | c :: rest => if isMember c then some (c, rest) else none
  | [] => none

/-- One particular character. -/
def char (c : Char) : Reader Unit := discard (anyOf (· = c))

/-- The characters of a word, one after the other. -/
def word (text : String) : Reader Unit := text.toList.forM char

/-- As many characters of a class as there are. -/
def run (isMember : Char → Bool) : Reader (List Char) := fun chars =>
  some (chars.takeWhile isMember, chars.dropWhile isMember)

/-- As many characters of a class as there are, at least one. -/
def run1 (isMember : Char → Bool) : Reader (List Char) := do
  let chars ← run isMember
  if chars.isEmpty then failure else return chars

/-- Reads an item at most `count` times. -/
def atMost (item : Reader α) : (count : Nat) → Reader (List α)
  | 0 => pure []
  | count + 1 =>
    (do
      let a ← item
      let items ← atMost item count
      return a :: items) <|> pure []

/-- Reads an item as often as it fits. An item takes at least one
character, so the length of the text bounds the number of items. -/
def many (item : Reader α) : Reader (List α) := fun chars =>
  atMost item chars.length chars

/-- Reads an item if it fits. -/
def perhaps (item : Reader α) : Reader (Option α) :=
  (do return some (← item)) <|> pure none

/-- Reads items with a separator between them, at least one. -/
def separated (item : Reader α) (separator : Reader β) : Reader (List α) := do
  let a ← item
  let items ← many do
    discard separator
    item
  return a :: items

/-- Nothing is left. -/
def finished : Reader Unit := fun chars =>
  if chars.isEmpty then some ((), []) else none

/-! ### Lines -/

/-- A blank inside a line. -/
def isBlank (c : Char) : Bool := c = ' ' || c = '\t'

/-- A character that may stand in a comment: no control character but the
tab. -/
def isPlain (c : Char) : Bool :=
  c = '\t' || (0x20 ≤ c.toNat && c.toNat ≤ 0x7e) || 0x80 ≤ c.toNat

/-- Blanks, if there are any. -/
def blanks : Reader Unit := discard (run isBlank)

/-- The end of a line that another one follows. -/
def newline : Reader Unit := char '\n' <|> word "\r\n"

/-- A comment, without the end of its line. -/
def comment : Reader Unit := do
  char '#'
  discard (run isPlain)

/-- What may stand behind the last word of a line, to the end of it. -/
def lineEnd : Reader Unit := do
  blanks
  discard (perhaps comment)
  newline <|> finished

/-- Blanks, comments and ends of lines, if there are any. -/
def gap : Reader Unit :=
  discard (many (discard (anyOf isBlank) <|> newline <|> comment))

end Reader

end ExtensionHost.Toml
