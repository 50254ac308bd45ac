import ExtensionHost.Toml.Number

/-!
# `ExtensionHost.Toml.Document`: whole configuration files

A file is a sequence of lines. A header opens a table, and the entries
behind it belong to that table until the next header. The whole file is
one table.
-/

set_option autoImplicit false

namespace ExtensionHost.Toml

open Reader

/-- A line that means something. -/
inductive Line
  | entry (path : List String) (key : String) (value : Value)
  | table (path : List String) (key : String)
  /-- The header of one of many tables. -/
  | tables (path : List String) (key : String)
deriving Repr

/-! ### Values -/

/-- A truth value. -/
def truth : Reader Value :=
  (do word "true"; return .truth true) <|> (do word "false"; return .truth false)

/-- A value that contains no others. -/
def scalar : Reader Value :=
  (do return .text (← textLiteral)) <|> number <|> truth

/-- An array of items. Between them lines may end, and a comma may stand
behind the last one. -/
def array (item : Reader Value) : Reader Value := do
  char '['
  let items ← perhaps do
    let items ← separated
      (do
        gap
        let value ← item
        gap
        return value)
      (char ',')
    discard (perhaps (char ','))
    return items
  gap
  char ']'
  return .array (items.getD [])

/-- A key and the value of it. -/
def pair (item : Reader Value) : Reader ((List String × String) × Value) := do
  let key ← key
  char '='
  blanks
  return (key, ← item)

/-- A table between braces. -/
def inlineTable (item : Reader Value) : Reader Value := do
  char '\x7b'
  let pairs ← perhaps <| separated
    (do
      let entry ← pair item
      blanks
      return entry)
    (char ',')
  blanks
  char '\x7d'
  let table := (pairs.getD []).foldlM
    (fun (origin, entries) ((path, key), value) => addPath path key value origin entries)
    (TableOrigin.inline, [])
  match table with
  | some (_, entries) => return .table .inline entries
  | none => failure

/-- A value that contains values to at most `depth` levels. -/
def value : (depth : Nat) → Reader Value
  | 0 => scalar
  | depth + 1 => scalar <|> array (value depth) <|> inlineTable (value depth)

/-! ### Lines -/

/-- An entry to the end of its line. -/
def entryLine : Reader (Option Line) := do
  let ((path, key), value) ← pair (value (depthLimit - 1))
  lineEnd
  return some (.entry path key value)

/-- A header to the end of its line. -/
def headerLine : Reader (Option Line) :=
  (do
    word "[["
    let (path, key) ← key
    word "]]"
    lineEnd
    return some (.tables path key)) <|>
  (do
    word "["
    let (path, key) ← key
    word "]"
    lineEnd
    return some (.table path key))

/-- A line without a meaning. -/
def emptyLine : Reader (Option Line) := do
  newline <|> do
    comment
    newline <|> finished
  return none

/-- The lines of a file, which may start with a mark of its encoding. -/
def lines : Reader (List Line) := do
  discard (perhaps (char (Char.ofNat 0xfeff)))
  let lines ← many do
    blanks
    emptyLine <|> headerLine <|> entryLine
  blanks
  finished
  return lines.filterMap id

/-! ### The table of a file -/

/-- What has been read: the path of the open table, and all entries. -/
structure Progress where
  openPath : List String
  entries : Entries

/-- Takes in a line. -/
def Progress.add (progress : Progress) (line : Line) : Option Progress := do
  match line with
  | .entry path key value =>
    let (_, entries) ←
      enter .implied (addPath path key value) progress.openPath .header progress.entries
    some { progress with entries }
  | .table path key =>
    let (_, entries) ← enter .implied (openTable key) path .header progress.entries
    some ⟨path ++ [key], entries⟩
  | .tables path key =>
    let (_, entries) ← enter .implied (openTables key) path .header progress.entries
    some ⟨path ++ [key], entries⟩

/-- The entries of a file. -/
def parse (text : String) : Option Entries := do
  let (lines, _) ← lines text.toList
  let progress ← lines.foldlM Progress.add ⟨[], []⟩
  some progress.entries

end ExtensionHost.Toml
