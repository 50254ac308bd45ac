import ExtensionHost.Format.Code

/-!
# `ExtensionHost.Format.Extract`: formats that take arguments apart

An extract format is a run of codes with at most one `|`, after which
arguments may be left out. A `:` ends the codes and starts the name of the
function that is being called; a `;` ends them and starts a text to report
when a call does not fit. Neither delimiter is itself a code, so the codes
are exactly what stands before the first of them.
-/

set_option autoImplicit false

namespace ExtensionHost

/-- A format that takes arguments apart. -/
structure ExtractFormat where
  codes : List FormatCode
  /-- How many of the codes must be supplied. -/
  required : Nat
  /-- The name after `:`. -/
  function : Option String
  /-- The text after `;`. -/
  message : Option String
deriving DecidableEq, Repr

namespace ExtractFormat

/-- A character that ends the codes. -/
def isDelimiter (c : Char) : Bool := c = ':' || c = ';'

/-- Reads the part before the delimiter: its codes, and how many of them
stand before the `|` if there is one. `seen` codes and the mark `mark`
precede what is read. -/
def readCodes (format : String) :
    (seen : Nat) → (mark : Option Nat) → List Char →
      Except ApiError (List FormatCode × Option Nat)
  | _, mark, [] => .ok ([], mark)
  | seen, mark, c :: rest =>
    if c = '|' then
      match mark with
      | some _ => .error (.badFormat format "more than one '|'")
      | none => readCodes format seen (some seen) rest
    else
      match FormatCode.ofChar? c with
      | none => .error (.badFormat format (unknownCode c))
      | some code =>
        match readCodes format (seen + 1) mark rest with
        | .error e => .error e
        | .ok (codes, mark) => .ok (code :: codes, mark)

/-- Reads a format. -/
def parse (format : String) : Except ApiError ExtractFormat :=
  let chars := format.toList
  let head := chars.takeWhile fun c => !isDelimiter c
  let tail := chars.dropWhile fun c => !isDelimiter c
  match readCodes format 0 none head with
  | .error e => .error e
  | .ok (codes, mark) =>
    let required := mark.getD codes.length
    match tail with
    | ':' :: name => .ok ⟨codes, required, some (String.ofList name), none⟩
    | ';' :: text => .ok ⟨codes, required, none, some (String.ofList text)⟩
    | _ => .ok ⟨codes, required, none, none⟩

/-- The number of codes. -/
def length (format : ExtractFormat) : Nat := format.codes.length

/-- The name under which a failed call is reported. -/
def functionName (format : ExtractFormat) : String :=
  format.function.getD "function"

/-- What a failed call is reported with. -/
def failureText (format : ExtractFormat) : String :=
  format.message.getD "Argument extraction failed"

/-- Writes a format: the required codes, the mark, the other codes, and
the name or the text behind its delimiter. -/
def print (format : ExtractFormat) : String :=
  let chars := format.codes.map FormatCode.char
  String.ofList (chars.take format.required ++ '|' :: chars.drop format.required)
    ++ match format.function, format.message with
      | some name, _ => ":" ++ name
      | none, some text => ";" ++ text
      | none, none => ""

end ExtractFormat

end ExtensionHost
