import ExtensionHost.Text.Invisible

/-!
# `ExtensionHost.Text.Quoted`: a text between quotation marks

The quotation mark and the backslash are escaped by a backslash, the usual
control characters have letters of their own, and every other character
that does not show by itself is written by its number in braces. All other
characters stand for themselves.
-/

set_option autoImplicit false

namespace ExtensionHost.Text

/-- The written form of one character. -/
def quoteChar (c : Char) : List Char :=
  if c = '"' then ['\\', '"']
  else if c = '\\' then ['\\', '\\']
  else if c = '\n' then ['\\', 'n']
  else if c = '\r' then ['\\', 'r']
  else if c = '\t' then ['\\', 't']
  else if c = '\x00' then ['\\', '0']
  else if isInvisible c then
    ['\\', 'u', '\x7b'] ++ Nat.toDigits 16 c.toNat ++ ['\x7d']
  else [c]

/-- The written form of a text. -/
def quote (text : String) : String :=
  String.ofList ('"' :: text.toList.flatMap quoteChar ++ ['"'])

end ExtensionHost.Text
