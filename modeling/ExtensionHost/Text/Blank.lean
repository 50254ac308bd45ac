/-!
# `ExtensionHost.Text.Blank`: white space around a text

The characters are those that Unicode calls white space, which are more
than the blanks of ASCII.
-/

set_option autoImplicit false

namespace ExtensionHost.Text

/-- The ranges of the white space characters. -/
def blankRanges : List (Nat × Nat) :=
  [(0x09, 0x0d), (0x20, 0x20), (0x85, 0x85), (0xa0, 0xa0), (0x1680, 0x1680),
    (0x2000, 0x200a), (0x2028, 0x2029), (0x202f, 0x202f), (0x205f, 0x205f), (0x3000, 0x3000)]

/-- Whether a character is white space. -/
def isBlank (c : Char) : Bool :=
  blankRanges.any fun (first, last) => first ≤ c.toNat && c.toNat ≤ last

/-- A text without the white space at its ends. -/
def trim (text : String) : String :=
  String.ofList ((text.toList.dropWhile isBlank).reverse.dropWhile isBlank).reverse

/-- The ASCII letters of a text in lower case. -/
def lower (text : String) : String := text.map Char.toLower

end ExtensionHost.Text
