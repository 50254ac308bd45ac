import ExtensionHost.Format.Code

/-!
# `ExtensionHost.Format.Build`: formats that put values together

A build format is a sequence of codes and of groups in parentheses, which
may be nested. Spaces, tabs, commas and colons may stand anywhere and mean
nothing. The reader keeps the group it is in and the groups around it;
both are held last item first, so that an item is added at the front.
-/

set_option autoImplicit false

namespace ExtensionHost

/-- A value to be put together: one boxed native value, or a tuple. -/
inductive BuildItem
  | code (code : FormatCode)
  | group (items : List BuildItem)
deriving Repr

namespace BuildItem

mutual

/-- The codes of an item in reading order. -/
def codes : BuildItem → List FormatCode
  | code c => [c]
  | group items => codesOfList items

/-- The codes of a list of items in reading order. -/
def codesOfList : List BuildItem → List FormatCode
  | [] => []
  | item :: items => codes item ++ codesOfList items

end

mutual

/-- How many native values an item takes. -/
def arity : BuildItem → Nat
  | code _ => 1
  | group items => arityOfList items

/-- How many native values the items of a list take together. -/
def arityOfList : List BuildItem → Nat
  | [] => 0
  | item :: items => arity item + arityOfList items

end

mutual

/-- Writes an item: its letter, or the members of the group in
parentheses. -/
def print : BuildItem → List Char
  | code c => [c.char]
  | group items => '(' :: printList items ++ [')']

/-- Writes items one after the other. -/
def printList : List BuildItem → List Char
  | [] => []
  | item :: items => print item ++ printList items

end

mutual

/-- Each code takes one native value. -/
theorem arity_eq_length : (item : BuildItem) → item.arity = item.codes.length
  | code _ => by rw [arity, codes, List.length_singleton]
  | group items => by rw [arity, codes, arityOfList_eq_length items]

/-- A sequence of items takes as many values as codes are written in it. -/
theorem arityOfList_eq_length :
    (items : List BuildItem) → arityOfList items = (codesOfList items).length
  | [] => by rw [arityOfList, codesOfList, List.length_nil]
  | item :: items => by
    rw [arityOfList, codesOfList, List.length_append, arity_eq_length item,
      arityOfList_eq_length items]

end

end BuildItem

/-- A format that puts values together. -/
structure BuildFormat where
  items : List BuildItem
deriving Repr

namespace BuildFormat

/-- A character without a meaning. -/
def isSeparator (c : Char) : Bool := c = ' ' || c = '\t' || c = ',' || c = ':'

/-- Reads items. `items` are those of the innermost open group and
`around` those of the groups outside it, all of them last item first. -/
def readItems (format : String) :
    (items : List BuildItem) → (around : List (List BuildItem)) → List Char →
      Except ApiError (List BuildItem)
  | items, [], [] => .ok items.reverse
  | _, _ :: _, [] => .error (.badFormat format "unmatched '('")
  | items, around, c :: rest =>
    if isSeparator c then readItems format items around rest
    else if c = '(' then readItems format [] (items :: around) rest
    else if c = ')' then
      match around with
      | [] => .error (.badFormat format "unmatched ')'")
      | outer :: around => readItems format (.group items.reverse :: outer) around rest
    else
      match FormatCode.ofChar? c with
      | none => .error (.badFormat format (unknownCode c))
      | some code => readItems format (.code code :: items) around rest

/-- Reads a format. -/
def parse (format : String) : Except ApiError BuildFormat :=
  match readItems format [] [] format.toList with
  | .error e => .error e
  | .ok items => .ok ⟨items⟩

/-- The codes of a format in reading order. -/
def codes (format : BuildFormat) : List FormatCode :=
  BuildItem.codesOfList format.items

/-- How many native values a format takes. -/
def arity (format : BuildFormat) : Nat := BuildItem.arityOfList format.items

/-- A format takes one value for each of its codes, however they are grouped. -/
theorem arity_eq_length (format : BuildFormat) : format.arity = format.codes.length :=
  BuildItem.arityOfList_eq_length format.items

/-- Writes a format without separators. -/
def print (format : BuildFormat) : String :=
  String.ofList (BuildItem.printList format.items)

end BuildFormat

end ExtensionHost
