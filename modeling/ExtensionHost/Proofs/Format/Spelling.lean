import ExtensionHost.Format.Build
import ExtensionHost.Format.Extract

/-!
# `ExtensionHost.Proofs.Format.Spelling`: formats are read as they are written

The two kinds of formats have readers of their own. What they have in common are
the letters of the codes, and that no letter is a separator, a parenthesis, a mark
or a delimiter. So a reader that comes to the letters of some codes takes these
codes and goes on with what stands behind them. Each reader has a lemma that says
this with the state that it is in, and reading a whole format is one use of it.
-/

set_option autoImplicit false

namespace ExtensionHost

namespace FormatCode

/-- The letters of codes, one after the other. -/
def letters (codes : List FormatCode) : String := String.ofList (codes.map char)

end FormatCode

open FormatCode

/-! ### Formats that put values together -/

namespace BuildFormat

variable {format : String}

/-- A letter is a code and nothing else. -/
theorem readItems_char (items : List BuildItem) (around : List (List BuildItem))
    (code : FormatCode) (rest : List Char) :
    readItems format items around (code.char :: rest) =
      readItems format (.code code :: items) around rest := by
  cases around <;> cases code <;> simp [readItems, isSeparator, char, ofChar?]

mutual

/-- What stands for an item is read as this item, in whatever group it
stands. -/
theorem readItems_print : (item : BuildItem) → (seen : List BuildItem) →
    (around : List (List BuildItem)) → (rest : List Char) →
    readItems format seen around (item.print ++ rest) = readItems format (item :: seen) around rest
  | .code code, seen, around, rest => readItems_char seen around code rest
  | .group items, seen, around, rest => by
    -- the members are read into a group of their own, which the parenthesis closes
    have hmembers := readItems_printList items [] (seen :: around) (')' :: rest)
    have hclosed : readItems format (items.reverse ++ []) (seen :: around) (')' :: rest) =
        readItems format (.group items :: seen) around rest := by
      simp [readItems, isSeparator]
    have hopened :
        readItems format seen around ('(' :: (BuildItem.printList items ++ ')' :: rest)) =
          readItems format [] (seen :: around) (BuildItem.printList items ++ ')' :: rest) := by
      cases around <;> simp [readItems, isSeparator]
    rw [BuildItem.print, List.append_assoc, List.cons_append, List.singleton_append, hopened,
      hmembers, hclosed]

/-- What is printed of items is read back item by item, with whatever groups are open. -/
theorem readItems_printList : (items seen : List BuildItem) → (around : List (List BuildItem)) →
    (rest : List Char) →
    readItems format seen around (BuildItem.printList items ++ rest) =
      readItems format (items.reverse ++ seen) around rest
  | [], _, _, _ => rfl
  | item :: items, seen, around, rest => by
    rw [BuildItem.printList, List.append_assoc, readItems_print item, readItems_printList items,
      List.reverse_cons, List.append_assoc, List.singleton_append]

end

/-- A format that is written is read again. -/
theorem parse_print (format : BuildFormat) : parse format.print = .ok format := by
  have hread : readItems format.print [] [] (BuildItem.printList format.items ++ []) = _ :=
    readItems_printList format.items [] [] []
  rw [List.append_nil, List.append_nil] at hread
  rw [parse, print, String.toList_ofList, ← print, hread, readItems, List.reverse_reverse]

/-- A format that cannot be read is refused as such. -/
theorem readItems_error {items : List BuildItem}
    {around : List (List BuildItem)} {chars : List Char} {e : ApiError}
    (h : readItems format items around chars = .error e) :
    ∃ reason, e = .badFormat format reason := by
  fun_induction readItems format items around chars with
  | case1 => cases h
  | case2 | case5 | case7 =>
    cases h
    exact ⟨_, rfl⟩
  | case3 _ _ _ _ _ ih | case4 _ _ _ _ ih | case6 _ _ _ _ _ _ ih | case8 _ _ _ _ _ _ _ _ _ ih =>
    exact ih h

/-- A format that is refused is refused as badly written. -/
theorem parse_error {text : String} {e : ApiError} (h : parse text = .error e) :
    ∃ reason, e = .badFormat text reason := by
  rw [parse] at h
  split at h
  · next hread =>
    cases h
    exact readItems_error hread
  · cases h
/-- The letters of codes are the items that are these codes. -/
theorem printList_codes (codes : List FormatCode) :
    BuildItem.printList (codes.map .code) = codes.map char := by
  induction codes with
  | nil => rfl
  | cons code codes ih =>
    rw [List.map_cons, BuildItem.printList, BuildItem.print, ih]
    rfl

/-- The letters of codes are read as these codes. -/
theorem parse_letters (codes : List FormatCode) :
    parse (letters codes) = .ok ⟨codes.map .code⟩ := by
  rw [← parse_print, print, printList_codes]
  rfl

/-- The letters of codes in parentheses are read as one group. -/
theorem parse_parenthesized (codes : List FormatCode) :
    parse ("(" ++ letters codes ++ ")") = .ok ⟨[.group (codes.map .code)]⟩ := by
  rw [← parse_print, print, BuildItem.printList, BuildItem.printList, BuildItem.print,
    printList_codes]
  congr 1
  apply String.toList_injective
  simp [letters]

end BuildFormat

/-! ### Formats that take arguments apart -/

namespace ExtractFormat

variable {format : String}

/-- What may stand behind the codes. -/
inductive Suffix
  | none
  /-- The name of the function that is called. -/
  | name (function : String)
  /-- What a failed call is reported with. -/
  | message (words : String)

namespace Suffix

/-- The suffix with its delimiter. -/
def print : Suffix → String
  | none => ""
  | name function => ":" ++ function
  | message words => ";" ++ words

def function? : Suffix → Option String
  | name function => some function
  | _ => Option.none

def message? : Suffix → Option String
  | message words => some words
  | _ => Option.none

end Suffix

/-- The letters of codes, with a mark in front of one of them or behind all. -/
def marked (codes : List FormatCode) : Option Nat → String
  | none => letters codes
  | some position => letters (codes.take position) ++ "|" ++ letters (codes.drop position)

/-- The letter of a code delimits nothing. -/
theorem isDelimiter_char (code : FormatCode) : isDelimiter code.char = false := by
  cases code <;> rfl

/-- The letter of a code is read as this code, before whatever follows. -/
theorem readCodes_char (seen : Nat) (mark : Option Nat) (code : FormatCode) (rest : List Char) :
    readCodes format seen mark (code.char :: rest) =
      (readCodes format (seen + 1) mark rest).map fun found => (code :: found.1, found.2) := by
  have hmark : code.char ≠ '|' := by cases code <;> decide
  cases mark <;> simp only [readCodes, if_neg hmark, ofChar?_char] <;>
    cases readCodes format (seen + 1) _ rest <;> rfl

/-- The codes in front are read, and then the rest. -/
theorem readCodes_letters (codes : List FormatCode) (seen : Nat) (mark : Option Nat)
    (rest : List Char) :
    readCodes format seen mark (codes.map char ++ rest) =
      (readCodes format (seen + codes.length) mark rest).map fun found =>
        (codes ++ found.1, found.2) := by
  induction codes generalizing seen with
  | nil => cases hrest : readCodes format seen mark rest <;> simp [hrest, Except.map]
  | cons code codes ih =>
    rw [List.map_cons, List.cons_append, readCodes_char, ih, List.length_cons, Nat.add_right_comm,
      Nat.add_assoc]
    cases readCodes format (seen + (codes.length + 1)) mark rest <;> rfl

/-- The letters of codes are read as these codes, with the marker where it was. -/
theorem readCodes_map_char (codes : List FormatCode) (seen : Nat) (mark : Option Nat) :
    readCodes format seen mark (codes.map char) = .ok (codes, mark) := by
  have hread : readCodes format seen mark (codes.map char ++ []) = _ :=
    readCodes_letters codes seen mark []
  rw [List.append_nil] at hread
  rw [hread, readCodes, Except.map, List.append_nil]

/-- The letters of codes are their characters. -/
theorem toList_letters (codes : List FormatCode) : (letters codes).toList = codes.map char :=
  String.toList_ofList

/-- The part in front of the delimiter. -/
theorem readCodes_marked (codes : List FormatCode) (mark : Option Nat) :
    readCodes format 0 none (marked codes mark).toList =
      .ok (codes, mark.map (min · codes.length)) := by
  cases mark with
  | none => rw [marked, toList_letters, readCodes_map_char, Option.map_none]
  | some position =>
    have hmark : ∀ seen rest, readCodes format seen none ('|' :: rest) =
        readCodes format seen (some seen) rest := fun seen rest => by simp [readCodes]
    have hsplit : (marked codes (some position)).toList =
        (codes.take position).map char ++ '|' :: (codes.drop position).map char := by
      simp [marked, toList_letters]
    rw [hsplit, readCodes_letters, hmark, readCodes_map_char, Except.map, List.take_append_drop,
      Nat.zero_add, List.length_take, Option.map_some]

/-- What is printed of codes and a marker has no delimiter in it. -/
theorem isDelimiter_marked (codes : List FormatCode) (mark : Option Nat) :
    ∀ c ∈ (marked codes mark).toList, isDelimiter c = false := by
  have hletters (codes : List FormatCode) :
      ∀ c ∈ (letters codes).toList, isDelimiter c = false := by
    intro c hc
    rw [toList_letters] at hc
    obtain ⟨code, -, rfl⟩ := List.mem_map.1 hc
    exact isDelimiter_char code
  cases mark with
  | none => exact hletters codes
  | some position =>
    intro c hc
    rw [marked, String.toList_append, String.toList_append, List.append_assoc] at hc
    rcases List.mem_append.1 hc with hc | hc
    · exact hletters _ c hc
    · rcases List.mem_append.1 hc with hc | hc
      · obtain rfl := List.mem_singleton.1 hc
        rfl
      · exact hletters _ c hc

/-- A format is read as the codes that it is written with, of which those behind
the mark need not be supplied. -/
theorem parse_marked (codes : List FormatCode) (mark : Option Nat) (suffix : Suffix) :
    parse (marked codes mark ++ suffix.print) =
      .ok ⟨codes, (mark.map (min · codes.length)).getD codes.length, suffix.function?,
        suffix.message?⟩ := by
  have hletters : ∀ c ∈ (marked codes mark).toList, (!isDelimiter c) = true := fun c hc => by
    rw [isDelimiter_marked codes mark c hc]
    rfl
  have htake : ((marked codes mark ++ suffix.print).toList.takeWhile fun c => !isDelimiter c) =
      (marked codes mark).toList := by
    rw [String.toList_append, List.takeWhile_append_of_pos hletters]
    cases suffix <;> simp [Suffix.print, isDelimiter]
  have hdrop : ((marked codes mark ++ suffix.print).toList.dropWhile fun c => !isDelimiter c) =
      suffix.print.toList := by
    rw [String.toList_append, List.dropWhile_append_of_pos hletters]
    cases suffix <;> simp [Suffix.print, isDelimiter]
  simp only [parse, htake, hdrop, readCodes_marked]
  cases suffix <;> simp [Suffix.print, Suffix.function?, Suffix.message?]

end ExtractFormat

end ExtensionHost
