import ExtensionHost.Proofs.Format.Spelling

/-!
# `ExtensionHost.Proofs.Format.Grammar`: which build formats are read, and as what

The reader of build formats keeps a stack of open groups and closes them one by
one. What it accepts can be said without a stack: `Grammatical` is the grammar of
items, a code or a list of items in parentheses. Three facts tie the two together.

* A tree is written as a word of the grammar, and each word is a tree that is
  written (`grammatical_iff`).
* While it reads, what the open groups hold, written out, is what has been read so
  far without its separators (`printList_of_readItems`). So a tree is only ever read
  from the text that it is written as.
* Separators change nothing (`readItems_meaningful`), and what is written is read
  back. So each word of the grammar is read, wherever separators stand in it.

What is wrong with a text that is refused is said about its bytes, since one byte
is what the message names. `IsFault` needs no stack either: a parenthesis closes
nothing when no fewer have been closed than opened before it. The reader reports
the first fault, and groups left open only if there is none. All bytes that have a
meaning are letters of one byte, and no other letter starts with one, so that the
first faulty letter starts at the first faulty byte.
-/

set_option autoImplicit false

namespace ExtensionHost

namespace BuildFormat

variable {format text : String} {c : Char} {chars letters before after : List Char}

/-! ### The grammar -/

/-- The letters that stand for a native value. -/
def codeLetters : List Char := ['s', 'i', 'l', 'L', 'd', 'f', 'O']

/-- The letters of codes are listed. -/
theorem mem_codeLetters : c ∈ codeLetters ↔ ∃ code : FormatCode, c = code.char := by
  have hall : codeLetters = FormatCode.all.map FormatCode.char := rfl
  rw [hall, List.mem_map]
  constructor
  · rintro ⟨code, -, rfl⟩
    exact ⟨code, rfl⟩
  · rintro ⟨code, rfl⟩
    exact ⟨code, by cases code <;> decide, rfl⟩

/-- The letter of a code is in the list. -/
theorem char_mem_codeLetters (code : FormatCode) : code.char ∈ codeLetters :=
  mem_codeLetters.2 ⟨code, rfl⟩

/-- The words for a list of items, each of them a code or a list of items in
parentheses. -/
inductive Grammatical : List Char → Prop
  | nil : Grammatical []
  | code {letter : Char} {rest : List Char} : letter ∈ codeLetters → Grammatical rest →
      Grammatical (letter :: rest)
  | group {members rest : List Char} : Grammatical members → Grammatical rest →
      Grammatical ('(' :: members ++ ')' :: rest)

/-- Whether a character is a code. -/
def isCode (c : Char) : Bool := decide (c ∈ codeLetters)

/-- The letter of a code is one. -/
theorem isCode_char (code : FormatCode) : isCode code.char = true :=
  decide_eq_true (char_mem_codeLetters code)

/-- Whether a character is no separator. -/
def isMeaningful (c : Char) : Bool := !isSeparator c

/-- A separator means nothing. -/
theorem not_isMeaningful (h : isSeparator c = true) : ¬isMeaningful c = true := by
  simp [isMeaningful, h]

/-- The letter of a code means something. -/
theorem isMeaningful_char (code : FormatCode) : isMeaningful code.char = true := by
  cases code <;> rfl

/-- A text without its separators. -/
def meaningful (text : String) : List Char := text.toList.filter isMeaningful

mutual

/-- What is printed of an item is grammatical before anything that is. -/
theorem grammatical_print :
    (item : BuildItem) → ∀ {rest : List Char}, Grammatical rest → Grammatical (item.print ++ rest)
  | .code code, _, hrest => .code (char_mem_codeLetters code) hrest
  | .group items, rest, hrest => by
    rw [BuildItem.print, List.append_assoc, List.singleton_append]
    exact .group (grammatical_printList items) hrest

/-- What is printed of items is grammatical. -/
theorem grammatical_printList :
    (items : List BuildItem) → Grammatical (BuildItem.printList items)
  | [] => .nil
  | item :: items => grammatical_print item (grammatical_printList items)

end

/-- The words of the grammar are the trees as they are written. -/
theorem grammatical_iff : Grammatical chars ↔ ∃ items, BuildItem.printList items = chars := by
  constructor
  · intro h
    induction h with
    | nil => exact ⟨[], rfl⟩
    | code hletter _ ih =>
      obtain ⟨code, rfl⟩ := mem_codeLetters.1 hletter
      obtain ⟨items, rfl⟩ := ih
      exact ⟨.code code :: items, rfl⟩
    | group _ _ ihmembers ihrest =>
      obtain ⟨members, rfl⟩ := ihmembers
      obtain ⟨items, rfl⟩ := ihrest
      exact ⟨.group members :: items, by
        rw [BuildItem.printList, BuildItem.print, List.append_assoc, List.singleton_append]⟩
  · rintro ⟨items, rfl⟩
    exact grammatical_printList items

/-! ### What has been read so far -/

/-- Items that follow each other are printed one after the other. -/
theorem printList_append (items more : List BuildItem) :
    BuildItem.printList (items ++ more) =
      BuildItem.printList items ++ BuildItem.printList more := by
  induction items with
  | nil => rfl
  | cons item items ih =>
    rw [List.cons_append, BuildItem.printList, ih, BuildItem.printList, List.append_assoc]

/-- The open groups written out, the outermost first, each with the parenthesis that
opened it. -/
def printOpen : (items : List BuildItem) → (around : List (List BuildItem)) → List Char
  | items, [] => BuildItem.printList items.reverse
  | items, outer :: around => printOpen outer around ++ '(' :: BuildItem.printList items.reverse

/-- The item that was read last is printed last. -/
theorem printOpen_cons (item : BuildItem) (items : List BuildItem)
    (around : List (List BuildItem)) :
    printOpen (item :: items) around = printOpen items around ++ item.print := by
  have hitem : BuildItem.printList (item :: items).reverse =
      BuildItem.printList items.reverse ++ item.print := by
    rw [List.reverse_cons, printList_append, BuildItem.printList, BuildItem.printList,
      List.append_nil]
  cases around with
  | nil => exact hitem
  | cons outer around => rw [printOpen, hitem, printOpen, List.append_assoc, List.cons_append]

/-- What is read is what has been read before and then the rest, without its
separators. -/
theorem printList_of_readItems {items result : List BuildItem} {around : List (List BuildItem)}
    (h : readItems format items around chars = .ok result) :
    BuildItem.printList result = printOpen items around ++ chars.filter isMeaningful := by
  fun_induction readItems format items around chars with
  | case1 =>
    cases h
    rw [printOpen, List.filter_nil, List.append_nil]
  | case2 | case5 | case7 => cases h
  | case3 _ _ _ _ hseparator ih =>
    rw [ih h, List.filter_cons_of_neg (not_isMeaningful hseparator)]
  | case4 _ _ _ _ ih =>
    rw [ih h, List.filter_cons_of_pos rfl, printOpen, List.append_assoc]
    rfl
  | case6 items _ outer around _ _ ih =>
    -- the group that is closed goes behind what the group around it holds
    rw [ih h, List.filter_cons_of_pos rfl, printOpen_cons, printOpen, BuildItem.print]
    simp only [List.append_assoc, List.cons_append, List.nil_append]
  | case8 _ _ _ _ _ _ _ code hcode ih =>
    obtain rfl := FormatCode.char_of_ofChar? hcode
    rw [ih h, List.filter_cons_of_pos (isMeaningful_char code), printOpen_cons, BuildItem.print,
      List.append_assoc, List.singleton_append]

/-- Separators are not seen by the reader. -/
theorem readItems_meaningful (items : List BuildItem) (around : List (List BuildItem))
    (chars : List Char) :
    readItems format items around (chars.filter isMeaningful) =
      readItems format items around chars := by
  fun_induction readItems format items around chars with
  | case1 | case2 => rfl
  | case3 _ _ _ _ hseparator ih =>
    rw [List.filter_cons_of_neg (not_isMeaningful hseparator), ih]
  | case4 items around _ _ ih =>
    rw [List.filter_cons_of_pos rfl, ← ih]
    cases around <;> rfl
  | case5 => rfl
  | case6 _ _ _ _ _ _ ih =>
    rw [List.filter_cons_of_pos rfl, ← ih]
    rfl
  | case7 _ around c _ hseparator hopen hclose hcode =>
    have hkept : isMeaningful c = true := by simpa [isMeaningful] using hseparator
    rw [List.filter_cons_of_pos hkept]
    cases around <;> simp [readItems, hseparator, hopen, hclose, hcode]
  | case8 items around _ rest _ _ _ code hcode ih =>
    obtain rfl := FormatCode.char_of_ofChar? hcode
    rw [List.filter_cons_of_pos (isMeaningful_char code), readItems_char, ih]

/-- A text is read as a tree exactly when it is this tree as it is written, with
separators anywhere. -/
theorem parse_eq_ok_iff {tree : BuildFormat} :
    parse text = .ok tree ↔ BuildItem.printList tree.items = meaningful text := by
  constructor
  · intro h
    rw [parse] at h
    split at h
    · cases h
    · next items hread =>
      cases h
      exact printList_of_readItems hread
  · intro h
    have hread : readItems text [] [] (meaningful text) = .ok tree.items := by
      have hprinted : readItems text [] [] (BuildItem.printList tree.items ++ []) = _ :=
        readItems_printList tree.items [] [] []
      rw [List.append_nil, List.append_nil] at hprinted
      rw [← h, hprinted, readItems, List.reverse_reverse]
    rw [meaningful, readItems_meaningful] at hread
    rw [parse, hread]

/-! ### The codes of a tree -/

mutual

/-- The codes of an item are the letters of codes in its print. -/
theorem map_char_codes : (item : BuildItem) →
    item.codes.map FormatCode.char = item.print.filter isCode
  | .code code => by
    rw [BuildItem.codes, BuildItem.print, List.filter_cons_of_pos (isCode_char code)]
    rfl
  | .group items => by
    have hopen : ¬isCode '(' = true := by decide
    have hclose : ¬isCode ')' = true := by decide
    rw [BuildItem.codes, map_char_codesOfList items, BuildItem.print,
      List.filter_append, List.filter_cons_of_neg hopen, List.filter_cons_of_neg hclose,
      List.filter_nil, List.append_nil]

/-- The codes of items are the letters of codes in their print. -/
theorem map_char_codesOfList : (items : List BuildItem) →
    (BuildItem.codesOfList items).map FormatCode.char = (BuildItem.printList items).filter isCode
  | [] => rfl
  | item :: items => by
    rw [BuildItem.codesOfList, BuildItem.printList, List.map_append, List.filter_append,
      map_char_codes item, map_char_codesOfList items]

end

/-- No letter of a code is taken out with the separators. -/
theorem filter_meaningful (text : String) :
    (meaningful text).filter isCode = text.toList.filter isCode := by
  rw [meaningful, List.filter_filter]
  refine List.filter_congr fun c _ => ?_
  rcases hcode : isCode c with _ | _
  · rfl
  · obtain ⟨code, rfl⟩ := mem_codeLetters.1 (of_decide_eq_true hcode)
    rw [isMeaningful_char]
    rfl

/-! ### The bytes of a text -/

/-- The bytes of characters, each shown as the character of that number. -/
def bytes (chars : List Char) : List Char :=
  (chars.flatMap String.utf8EncodeChar).map fun byte => Char.ofNat byte.toNat

/-- The bytes of a text, each shown as the character of that number. -/
def byteLetters (text : String) : List Char :=
  text.toUTF8.data.toList.map fun byte => Char.ofNat byte.toNat

/-- The letters of a text are its bytes, one character each. -/
theorem byteLetters_eq (text : String) : byteLetters text = bytes text.toList := by
  rw [byteLetters, bytes, String.toUTF8_eq_toByteArray, ← String.utf8Encode_toList,
    List.utf8Encode, List.data_toByteArray]

/-- A character that has a meaning in a build format. -/
def Known (c : Char) : Prop := c ∈ codeLetters ∨ isSeparator c ∨ c = '(' ∨ c = ')'

/-- The letters that a format knows are ASCII. -/
theorem Known.lt (h : Known c) : c.toNat < 128 := by
  rcases h with h | h | rfl | rfl
  · obtain ⟨code, rfl⟩ := mem_codeLetters.1 h
    cases code <;> decide
  · simp only [isSeparator, Bool.or_eq_true, decide_eq_true_eq] at h
    rcases h with ((rfl | rfl) | rfl) | rfl <;> decide
  · decide
  · decide

/-- A character of one byte is the number of that byte. -/
theorem toNat_byte_of_lt (h : c.toNat < 128) : (UInt8.ofNat c.toNat).toNat = c.toNat :=
  UInt8.toNat_ofNat_of_lt' (Nat.lt_trans h (by decide))

/-- An ASCII character is one byte. -/
theorem utf8EncodeChar_of_lt (h : c.toNat < 128) :
    String.utf8EncodeChar c = [UInt8.ofNat c.toNat] := by
  have hle : c.val.toNat ≤ 127 := Nat.le_of_lt_succ h
  rw [String.utf8EncodeChar, if_pos hle]
  rfl

/-- No byte of a character of several bytes is a character of one. -/
theorem le_of_mem_utf8EncodeChar (h : 128 ≤ c.toNat) {byte : UInt8}
    (hbyte : byte ∈ String.utf8EncodeChar c) : 128 ≤ byte.toNat := by
  have hlt : ¬c.val.toNat ≤ 127 := Nat.not_le.2 h
  have hofNat : ∀ n, 128 ≤ n → n < 256 → 128 ≤ (UInt8.ofNat n).toNat := fun n hle hn => by
    rwa [UInt8.toNat_ofNat_of_lt' hn]
  rw [String.utf8EncodeChar, if_neg hlt] at hbyte
  -- the first byte says how many there are, and each of the others has its highest bit set
  split at hbyte
  · simp only [List.mem_cons, List.not_mem_nil, or_false] at hbyte
    rcases hbyte with rfl | rfl <;> exact hofNat _ (by omega) (by omega)
  · split at hbyte
    · simp only [List.mem_cons, List.not_mem_nil, or_false] at hbyte
      rcases hbyte with rfl | rfl | rfl <;> exact hofNat _ (by omega) (by omega)
    · simp only [List.mem_cons, List.not_mem_nil, or_false] at hbyte
      rcases hbyte with rfl | rfl | rfl | rfl <;> exact hofNat _ (by omega) (by omega)

/-- A byte is a character of the same number. -/
theorem toNat_ofNat_byte (byte : UInt8) : (Char.ofNat byte.toNat).toNat = byte.toNat := by
  have hbyte := byte.toNat_lt
  rw [Char.ofNat, dif_pos (.inl (by omega))]
  rfl

/-- An ASCII character is its own byte. -/
theorem bytes_cons_of_lt (h : c.toNat < 128) (rest : List Char) :
    bytes (c :: rest) = c :: bytes rest := by
  rw [bytes, List.flatMap_cons, utf8EncodeChar_of_lt h, List.singleton_append, List.map_cons,
    toNat_byte_of_lt h, Char.ofNat_toNat]
  rfl

/-- An ASCII character leads itself. -/
theorem leadingByte_of_lt (h : c.toNat < 128) : leadingByte c = c := by
  rw [leadingByte, utf8EncodeChar_of_lt h, List.headD_cons, toNat_byte_of_lt h, Char.ofNat_toNat]

/-- A character of several bytes starts with the byte that it is named by, which is no
character of one. -/
theorem bytes_cons_of_le (h : 128 ≤ c.toNat) (rest : List Char) :
    (∃ more, bytes (c :: rest) = leadingByte c :: more) ∧ 128 ≤ (leadingByte c).toNat := by
  obtain ⟨first, more, hencoded⟩ := List.exists_cons_of_ne_nil (@String.utf8EncodeChar_ne_nil c)
  have hleading : leadingByte c = Char.ofNat first.toNat := by
    rw [leadingByte, hencoded, List.headD_cons]
  refine
    ⟨⟨(more ++ rest.flatMap String.utf8EncodeChar).map fun byte => Char.ofNat byte.toNat, ?_⟩, ?_⟩
  · rw [bytes, List.flatMap_cons, hencoded, List.cons_append, List.map_cons, hleading]
  · rw [hleading, toNat_ofNat_byte]
    exact le_of_mem_utf8EncodeChar h (hencoded ▸ List.mem_cons_self)

/-- A character without a meaning starts with a byte without one, which is the byte
that is named. -/
theorem bytes_cons_of_unknown (h : ¬Known c) (rest : List Char) :
    (∃ more, bytes (c :: rest) = leadingByte c :: more) ∧ ¬Known (leadingByte c) := by
  rcases Nat.lt_or_ge c.toNat 128 with hlt | hle
  · rw [leadingByte_of_lt hlt]
    exact ⟨⟨_, bytes_cons_of_lt hlt rest⟩, h⟩
  · obtain ⟨hbytes, hfirst⟩ := bytes_cons_of_le hle rest
    exact ⟨hbytes, fun hknown => Nat.not_lt.2 hfirst hknown.lt⟩

/-! ### What is wrong with a text -/

/-- Whether a letter is a fault behind others: it has no meaning, or it closes a group
while as many have been closed as opened. -/
def IsFault (before : List Char) (letter : Char) : Prop :=
  ¬Known letter ∨ letter = ')' ∧ before.count '(' ≤ before.count ')'

/-- No letter is a fault behind those before it. -/
def FaultFree (letters : List Char) : Prop :=
  ∀ before letter, before ++ [letter] <+: letters → ¬IsFault before letter

/-- The first letter that is a fault, with those before it. -/
structure FirstFault (letters before : List Char) (letter : Char) : Prop where
  stands : before ++ [letter] <+: letters
  sound : FaultFree before
  fault : IsFault before letter

/-- How a fault is reported. -/
def faultReason (letter : Char) : String :=
  if letter = ')' then "unmatched ')'" else "unknown code '" ++ letter.toString ++ "'"

/-- The reason for which letters are refused: the first fault, or, without a fault,
that a group is left open. -/
def Refused (letters : List Char) (reason : String) : Prop :=
  (∃ before letter, FirstFault letters before letter ∧ reason = faultReason letter) ∨
    FaultFree letters ∧ letters.count ')' < letters.count '(' ∧ reason = "unmatched '('"

/-- Letters in which all groups are closed, and nothing is a fault. -/
def Balanced (letters : List Char) : Prop :=
  FaultFree letters ∧ letters.count '(' = letters.count ')'

/-- No letters have no fault. -/
theorem faultFree_nil : FaultFree [] := fun before letter h => by
  simp at h

/-- Letters without a fault and one that is none have no fault. -/
theorem FaultFree.concat {letter : Char} (h : FaultFree before) (hletter : ¬IsFault before letter) :
    FaultFree (before ++ [letter]) := by
  intro earlier c hprefix
  rcases List.prefix_concat_iff.1 hprefix with heq | hprefix
  · obtain ⟨rfl, hc⟩ := List.append_inj' heq rfl
    obtain rfl := List.singleton_inj.1 hc
    exact hletter
  · exact h earlier c hprefix

/-- There is one first fault at most. -/
theorem FirstFault.unique {b c : Char} (hb : FirstFault letters before b)
    (hc : FirstFault letters after c) : b = c := by
  rcases List.prefix_or_prefix_of_prefix hb.stands hc.stands with h | h
  · rcases List.prefix_concat_iff.1 h with heq | h
    · exact List.singleton_inj.1 (List.append_inj' heq rfl).2
    · exact absurd hb.fault (hc.sound _ _ h)
  · rcases List.prefix_concat_iff.1 h with heq | h
    · exact (List.singleton_inj.1 (List.append_inj' heq rfl).2).symm
    · exact absurd hc.fault (hb.sound _ _ h)

/-- Letters that are refused are not balanced. -/
theorem Refused.not_balanced {reason : String} (h : Refused letters reason) :
    ¬Balanced letters := by
  rintro ⟨hsound, hcount⟩
  rcases h with ⟨before, letter, hfault, -⟩ | ⟨-, hopen, -⟩
  · exact hsound _ _ hfault.stands hfault.fault
  · omega

/-- Letters are refused for one reason only. -/
theorem Refused.unique {reason other : String} (h : Refused letters reason)
    (hother : Refused letters other) : reason = other := by
  rcases h with ⟨_, _, hfault, rfl⟩ | ⟨hsound, -, rfl⟩
  · rcases hother with ⟨_, _, hsecond, rfl⟩ | ⟨hsound, -, -⟩
    · rw [hfault.unique hsecond]
    · exact absurd hfault.fault (hsound _ _ hfault.stands)
  · rcases hother with ⟨_, _, hfault, -⟩ | ⟨-, -, rfl⟩
    · exact absurd hfault.fault (hsound _ _ hfault.stands)
    · rfl

/-- A fault right behind what is free of them is the first. -/
theorem refused_of_fault {seen more : List Char} {letter : Char} (hseen : FaultFree seen)
    (h : IsFault seen letter) : Refused (seen ++ letter :: more) (faultReason letter) :=
  .inl ⟨seen, letter, ⟨⟨more, by rw [List.append_assoc, List.singleton_append]⟩, hseen, h⟩, rfl⟩

/-- A known letter is no fault, unless it closes a group. -/
theorem Known.not_isFault (h : Known c) (hc : c ≠ ')') : ¬IsFault before c := by
  rintro (hunknown | ⟨rfl, -⟩)
  · exact hunknown h
  · exact hc rfl

/-- A known letter can be counted as seen. -/
theorem Known.append_bytes (h : Known c) (seen rest : List Char) :
    seen ++ bytes (c :: rest) = seen ++ [c] ++ bytes rest := by
  rw [bytes_cons_of_lt h.lt, List.append_cons]

/-- A letter more is counted once, if it is the one that is counted. -/
theorem count_concat (seen : List Char) (c d : Char) :
    (seen ++ [c]).count d = seen.count d + if c = d then 1 else 0 := by
  rw [List.count_append, List.count_singleton]
  simp

/-- The reader refuses the letters at their first fault or with a group left open, and
takes them all otherwise. `seen` is what has been read, in which all groups but those
that are open have been closed. -/
theorem readItems_verdict {seen : List Char} {items : List BuildItem}
    {around : List (List BuildItem)} (hseen : FaultFree seen)
    (hdepth : seen.count '(' = seen.count ')' + around.length) :
    (∀ result, readItems format items around chars = .ok result →
        Balanced (seen ++ bytes chars)) ∧
      ∀ e, readItems format items around chars = .error e →
        ∃ reason, Refused (seen ++ bytes chars) reason ∧ e = .badFormat format reason := by
  fun_induction readItems format items around chars generalizing seen with
  | case1 =>
    have hend : seen ++ bytes [] = seen := List.append_nil seen
    rw [hend]
    exact ⟨fun _ _ => ⟨hseen, hdepth⟩, fun _ he => by cases he⟩
  | case2 =>
    have hend : seen ++ bytes [] = seen := List.append_nil seen
    have hleft : seen.count ')' < seen.count '(' := by
      rw [hdepth, List.length_cons]
      omega
    rw [hend]
    exact ⟨fun _ hok => (by cases hok),
      fun e he => ⟨_, .inr ⟨hseen, hleft, rfl⟩, (Except.error.inj he).symm⟩⟩
  | case3 _ _ c rest hseparator ih =>
    have hknown : Known c := .inr (.inl hseparator)
    have hopen : c ≠ '(' := fun h => absurd (h ▸ hseparator) (by decide)
    have hclose : c ≠ ')' := fun h => absurd (h ▸ hseparator) (by decide)
    rw [hknown.append_bytes]
    refine ih (hseen.concat (hknown.not_isFault hclose)) ?_
    rw [count_concat, count_concat, if_neg hopen, if_neg hclose, hdepth]
    omega
  | case4 _ _ _ _ ih =>
    have hknown : Known '(' := .inr (.inr (.inl rfl))
    rw [hknown.append_bytes]
    refine ih (hseen.concat (hknown.not_isFault (by decide))) ?_
    rw [count_concat, count_concat, if_pos rfl, if_neg (by decide), hdepth, List.length_cons]
    omega
  | case5 _ rest =>
    have hknown : Known ')' := .inr (.inr (.inr rfl))
    -- no group is open, so as many have been closed as opened
    have hfault : IsFault seen ')' := .inr ⟨rfl, Nat.le_of_eq hdepth⟩
    rw [bytes_cons_of_lt hknown.lt]
    exact ⟨fun _ hok => (by cases hok),
      fun e he => ⟨_, refused_of_fault hseen hfault, (Except.error.inj he).symm⟩⟩
  | case6 _ _ _ around _ _ ih =>
    have hknown : Known ')' := .inr (.inr (.inr rfl))
    -- the group that is open has been opened and not closed
    have hmatched : ¬IsFault seen ')' := by
      rintro (hunknown | ⟨-, hle⟩)
      · exact hunknown hknown
      · rw [hdepth, List.length_cons] at hle
        omega
    rw [hknown.append_bytes]
    refine ih (hseen.concat hmatched) ?_
    rw [count_concat, count_concat, if_neg (by decide), if_pos rfl, hdepth, List.length_cons]
    omega
  | case7 _ _ c rest hseparator hopen hclose hcode =>
    have hunknown : ¬Known c := by
      rintro (hletter | hfound | rfl | rfl)
      · obtain ⟨code, rfl⟩ := mem_codeLetters.1 hletter
        rw [FormatCode.ofChar?_char] at hcode
        cases hcode
      · exact hseparator hfound
      · exact hopen rfl
      · exact hclose rfl
    -- the fault is the first byte of the letter, which may have others
    obtain ⟨⟨more, hbytes⟩, hfault⟩ := bytes_cons_of_unknown hunknown rest
    have hreason : faultReason (leadingByte c) = unknownCode c :=
      if_neg fun h => hfault (.inr (.inr (.inr h)))
    rw [hbytes]
    refine ⟨fun _ hok => (by cases hok),
      fun e he => ⟨_, refused_of_fault hseen (.inl hfault), ?_⟩⟩
    rw [hreason]
    exact (Except.error.inj he).symm
  | case8 _ _ _ _ _ _ _ code hcode ih =>
    obtain rfl := FormatCode.char_of_ofChar? hcode
    have hknown : Known code.char := .inl (char_mem_codeLetters code)
    have hopen : code.char ≠ '(' := by cases code <;> decide
    have hclose : code.char ≠ ')' := by cases code <;> decide
    rw [hknown.append_bytes]
    refine ih (hseen.concat (hknown.not_isFault hclose)) ?_
    rw [count_concat, count_concat, if_neg hopen, if_neg hclose, hdepth]
    omega

/-- A text is refused exactly for the first of its bytes that is a fault, or for a group
that is left open. -/
theorem parse_eq_error_iff {e : ApiError} :
    parse text = .error e ↔
      ∃ reason, Refused (byteLetters text) reason ∧ e = .badFormat text reason := by
  rw [byteLetters_eq]
  have hverdict := @readItems_verdict text text.toList [] [] [] faultFree_nil rfl
  rw [List.nil_append] at hverdict
  rw [parse]
  cases hread : readItems text [] [] text.toList with
  | error found =>
    obtain ⟨reason, hrefused, rfl⟩ := hverdict.2 found hread
    constructor
    · rintro ⟨⟩
      exact ⟨reason, hrefused, rfl⟩
    · rintro ⟨other, hother, rfl⟩
      rw [hrefused.unique hother]
  | ok items =>
    constructor
    · intro h
      cases h
    · rintro ⟨reason, hrefused, -⟩
      exact absurd (hverdict.1 items hread) hrefused.not_balanced

/-! ### The reader as a whole -/

/-- The texts that are read are the words of the grammar, with separators anywhere.
What is read is written as the text without its separators, holds the codes of the text
in their order, and takes as many values; each tree is read again from what it is
written as. A text that is refused is refused for the first of its bytes that has no
meaning or closes no group, and for a group left open only if there is no such byte. -/
theorem parse_grammar (text : String) :
    ((∃ tree, parse text = .ok tree) ↔ Grammatical (meaningful text)) ∧
    (∀ tree, parse text = .ok tree →
      tree.print.toList = meaningful text ∧
      tree.codes.map FormatCode.char = text.toList.filter isCode ∧
      tree.arity = tree.codes.length) ∧
    (∀ tree : BuildFormat, parse tree.print = .ok tree) ∧
    ∀ e, parse text = .error e ↔
      ∃ reason, Refused (byteLetters text) reason ∧ e = .badFormat text reason := by
  refine ⟨⟨fun ⟨tree, hread⟩ => ?_, fun hword => ?_⟩, fun tree hread => ⟨?_, ?_, ?_⟩,
    parse_print, fun _ => parse_eq_error_iff⟩
  · exact grammatical_iff.2 ⟨tree.items, parse_eq_ok_iff.1 hread⟩
  · obtain ⟨items, hitems⟩ := grammatical_iff.1 hword
    exact ⟨⟨items⟩, parse_eq_ok_iff.2 hitems⟩
  · rw [print, String.toList_ofList, parse_eq_ok_iff.1 hread]
  · rw [codes, map_char_codesOfList, parse_eq_ok_iff.1 hread, filter_meaningful]
  · exact arity_eq_length tree

/-- A format with a group, a comma and a blank is read, printed and counted. -/
theorem parse_grammar_nested :
    parse "l(dO), s" =
      .ok ⟨[.code .long, .group [.code .double, .code .object], .code .text]⟩ ∧
    meaningful "l(dO), s" = "l(dO)s".toList ∧
    (BuildFormat.mk [.code .long, .group [.code .double, .code .object], .code .text]).arity =
      ("l(dO), s".toList.filter isCode).length := by
  obtain ⟨hprint, hcodes, harity⟩ := (parse_grammar "l(dO), s").2.1
    ⟨[.code .long, .group [.code .double, .code .object], .code .text]⟩ rfl
  refine ⟨rfl, hprint.symm.trans (by decide), ?_⟩
  rw [harity, ← hcodes, List.length_map]

end BuildFormat

end ExtensionHost
