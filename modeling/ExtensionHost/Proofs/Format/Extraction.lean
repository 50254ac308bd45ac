import ExtensionHost.Proofs.Format.Grammar

/-!
# `ExtensionHost.Proofs.Format.Extraction`: which extract formats are read, and as what

An extract format has no groups, so its grammar can be said by counting: in front of
the first delimiter stand codes and at most one mark (`Spelled`). The reader goes
through that part once and finds the codes, the mark and the first fault on the way.
What it finds is said here without a reader, in two halves.

* What is read is the part without its mark, and the mark stands behind as many codes
  as are required (`readCodes_spells`).
* The part is read exactly if it is spelled, and otherwise refused for its first fault
  (`readCodes_verdict`). As for build formats a fault is a byte, since one byte is what
  the message names.

What stands behind the delimiter is not looked at and may be any text. A delimiter is
one byte that occurs inside no longer character. So the byte behind the first of them
starts a character, and what is cut off there is the name or the text that is meant
(`cut_of_behind`).
-/

set_option autoImplicit false

namespace ExtensionHost

namespace ExtractFormat

open FormatCode

open BuildFormat (isCode isCode_char codeLetters mem_codeLetters char_mem_codeLetters bytes
  byteLetters byteLetters_eq bytes_cons_of_lt bytes_cons_of_le leadingByte_of_lt
  le_of_mem_utf8EncodeChar toNat_ofNat_byte count_concat)

variable {format text : String} {c : Char} {chars letters before : List Char}

/-! ### The bytes of characters -/

/-- The letters of codes are ASCII. -/
theorem char_lt (code : FormatCode) : code.char.toNat < 128 := by
  cases code <;> decide

/-- The delimiters are ASCII. -/
theorem isDelimiter.lt (h : isDelimiter c = true) : c.toNat < 128 := by
  simp only [isDelimiter, Bool.or_eq_true, decide_eq_true_eq] at h
  rcases h with rfl | rfl <;> decide

/-- The bytes of letters that follow each other follow each other. -/
theorem bytes_append (front back : List Char) :
    bytes (front ++ back) = bytes front ++ bytes back := by
  rw [bytes, List.flatMap_append, List.map_append]
  rfl

/-- Only a delimiter has a byte that is one. -/
theorem not_isDelimiter_of_mem (hc : isDelimiter c = false) :
    ∀ letter ∈ bytes [c], (!isDelimiter letter) = true := by
  intro letter hletter
  rcases Nat.lt_or_ge c.toNat 128 with hlt | hle
  · rw [bytes_cons_of_lt hlt] at hletter
    obtain rfl := List.mem_singleton.1 hletter
    rw [hc]
    rfl
  · rw [bytes, List.flatMap_singleton] at hletter
    obtain ⟨byte, hbyte, rfl⟩ := List.mem_map.1 hletter
    rcases hfound : isDelimiter (Char.ofNat byte.toNat) with _ | _
    · rfl
    · have hlt := isDelimiter.lt hfound
      rw [toNat_ofNat_byte] at hlt
      exact absurd (le_of_mem_utf8EncodeChar hle hbyte) (Nat.not_le.2 hlt)

/-! ### The two parts of a text -/

/-- What stands in front of the first delimiter. -/
def head (text : String) : List Char := text.toList.takeWhile fun c => !isDelimiter c

/-- The first delimiter and what stands behind it. -/
def tail (text : String) : List Char := text.toList.dropWhile fun c => !isDelimiter c

/-- The bytes in front of the first one that is a delimiter. -/
def headLetters (text : String) : List Char :=
  (byteLetters text).takeWhile fun c => !isDelimiter c

/-- A text is what stands before the first delimiter and what stands from there on. -/
theorem head_append_tail (text : String) : head text ++ tail text = text.toList :=
  List.takeWhile_append_dropWhile

/-- The text behind the first delimiter, if that is the character `c`. -/
def Behind (text : String) (c : Char) (rest : String) : Prop :=
  isDelimiter c = true ∧
    ∃ front, text = front ++ c.toString ++ rest ∧ ∀ d ∈ front.toList, isDelimiter d = false

/-- What stands behind a delimiter is what follows it in the text. -/
theorem behind_iff {rest : String} :
    Behind text c rest ↔ isDelimiter c = true ∧ tail text = c :: rest.toList := by
  refine and_congr_right fun hc => ⟨?_, fun h => ?_⟩
  · rintro ⟨front, rfl, hfront⟩
    have hpass : ∀ d ∈ front.toList, (!isDelimiter d) = true := fun d hd => by
      rw [hfront d hd]
      rfl
    have hchars : (front ++ c.toString ++ rest).toList = front.toList ++ c :: rest.toList := by
      simp
    have hstop : ¬(!isDelimiter c) = true := by simp [hc]
    rw [tail, hchars, List.dropWhile_append_of_pos hpass]
    exact List.dropWhile_cons_of_neg hstop
  · refine ⟨String.ofList (head text), ?_, fun d hd => ?_⟩
    · refine String.toList_injective ?_
      rw [← head_append_tail, h]
      simp
    · rw [String.toList_ofList] at hd
      simpa using List.all_eq_true.1 List.all_takeWhile d hd

/-- Nothing stands behind the codes, or a delimiter and a text. -/
theorem exists_suffix (text : String) : ∃ suffix : Suffix, tail text = suffix.print.toList := by
  rcases hrest : tail text with _ | ⟨c, rest⟩
  · exact ⟨.none, rfl⟩
  · have hc : isDelimiter c = true := by
      have hstop := List.head?_dropWhile_not (fun c => !isDelimiter c) text.toList
      rw [← tail, hrest] at hstop
      simpa using hstop
    simp only [isDelimiter, Bool.or_eq_true, decide_eq_true_eq] at hc
    rcases hc with rfl | rfl
    · exact ⟨.name (String.ofList rest), by simp [Suffix.print]⟩
    · exact ⟨.message (String.ofList rest), by simp [Suffix.print]⟩

/-- The reader sees the head; what stands behind it is kept as it is. -/
theorem parse_eq {suffix : Suffix} (h : tail text = suffix.print.toList) :
    parse text = (readCodes text 0 none (head text)).map fun found =>
      ⟨found.1, found.2.getD found.1.length, suffix.function?, suffix.message?⟩ := by
  rw [tail] at h
  simp only [parse, h]
  rw [← head]
  cases readCodes text 0 none (head text) with
  | error => rfl
  | ok => cases suffix <;> simp [Suffix.print, Suffix.function?, Suffix.message?, Except.map]

/-- The name of a function is what stands behind a colon. -/
theorem behind_name {suffix : Suffix} {name : String} (h : tail text = suffix.print.toList) :
    suffix.function? = some name ↔ Behind text ':' name := by
  rw [behind_iff, h]
  cases suffix <;> simp [Suffix.print, Suffix.function?, isDelimiter, String.toList_inj]

/-- A message is what stands behind a semicolon. -/
theorem behind_message {suffix : Suffix} {words : String} (h : tail text = suffix.print.toList) :
    suffix.message? = some words ↔ Behind text ';' words := by
  rw [behind_iff, h]
  cases suffix <;> simp [Suffix.print, Suffix.message?, isDelimiter, String.toList_inj]

/-! ### What is read -/

/-- What is read is written as the letters without the mark, and behind the mark stand
the letters that are not required. -/
theorem readCodes_spells {seen : Nat} {mark found : Option Nat} {codes : List FormatCode}
    (h : readCodes format seen mark chars = .ok (codes, found)) :
    codes.map char = (bytes chars).filter (· ≠ '|') ∧
      found.getD (seen + codes.length) =
        mark.getD (seen + ((bytes chars).takeWhile (· ≠ '|')).countP isCode) := by
  -- by induction on what is read, one case for each thing that a byte can be
  fun_induction readCodes format seen mark chars generalizing codes found with
  | case1 =>
    cases h
    exact ⟨rfl, rfl⟩
  | case2 | case4 | case5 => cases h
  | case3 seen rest ih =>
    obtain ⟨hcodes, hfound⟩ := ih h
    rw [bytes_cons_of_lt (by decide)]
    refine ⟨?_, ?_⟩
    · rw [hcodes, List.filter_cons_of_neg (by decide)]
    · rw [hfound, List.takeWhile_cons_of_neg (by decide)]
      rfl
  | case6 seen _ _ rest hmark code hcode codes _ hread ih =>
    cases h
    obtain rfl := char_of_ofChar? hcode
    obtain ⟨hcodes, hfound⟩ := ih hread
    rw [bytes_cons_of_lt (char_lt code)]
    refine ⟨?_, ?_⟩
    · rw [List.map_cons, hcodes, List.filter_cons_of_pos (by simpa using hmark)]
    · rw [List.takeWhile_cons_of_pos (by simpa using hmark),
        List.countP_cons_of_pos (isCode_char code), List.length_cons, Nat.add_comm _ 1,
        Nat.add_comm _ 1, ← Nat.add_assoc, ← Nat.add_assoc, hfound]

/-! ### What is refused -/

/-- Letters of which each is a code or a mark, with one mark at most. -/
def Spelled (letters : List Char) : Prop :=
  (∀ c ∈ letters, c ∈ codeLetters ∨ c = '|') ∧ letters.count '|' ≤ 1

/-- How a letter is reported that cannot stand where it does. -/
def faultReason (letter : Char) : String :=
  if letter = '|' then "more than one '|'" else "unknown code '" ++ letter.toString ++ "'"

/-- The reason for which letters are refused: the first of them that cannot stand behind
those before it. -/
def Refused (letters : List Char) (reason : String) : Prop :=
  ∃ before letter, before ++ [letter] <+: letters ∧ Spelled before ∧
    ¬Spelled (before ++ [letter]) ∧ reason = faultReason letter

/-- No letters spell no codes. -/
theorem spelled_nil : Spelled [] := ⟨fun _ h => (by cases h), Nat.zero_le 1⟩

/-- The beginning of letters that spell codes spells codes as well. -/
theorem Spelled.of_prefix (h : Spelled letters) (hbefore : before <+: letters) :
    Spelled before :=
  ⟨fun c hc => h.1 c (hbefore.subset hc), Nat.le_trans (hbefore.sublist.count_le '|') h.2⟩

/-- A code may stand behind anything, a mark behind letters without one. -/
theorem spelled_concat :
    Spelled (before ++ [c]) ↔
      Spelled before ∧ (c ∈ codeLetters ∨ c = '|' ∧ '|' ∉ before) := by
  constructor
  · intro h
    refine ⟨h.of_prefix (List.prefix_append before [c]), ?_⟩
    rcases h.1 c (by simp) with hcode | rfl
    · exact .inl hcode
    · have hcount := h.2
      rw [count_concat, if_pos rfl] at hcount
      exact .inr ⟨rfl, List.count_eq_zero.1 (by omega)⟩
  · rintro ⟨h, hc⟩
    refine ⟨fun d hd => ?_, ?_⟩
    · rcases List.mem_append.1 hd with hd | hd
      · exact h.1 d hd
      · obtain rfl := List.mem_singleton.1 hd
        exact hc.imp_right And.left
    · rw [count_concat]
      rcases hc with hcode | ⟨rfl, hnone⟩
      · have hmark : c ≠ '|' := by
          rintro rfl
          exact absurd hcode (by decide)
        rw [if_neg hmark]
        exact h.2
      · have hcount := List.count_eq_zero.2 hnone
        rw [if_pos rfl]
        omega

/-- Letters that are refused spell nothing. -/
theorem Refused.not_spelled {reason : String} (h : Refused letters reason) : ¬Spelled letters := by
  obtain ⟨before, letter, hstands, -, hfault, -⟩ := h
  exact fun hletters => hfault (hletters.of_prefix hstands)

/-- Letters are refused for one reason at most. -/
theorem Refused.unique {reason other : String} (h : Refused letters reason)
    (hother : Refused letters other) : reason = other := by
  obtain ⟨before, letter, hstands, hsound, hfault, rfl⟩ := h
  obtain ⟨before', letter', hstands', hsound', hfault', rfl⟩ := hother
  rcases List.prefix_or_prefix_of_prefix hstands hstands' with hle | hle
  · rcases List.prefix_concat_iff.1 hle with heq | hle
    · rw [List.singleton_inj.1 (List.append_inj' heq rfl).2]
    · exact absurd (hsound'.of_prefix hle) hfault
  · rcases List.prefix_concat_iff.1 hle with heq | hle
    · rw [List.singleton_inj.1 (List.append_inj' heq rfl).2]
    · exact absurd (hsound.of_prefix hle) hfault'

/-- A letter that cannot stand right behind what is spelled is the first. -/
theorem refused_of_fault {more : List Char} (hbefore : Spelled before)
    (hfault : ¬Spelled (before ++ [c])) : Refused (before ++ c :: more) (faultReason c) :=
  ⟨before, c, ⟨more, by rw [List.append_assoc, List.singleton_append]⟩, hbefore, hfault, rfl⟩

/-- A character that is no code and no mark starts with a byte that is neither, which
is the byte that is named. -/
theorem refused_of_unknown (hbefore : Spelled before) (hmark : c ≠ '|') (hcode : ofChar? c = none)
    (rest : List Char) : Refused (before ++ bytes (c :: rest)) (unknownCode c) := by
  have hunknown : c ∉ codeLetters := fun hletter => by
    obtain ⟨code, rfl⟩ := mem_codeLetters.1 hletter
    rw [ofChar?_char] at hcode
    cases hcode
  -- a byte that is neither code nor mark cannot stand anywhere
  have hrefused {letter : Char} (more : List Char) (hletter : letter ∉ codeLetters)
      (hmark : letter ≠ '|') (hnamed : leadingByte c = letter) :
      Refused (before ++ letter :: more) (unknownCode c) := by
    have hreason : unknownCode c = faultReason letter := by
      rw [unknownCode, hnamed, faultReason, if_neg hmark]
    rw [hreason]
    exact refused_of_fault hbefore fun h =>
      (spelled_concat.1 h).2.elim hletter fun hfound => hmark hfound.1
  rcases Nat.lt_or_ge c.toNat 128 with hlt | hle
  · rw [bytes_cons_of_lt hlt]
    exact hrefused _ hunknown hmark (leadingByte_of_lt hlt)
  · obtain ⟨⟨more, hbytes⟩, hfirst⟩ := bytes_cons_of_le hle rest
    rw [hbytes]
    refine hrefused more (fun hletter => ?_) (fun hbar => ?_) rfl
    · obtain ⟨code, hcode⟩ := mem_codeLetters.1 hletter
      exact Nat.not_lt.2 hfirst (hcode ▸ char_lt code)
    · rw [hbar] at hfirst
      exact absurd hfirst (by decide)

/-- A code behind what is spelled changes nothing about the mark. -/
theorem spelled_concat_char {mark : Option Nat} (hbefore : Spelled before)
    (hmark : mark = none ↔ '|' ∉ before) (code : FormatCode) :
    Spelled (before ++ [code.char]) ∧ (mark = none ↔ '|' ∉ before ++ [code.char]) := by
  have hbar : '|' ≠ code.char := by cases code <;> decide
  refine ⟨spelled_concat.2 ⟨hbefore, .inl (char_mem_codeLetters code)⟩, hmark.trans ?_⟩
  simp [hbar]

/-- The reader takes the letters if they are spelled, behind the ones read `before`, and
otherwise refuses them for the first that cannot stand where it does. -/
theorem readCodes_verdict {seen : Nat} {mark : Option Nat} (hbefore : Spelled before)
    (hmark : mark = none ↔ '|' ∉ before) :
    (∀ found, readCodes format seen mark chars = .ok found → Spelled (before ++ bytes chars)) ∧
      ∀ e, readCodes format seen mark chars = .error e →
        ∃ reason, Refused (before ++ bytes chars) reason ∧ e = .badFormat format reason := by
  fun_induction readCodes format seen mark chars generalizing before with
  | case1 =>
    have hend : before ++ bytes [] = before := List.append_nil before
    rw [hend]
    exact ⟨fun _ _ => hbefore, fun _ he => by cases he⟩
  | case2 _ rest position =>
    -- a mark was read before, so this one is the second
    have hsecond : '|' ∈ before := Decidable.of_not_not fun hnone => by cases hmark.2 hnone
    have hfault : ¬Spelled (before ++ ['|']) := fun h =>
      (spelled_concat.1 h).2.elim (by decide) fun hfirst => hfirst.2 hsecond
    rw [bytes_cons_of_lt (by decide)]
    exact ⟨fun _ hok => (by cases hok),
      fun e he => ⟨_, refused_of_fault hbefore hfault, (Except.error.inj he).symm⟩⟩
  | case3 _ rest ih =>
    rw [bytes_cons_of_lt (by decide), List.append_cons]
    refine ih (spelled_concat.2 ⟨hbefore, .inr ⟨rfl, hmark.1 rfl⟩⟩) ?_
    simp
  | case4 _ _ c rest hbar hcode =>
    exact ⟨fun _ hok => (by cases hok),
      fun e he => ⟨_, refused_of_unknown hbefore hbar hcode rest, (Except.error.inj he).symm⟩⟩
  | case5 _ _ _ rest hbar code hcode e hread ih =>
    obtain rfl := char_of_ofChar? hcode
    obtain ⟨hbehind, hstill⟩ := spelled_concat_char hbefore hmark code
    rw [bytes_cons_of_lt (char_lt code), List.append_cons]
    -- what refuses the rest refuses the whole, as the code in front may stand there
    refine ⟨fun _ hok => (by cases hok), fun e' he => (ih hbehind hstill).2 e' ?_⟩
    rw [hread, Except.error.inj he]
  | case6 _ _ _ rest hbar code hcode codes found hread ih =>
    obtain rfl := char_of_ofChar? hcode
    obtain ⟨hbehind, hstill⟩ := spelled_concat_char hbefore hmark code
    rw [bytes_cons_of_lt (char_lt code), List.append_cons]
    exact ⟨fun _ _ => (ih hbehind hstill).1 _ hread, fun _ he => (by cases he)⟩

/-- The bytes in front of the first delimiter are those of the head, since no byte of a
longer character is a delimiter. -/
theorem headLetters_eq (text : String) : headLetters text = bytes (head text) := by
  have htake (chars : List Char) :
      (bytes chars).takeWhile (fun c => !isDelimiter c) =
        bytes (chars.takeWhile fun c => !isDelimiter c) := by
    induction chars with
    | nil => rfl
    | cons c rest ih =>
      rcases hc : isDelimiter c with _ | _
      · rw [List.takeWhile_cons_of_pos (by rw [hc]; rfl), ← List.singleton_append,
          bytes_append, List.takeWhile_append_of_pos (not_isDelimiter_of_mem hc), ih,
          ← bytes_append, List.singleton_append]
      · rw [bytes_cons_of_lt (isDelimiter.lt hc), List.takeWhile_cons_of_neg (by simp [hc]),
          List.takeWhile_cons_of_neg (by simp [hc])]
        rfl
  rw [headLetters, byteLetters_eq, htake, head]

/-! ### The cut behind the delimiter -/

/-- There are as many letters as bytes. -/
theorem length_byteLetters (text : String) : (byteLetters text).length = text.utf8ByteSize := by
  rw [byteLetters, List.length_map, Array.length_toList]
  rfl

/-- The letters of a text with a delimiter are those before it, the delimiter and the
bytes behind. -/
theorem byteLetters_of_behind {rest : String} (h : Behind text c rest) :
    byteLetters text = headLetters text ++ c :: bytes rest.toList := by
  obtain ⟨hc, hrest⟩ := behind_iff.1 h
  rw [byteLetters_eq, ← head_append_tail, hrest, bytes_append, headLetters_eq,
    bytes_cons_of_lt (isDelimiter.lt hc)]

/-- The first delimiter takes one byte. The text can be cut behind it, and what is cut
off is what stands behind the delimiter. -/
theorem cut_of_behind {rest : String} (h : Behind text c rest) :
    ∃ valid : (⟨(headLetters text).length + 1⟩ : String.Pos.Raw).IsValid text,
      (text.sliceFrom (text.pos _ valid)).copy = rest := by
  obtain ⟨hc, hrest⟩ := behind_iff.1 h
  have htext : text = String.ofList (head text ++ [c]) ++ rest := by
    refine String.toList_injective ?_
    rw [← head_append_tail, hrest]
    simp
  have hend : (⟨(headLetters text).length + 1⟩ : String.Pos.Raw) =
      (String.ofList (head text ++ [c])).rawEndPos := by
    have hbytes : bytes (head text ++ [c]) = headLetters text ++ [c] := by
      rw [bytes_append, ← headLetters_eq, bytes_cons_of_lt (isDelimiter.lt hc)]
      rfl
    rw [String.Pos.Raw.ext_iff, String.byteIdx_rawEndPos, ← length_byteLetters, byteLetters_eq,
      String.toList_ofList, hbytes, List.length_append, List.length_singleton]
  have hvalid := String.Pos.Raw.isValid_iff_exists_append.2 ⟨_, _, htext, hend⟩
  exact ⟨hvalid, (text.pos _ hvalid).splits.eq_right ⟨htext, hend⟩⟩

/-- The reader stops at the byte of a delimiter only if something stands behind it. -/
theorem behind_of_findIdx? {p : Nat} (h : (byteLetters text).findIdx? isDelimiter = some p) :
    p = (headLetters text).length ∧ ∃ c rest, Behind text c rest := by
  have hnone : (headLetters text).findIdx? isDelimiter = none := by
    refine List.findIdx?_eq_none_iff.2 fun c hc => ?_
    simpa using List.all_eq_true.1 List.all_takeWhile c hc
  obtain ⟨c, rest, hbehind⟩ : ∃ c rest, Behind text c rest := by
    obtain ⟨suffix, hsuffix⟩ := exists_suffix text
    cases suffix with
    | none =>
      have hempty : byteLetters text = headLetters text := by
        rw [byteLetters_eq, ← head_append_tail, hsuffix, headLetters_eq]
        simp [Suffix.print]
      rw [hempty, hnone] at h
      cases h
    | name function => exact ⟨':', function, (behind_name hsuffix).1 rfl⟩
    | message words => exact ⟨';', words, (behind_message hsuffix).1 rfl⟩
  rw [byteLetters_of_behind hbehind, List.findIdx?_append, hnone, List.findIdx?_cons,
    if_pos hbehind.1] at h
  exact ⟨by simpa using h.symm, c, rest, hbehind⟩

/-- The first byte that is a delimiter is a character, and the text can be cut behind it. -/
theorem cut_behind_delimiter {p : Nat} (h : (byteLetters text).findIdx? isDelimiter = some p) :
    ∃ (valid : (⟨p + 1⟩ : String.Pos.Raw).IsValid text) (c : Char),
      (byteLetters text)[p]? = some c ∧
      Behind text c (text.sliceFrom (text.pos _ valid)).copy := by
  obtain ⟨rfl, c, rest, hbehind⟩ := behind_of_findIdx? h
  obtain ⟨hvalid, hrest⟩ := cut_of_behind hbehind
  refine ⟨hvalid, c, ?_, hrest.symm ▸ hbehind⟩
  rw [byteLetters_of_behind hbehind, List.getElem?_append_right (Nat.le_refl _), Nat.sub_self]
  rfl

/-! ### The reader as a whole -/

/-- A text is read as codes if its head is spelled, and refused otherwise. -/
theorem parse_verdict (text : String) :
    (Spelled (headLetters text) ∧ ∃ format, parse text = .ok format) ∨
      ∃ reason, Refused (headLetters text) reason ∧
        parse text = .error (.badFormat text reason) := by
  obtain ⟨suffix, hsuffix⟩ := exists_suffix text
  have hverdict := @readCodes_verdict text (head text) [] 0 none spelled_nil (by simp)
  rw [List.nil_append, ← headLetters_eq] at hverdict
  rw [parse_eq hsuffix]
  cases hread : readCodes text 0 none (head text) with
  | ok found => exact .inl ⟨hverdict.1 found hread, _, rfl⟩
  | error e =>
    obtain ⟨reason, hrefused, rfl⟩ := hverdict.2 e hread
    exact .inr ⟨reason, hrefused, rfl⟩

/-- A format is accepted exactly if the letters before the delimiter spell codes. -/
theorem parse_eq_ok_iff : (∃ format, parse text = .ok format) ↔ Spelled (headLetters text) := by
  rcases parse_verdict text with ⟨hspelled, hread⟩ | ⟨reason, hrefused, hread⟩
  · exact ⟨fun _ => hspelled, fun _ => hread⟩
  · refine ⟨fun ⟨format, hok⟩ => ?_, fun hspelled => absurd hspelled hrefused.not_spelled⟩
    rw [hread] at hok
    cases hok

/-- A format that is refused is refused with the reason for its first letter that does
not fit. -/
theorem parse_eq_error_iff {e : ApiError} :
    parse text = .error e ↔
      ∃ reason, Refused (headLetters text) reason ∧ e = .badFormat text reason := by
  rcases parse_verdict text with ⟨hspelled, format, hread⟩ | ⟨reason, hrefused, hread⟩
  · rw [hread]
    exact ⟨fun he => (by cases he), fun ⟨_, hrefused, _⟩ => absurd hspelled hrefused.not_spelled⟩
  · rw [hread]
    constructor
    · rintro ⟨⟩
      exact ⟨reason, hrefused, rfl⟩
    · rintro ⟨other, hother, rfl⟩
      rw [hrefused.unique hother]

/-- What is read is written in the head, and the tail is kept. -/
theorem parse_spells {format : ExtractFormat} (h : parse text = .ok format) :
    format.codes.map char = (headLetters text).filter (· ≠ '|') ∧
    format.required = ((headLetters text).takeWhile (· ≠ '|')).countP isCode ∧
    ∃ suffix : Suffix, tail text = suffix.print.toList ∧
      format.function = suffix.function? ∧ format.message = suffix.message? := by
  obtain ⟨suffix, hsuffix⟩ := exists_suffix text
  rw [parse_eq hsuffix] at h
  cases hread : readCodes text 0 none (head text) with
  | error e =>
    rw [hread] at h
    cases h
  | ok found =>
    rw [hread] at h
    cases h
    obtain ⟨hcodes, hmark⟩ := readCodes_spells hread
    rw [Nat.zero_add, Nat.zero_add, Option.getD_none] at hmark
    rw [headLetters_eq]
    exact ⟨hcodes, hmark, suffix, hsuffix, rfl, rfl⟩

/-- No more codes are required than there are. -/
theorem required_le {format : ExtractFormat} (h : parse text = .ok format) :
    format.required ≤ format.codes.length := by
  obtain ⟨hcodes, hrequired, -⟩ := parse_spells h
  have hlength : format.codes.length = ((headLetters text).filter (· ≠ '|')).length := by
    rw [← hcodes, List.length_map]
  have hcount : (headLetters text).countP isCode ≤ (headLetters text).countP (· ≠ '|') := by
    refine List.countP_mono_left fun c _ hc => ?_
    obtain ⟨code, rfl⟩ := mem_codeLetters.1 (of_decide_eq_true hc)
    cases code <;> decide
  rw [hrequired, hlength, ← List.countP_eq_length_filter]
  exact Nat.le_trans ((List.takeWhile_sublist _).countP_le) hcount

/-- What is read is read again from what it is written as. -/
theorem parse_print {format : ExtractFormat} (h : parse text = .ok format) :
    parse format.print = .ok format := by
  obtain ⟨-, -, suffix, -, hfunction, hmessage⟩ := parse_spells h
  have hrequired := required_le h
  obtain ⟨codes, required, function, message⟩ := format
  obtain rfl : function = suffix.function? := hfunction
  obtain rfl : message = suffix.message? := hmessage
  have hprint : print ⟨codes, required, suffix.function?, suffix.message?⟩ =
      marked codes (some required) ++ suffix.print := by
    refine String.toList_injective ?_
    cases suffix <;>
      simp [print, marked, letters, Suffix.print, Suffix.function?, Suffix.message?]
  rw [hprint, parse_marked, Option.map_some, Option.getD_some, Nat.min_eq_left hrequired]

/-- The texts that are read are those in which codes and at most one mark stand in front
of the first delimiter. What is read has these codes in their order, requires those
before the mark, or all if there is none, and has what stands behind the delimiter as
its name or its message, as the delimiter says; the text can always be cut there. What
has been read is read again from what it is written as. A text that is refused is
refused for the first byte in front of the delimiter that is no code and no mark, or is
a second mark. -/
theorem parse_spelling (text : String) :
    ((∃ format, parse text = .ok format) ↔ Spelled (headLetters text)) ∧
    (∀ format, parse text = .ok format →
      format.codes.map char = (headLetters text).filter (· ≠ '|') ∧
      format.required = ((headLetters text).takeWhile (· ≠ '|')).countP isCode ∧
      (∀ name, format.function = some name ↔ Behind text ':' name) ∧
      (∀ words, format.message = some words ↔ Behind text ';' words) ∧
      (format.function = none ∨ format.message = none) ∧
      parse format.print = .ok format) ∧
    (∀ p, (byteLetters text).findIdx? isDelimiter = some p →
      ∃ (valid : (⟨p + 1⟩ : String.Pos.Raw).IsValid text) (c : Char),
        (byteLetters text)[p]? = some c ∧
        Behind text c (text.sliceFrom (text.pos _ valid)).copy) ∧
    ∀ e, parse text = .error e ↔
      ∃ reason, Refused (headLetters text) reason ∧ e = .badFormat text reason := by
  refine ⟨parse_eq_ok_iff, fun format hread => ?_, fun _ => cut_behind_delimiter,
    fun _ => parse_eq_error_iff⟩
  obtain ⟨hcodes, hrequired, suffix, hsuffix, hfunction, hmessage⟩ := parse_spells hread
  refine ⟨hcodes, hrequired, fun name => ?_, fun words => ?_, ?_, parse_print hread⟩
  · rw [hfunction, behind_name hsuffix]
  · rw [hmessage, behind_message hsuffix]
  · rw [hfunction, hmessage]
    -- there is one suffix at most, so it is not both
    cases suffix with
    | none | name => exact .inr rfl
    | message => exact .inl rfl

/-- A name that is not ASCII does not disturb the letters before it. -/
theorem parse_spelling_named :
    parse "s|iO:größe" = .ok ⟨[.text, .int, .object], 1, some "größe", none⟩ ∧
    Spelled (headLetters "s|iO:größe") ∧ Behind "s|iO:größe" ':' "größe" ∧
    parse (print ⟨[.text, .int, .object], 1, some "größe", none⟩) =
      .ok ⟨[.text, .int, .object], 1, some "größe", none⟩ ∧
    (⟨5⟩ : String.Pos.Raw).IsValid "s|iO:größe" := by
  obtain ⟨hiff, hok, hcut, -⟩ := parse_spelling "s|iO:größe"
  have hread : parse "s|iO:größe" = .ok ⟨[.text, .int, .object], 1, some "größe", none⟩ := by rfl
  obtain ⟨-, -, hname, -, -, hprint⟩ := hok _ hread
  obtain ⟨hvalid, -⟩ := hcut 4 (by decide)
  exact ⟨hread, hiff.1 ⟨_, hread⟩, (hname _).1 rfl, hprint, hvalid⟩

/-- Of a longer character the first byte is named. -/
example : parse "d|ß" = .error (.badFormat "d|ß" "unknown code 'Ã'") := by rfl

end ExtractFormat

end ExtensionHost
