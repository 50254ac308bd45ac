import ExtensionHost.Proofs.Argument.Resolution
import ExtensionHost.Proofs.Upkeep.Contents

/-!
# `ExtensionHost.Proofs.Argument.Pairs`: names and values in boxes

Arguments by name may come in a box: a tuple or a list of pairs, each a tuple
of a text and a value. `keywordEntries_eq_ok_iff` says which boxes are read
and what is read from them, pair by pair and in order.
`extractKeywords_resolves` is what a call with names comes to, whichever way
the names are passed.

A text is read from the bytes in its box, and the box of a type derived from
`str` is made with the bytes of a text. `TextsHold` says that they are still
there, as they are in every world of a strict run (`textsHold_of_thread`). It is
asked for only where a box is to be recognised by its type alone.
-/

set_option autoImplicit false

namespace ExtensionHost

/-- Every box of a type derived from `str` holds a text. -/
def World.TextsHold (w : World) : Prop :=
  ∀ r, w.isInstance r .str = true → ∃ text, Box.text w r = .ok text

/-- In a world that was laid out by a strict run every text has its bytes. -/
theorem World.LaidOut.textsHold {w : World} (h : w.LaidOut) : w.TextsHold := by
  intro r hinstance
  rw [World.isInstance] at hinstance
  cases hobject : w.object? r with
  | none =>
    rw [hobject] at hinstance
    cases hinstance
  | some object =>
    rw [hobject] at hinstance
    obtain ⟨hsuits, htext⟩ := h r object hobject
    obtain ⟨length, hbody⟩ := hsuits.text hinstance
    obtain ⟨text, -, hread⟩ := htext length hbody
    have hfound : Box.textObject w r = .ok (object, length) :=
      Box.textObject_eq_ok.2 ⟨hobject, hinstance, hbody⟩
    refine ⟨text, ?_⟩
    simp only [Box.text, hfound, hread, fromUTF8?_toUTF8]

/-- Texts last in every world of a run whose boxes hold what their types stand for. -/
theorem textsHold_of_thread {system : System} {settings : AllocatorSettings} {w : World}
    {owned : Multiset Ref} (h : Thread true system settings w owned) : w.TextsHold :=
  (laidOut_of_thread h).textsHold

namespace Argument

variable {w : World} {pair pairs : Ref} {entry : String × Ref} {entries : KeywordEntries}
  {slots : List (Option Ref)} {args : Ref} {text : String} {names : List String}

/-- The box is a tuple of two, both slots have occupants, and the first
occupant is the text of the entry. -/
structure HoldsPair (w : World) (pair : Ref) (entry : String × Ref) : Prop where
  read : ∃ key, Box.tupleSlots w pair = .ok [some key, some entry.2] ∧
    Box.text w key = .ok entry.1

/-- What the slot of a sequence of pairs gives. -/
def SlotHolds (w : World) (slot : Option Ref) (entry : String × Ref) : Prop :=
  ∃ pair, slot = some pair ∧ HoldsPair w pair entry

/-! ### Reading pairs -/

/-- The length of a tuple is the number of its slots. -/
theorem tupleLength_eq_ok (h : Box.tupleSlots w pair = .ok slots) :
    Box.tupleLength w pair = .ok slots.length := by
  rw [Box.tupleSlots] at h
  rw [Box.tupleLength]
  cases htuple : Box.tupleObject w pair with
  | error e =>
    rw [htuple] at h
    cases h
  | ok found =>
    obtain ⟨object, length⟩ := found
    rw [htuple] at h
    cases h
    obtain ⟨-, -, hbody⟩ := Box.tupleObject_eq_ok.1 htuple
    show Except.ok length = Except.ok (w.slotsOf object).length
    rw [World.slotsOf, World.slotTable, hbody, List.length_map, List.length_range]

/-- What has a length as a tuple has that many slots. -/
theorem tupleSlots_of_length {n : Nat} (h : Box.tupleLength w pair = .ok n) :
    ∃ slots, Box.tupleSlots w pair = .ok slots ∧ slots.length = n := by
  cases hslots : Box.tupleSlots w pair with
  | error e =>
    rw [Box.tupleSlots] at hslots
    rw [Box.tupleLength] at h
    cases htuple : Box.tupleObject w pair with
    | error e' =>
      rw [htuple] at h
      cases h
    | ok found =>
      rw [htuple] at hslots
      cases hslots
  | ok slots =>
    rw [tupleLength_eq_ok hslots] at h
    exact ⟨slots, rfl, Except.ok.inj h⟩

/-- An item of a tuple is the occupant of its slot. -/
theorem tupleItem_eq_ok_iff (h : Box.tupleSlots w pair = .ok slots) (index : Nat) (item : Ref) :
    Box.tupleItem w pair index = .ok item ↔ slots[index]? = some (some item) := by
  rw [Box.tupleSlots] at h
  rw [Box.tupleItem]
  cases htuple : Box.tupleObject w pair with
  | error e =>
    rw [htuple] at h
    cases h
  | ok found =>
    obtain ⟨object, length⟩ := found
    rw [htuple] at h
    cases h
    show Box.occupant w object length index = _ ↔ _
    rw [Box.occupant, World.slot?_eq_getElem?_slotsOf]
    cases (w.slotsOf object)[index]? with
    | none => exact iff_of_false (fun h => by cases h) fun h => by cases h
    | some slot =>
      cases slot with
      | none => exact iff_of_false (fun h => by cases h) fun h => by cases h
      | some found => simp only [Except.ok.injEq, Option.some.injEq]

/-- Only a pair is read as an entry. -/
theorem keywordEntry_eq_ok_iff : keywordEntry w pair = .ok entry ↔ HoldsPair w pair entry := by
  rw [keywordEntry]
  constructor
  · intro h
    obtain ⟨n, hlength, h⟩ := except_bind_eq_ok.1 h
    split at h
    · next htwo =>
      subst htwo
      obtain ⟨key, hkey, h⟩ := except_bind_eq_ok.1 h
      obtain ⟨name, hname, h⟩ := except_bind_eq_ok.1 h
      obtain ⟨value, hvalue, h⟩ := except_bind_eq_ok.1 h
      cases h
      obtain ⟨slots, hslots, hcount⟩ := tupleSlots_of_length hlength
      rw [tupleItem_eq_ok_iff hslots] at hkey hvalue
      refine ⟨key, ?_, hname⟩
      -- a list of two is its items at zero and at one
      match slots, hcount with
      | [first, second], _ =>
        cases hkey
        cases hvalue
        exact hslots
    · cases h
  · rintro ⟨key, hslots, hname⟩
    have hkey := (tupleItem_eq_ok_iff hslots 0 key).2 rfl
    have hvalue := (tupleItem_eq_ok_iff hslots 1 entry.2).2 rfl
    simp only [tupleLength_eq_ok hslots, hkey, hvalue, hname, bind, Except.bind]
    rfl

/-- The slots are read as pairs exactly if each of them holds the pair that is read. -/
theorem keywordEntriesOfSlots_eq_ok_iff (index : Nat) :
    keywordEntriesOfSlots w index slots = .ok entries ↔
      List.Forall₂ (SlotHolds w) slots entries := by
  induction slots generalizing index entries with
  | nil =>
    rw [keywordEntriesOfSlots, List.forall₂_nil_left_iff, Except.ok.injEq, eq_comm]
  | cons slot slots ih =>
    rw [List.forall₂_cons_left_iff]
    -- a slot without a pair in it is refused before the rest is looked at
    cases slot with
    | none =>
      rw [keywordEntriesOfSlots]
      exact iff_of_false nofun fun ⟨_, _, ⟨_, hslot, _⟩, _⟩ => nomatch hslot
    | some pair =>
      rw [keywordEntriesOfSlots]
      constructor
      · intro h
        obtain ⟨entry, hentry, h⟩ := except_bind_eq_ok.1 h
        obtain ⟨rest, hrest, h⟩ := except_bind_eq_ok.1 h
        cases h
        have hholds : HoldsPair w pair entry := keywordEntry_eq_ok_iff.1 hentry
        exact ⟨entry, rest, ⟨pair, rfl, hholds⟩, (ih (index + 1)).1 hrest, rfl⟩
      · rintro ⟨entry, rest, ⟨pair', hslot, hentry⟩, hrest, rfl⟩
        cases hslot
        rw [keywordEntry_eq_ok_iff.2 hentry, (ih (index + 1)).2 hrest]
        rfl

/-- A box is read when it is a sequence of pairs, and its entries are those of
the pairs. -/
theorem keywordEntries_eq_ok_iff :
    keywordEntries w pairs = .ok entries ↔
      ∃ slots, Box.sequenceSlots w pairs = .ok slots ∧
        List.Forall₂ (SlotHolds w) slots entries := by
  rw [keywordEntries]
  constructor
  · intro h
    obtain ⟨slots, hslots, h⟩ := except_bind_eq_ok.1 h
    exact ⟨slots, hslots, (keywordEntriesOfSlots_eq_ok_iff 0).1 h⟩
  · rintro ⟨slots, hslots, h⟩
    rw [hslots]
    exact (keywordEntriesOfSlots_eq_ok_iff 0).2 h

/-- Only texts can be read as a text. -/
theorem isInstance_of_text (h : Box.text w pair = .ok text) : w.isInstance pair .str = true := by
  rw [Box.text, Box.textObject] at h
  rw [World.isInstance]
  cases hinstance : w.instanceOf pair .str with
  | error e =>
    rw [hinstance] at h
    cases h
  | ok object =>
    obtain ⟨hobject, hsub⟩ := Box.instanceOf_eq_ok.1 hinstance
    rw [hobject]
    exact hsub

/-- A box is read when each of its slots has a pair. -/
theorem keywordEntries_readable_iff :
    (∃ entries, keywordEntries w pairs = .ok entries) ↔
      ∃ slots, Box.sequenceSlots w pairs = .ok slots ∧
        ∀ slot ∈ slots, ∃ entry, SlotHolds w slot entry := by
  constructor
  · rintro ⟨entries, h⟩
    obtain ⟨slots, hslots, hall⟩ := keywordEntries_eq_ok_iff.1 h
    refine ⟨slots, hslots, fun slot hmem => ?_⟩
    obtain ⟨i, hi, rfl⟩ := List.getElem_of_mem hmem
    exact ⟨_, (List.forall₂_iff_get.1 hall).2 i hi (hall.length_eq ▸ hi)⟩
  · rintro ⟨slots, hslots, hread⟩
    choose! entryOf hentryOf using hread
    refine ⟨slots.map entryOf, keywordEntries_eq_ok_iff.2 ⟨slots, hslots, ?_⟩⟩
    exact List.forall₂_map_right_iff.2 (List.forall₂_same.2 hentryOf)

/-- Where the texts are in their boxes, a pair is a tuple of two with a text first. -/
theorem slotHolds_iff (hhold : w.TextsHold) {slot : Option Ref} :
    (∃ entry, SlotHolds w slot entry) ↔ ∃ pair key value, slot = some pair ∧
      Box.tupleSlots w pair = .ok [some key, some value] ∧ w.isInstance key .str = true := by
  constructor
  · rintro ⟨entry, pair, hslot, key, hpair, hname⟩
    exact ⟨pair, key, _, hslot, hpair, isInstance_of_text hname⟩
  · rintro ⟨pair, key, value, hslot, hpair, hkey⟩
    obtain ⟨name, hname⟩ := hhold key hkey
    exact ⟨(name, value), pair, hslot, key, hpair, hname⟩

/-- Where the texts are in their boxes, pairs are told by their types. -/
theorem keywordEntries_accepts_iff (hhold : w.TextsHold) :
    (∃ entries, keywordEntries w pairs = .ok entries) ↔
      ∃ slots, Box.sequenceSlots w pairs = .ok slots ∧ ∀ slot ∈ slots, ∃ pair key value,
        slot = some pair ∧ Box.tupleSlots w pair = .ok [some key, some value] ∧
          w.isInstance key .str = true := by
  rw [keywordEntries_readable_iff]
  simp only [slotHolds_iff hhold]

/-! ### Calls with names -/

/-- A call with names goes by one rule, whatever source the names come from. It is
accepted when its arguments fit the format, and then every position has the value of
its argument; it is refused for the first check that fails, which may be that of the
source. Names in a box count for as much as the same names in a list, and a box is
accepted when it is a sequence of pairs. Texts are in their boxes in every world of a
strict run, and then it is the types that tell a pair. -/
theorem extractKeywords_resolves (w : World) :
    (∀ args (source : KeywordSource) text names,
      (∀ e, extractKeywords w args source text names = .error e ↔
        KeywordsRefused w args text names source e) ∧
      ((∃ values, extractKeywords w args source text names = .ok values) ↔
        ∃ format slots entries, ExtractFormat.parse text = .ok format ∧
          Box.tupleSlots w args = .ok slots ∧ source.read w = .ok entries ∧
          KeywordsFit w format names slots entries) ∧
      ∀ format slots entries values, ExtractFormat.parse text = .ok format →
        Box.tupleSlots w args = .ok slots → source.read w = .ok entries →
        extractKeywords w args source text names = .ok values →
        KeywordValues w format names slots entries values ∧
          slots.length + entries.length ≤ format.length) ∧
    (∀ pairs entries, keywordEntries w pairs = .ok entries ↔
      ∃ slots, Box.sequenceSlots w pairs = .ok slots ∧
        List.Forall₂ (SlotHolds w) slots entries) ∧
    (∀ pairs slots entries, Box.sequenceSlots w pairs = .ok slots →
      List.Forall₂ (SlotHolds w) slots entries →
      KeywordSource.ofObject w pairs = .ok (.boxed pairs) ∧ ∀ args text names,
        extractKeywords w args (.boxed pairs) text names =
          extractKeywords w args entries text names) ∧
    (w.TextsHold → ∀ pairs, (∃ entries, keywordEntries w pairs = .ok entries) ↔
      ∃ slots, Box.sequenceSlots w pairs = .ok slots ∧ ∀ slot ∈ slots, ∃ pair key value,
        slot = some pair ∧ Box.tupleSlots w pair = .ok [some key, some value] ∧
          w.isInstance key .str = true) ∧
    ∀ system settings owned, Thread true system settings w owned → w.TextsHold := by
  refine ⟨fun args source text names => ⟨fun e => extractKeywords_eq_error_iff, ?_, ?_⟩,
    fun pairs entries => keywordEntries_eq_ok_iff, ?_, fun hhold pairs =>
      keywordEntries_accepts_iff hhold, fun _ _ _ => textsHold_of_thread⟩
  · rcases extractKeywords_cases w args source text names with
      ⟨e, hrefused⟩ | ⟨format, slots, entries, values, hformat, hslots, hread, hfit, hvalues, -⟩
    · rw [hrefused.extractKeywords]
      refine iff_of_false nofun fun ⟨format, slots, entries, hformat, hslots, hread, hfit⟩ => ?_
      exact hfit.not_refused hformat hslots hread hrefused
    · exact iff_of_true ⟨values, hvalues⟩ ⟨format, slots, entries, hformat, hslots, hread, hfit⟩
  · intro format slots entries values hformat hslots hread hvalues
    obtain ⟨format', slots', entries', hformat', hslots', hread', hfit, hspec⟩ :=
      extractKeywords_eq_ok_iff.1 hvalues
    -- there is only one format, one list of slots and one list of entries that can be meant
    rw [hformat] at hformat'
    rw [hslots] at hslots'
    rw [hread] at hread'
    cases hformat'
    cases hslots'
    cases hread'
    exact ⟨hspec, hfit.length_le⟩
  · intro pairs slots entries hslots hpairs
    have hread : (KeywordSource.boxed pairs).read w = .ok entries :=
      keywordEntries_eq_ok_iff.2 ⟨slots, hslots, hpairs⟩
    refine ⟨by rw [KeywordSource.ofObject, hread]; rfl, fun args text names => ?_⟩
    simp only [extractKeywords, extractKeywordsUnder_of_read hread]

/-- An empty tuple for arguments. -/
def withArguments : World := (World.new (.bounded 0x1000000) {}).left (Box.newTuple 0).run

/-- The name of an argument. -/
def withName : World := withArguments.left (Box.newText "n").run

/-- The name and a value in a pair. -/
def withEntry : World := (withName.left (Box.newBool true)).left (Box.tupleOf [4, Ref.yes]).run

/-- An empty tuple of arguments, and a tuple with the one pair that names the
argument `n`. -/
def withPair : World := withEntry.left (Box.tupleOf [5]).run

/-- The pair comes about in a strict run, which leaves the caller the pairs and the
arguments. -/
theorem thread_withPair : Thread true (.bounded 0x1000000) {} withPair {6, 3} := by
  have harguments : (Box.newTuple 0).run (.new (.bounded 0x1000000) {}) =
      .ok (.ok 3) withArguments := rfl
  have hname : (Box.newText "n").run withArguments = .ok (.ok 4) withName := rfl
  have htrue : Box.newBool true withName = .ok Ref.yes (withName.left (Box.newBool true)) := rfl
  have hentry : (Box.tupleOf [4, Ref.yes]).run (withName.left (Box.newBool true)) =
      .ok (.ok 5) withEntry := rfl
  have hpair : (Box.tupleOf [5]).run withEntry = .ok (.ok 6) withPair := rfl
  have htuples : Box.MakesTuples .tuple := ⟨rfl, Nat.le_refl _, Nat.le_refl _⟩
  have h₁ : Thread true (.bounded 0x1000000) {} withArguments {3} :=
    .step 0 0 .start (.newTuple htuples 0)
      (.newTuple htuples 0 fun _ => TypeObject.suits_tuple 0) nofun harguments
  have h₂ : Thread true (.bounded 0x1000000) {} withName {4, 3} :=
    .step 0 {3} h₁ (.newText Box.makesTexts_str.mayGo "n")
      (.newText Box.makesTexts_str "n" fun _ => TypeObject.suits_str _) nofun hname
  have h₃ : Thread true (.bounded 0x1000000) {} (withName.left (Box.newBool true))
      ({Ref.yes} + {4, 3}) := .step 0 {4, 3} h₂ (.newBool true) (.newBool true) nofun htrue
  have howned : ({Ref.yes} + {4, 3} : Multiset Ref) = ↑[4, Ref.yes] + {3} := by decide
  have h₄ : Thread true (.bounded 0x1000000) {} withEntry {5, 3} :=
    .step ↑[4, Ref.yes] {3} (howned ▸ h₃) (.tupleOf [4, Ref.yes]) (.tupleOf [4, Ref.yes]) nofun
      hentry
  exact .step {5} {3} h₄ (.tupleOf [5]) (.tupleOf [5]) nofun hpair

/-- The pair is told by its types, because the name is still in its box. -/
theorem extractKeywords_withPair :
    withPair.TextsHold ∧ keywordEntries withPair 6 = .ok [("n", Ref.yes)] ∧
      (∃ entries, keywordEntries withPair 6 = .ok entries) ∧
      extractKeywords withPair 3 (.boxed 6) "|i" ["n"] = .ok [some (.int 1)] ∧
      ∃ format slots entries, ExtractFormat.parse "|i" = .ok format ∧
        Box.tupleSlots withPair 3 = .ok slots ∧ keywordEntries withPair 6 = .ok entries ∧
        KeywordsFit withPair format ["n"] slots entries := by
  obtain ⟨hcalls, -, -, haccepts, hrun⟩ := extractKeywords_resolves withPair
  have hhold := hrun _ _ _ thread_withPair
  have hvalues : extractKeywords withPair 3 (.boxed 6) "|i" ["n"] = .ok [some (.int 1)] := rfl
  have hslots : Box.sequenceSlots withPair 6 = .ok [some 5] := rfl
  have hpair : Box.tupleSlots withPair 5 = .ok [some 4, some Ref.yes] := rfl
  refine ⟨hhold, rfl, ?_, hvalues, ?_⟩
  · refine (haccepts hhold 6).2 ⟨[some 5], hslots, fun slot hmem => ?_⟩
    obtain rfl := List.mem_singleton.1 hmem
    exact ⟨5, 4, Ref.yes, rfl, hpair, rfl⟩
  · exact (hcalls 3 (.boxed 6) "|i" ["n"]).2.1.1 ⟨_, hvalues⟩

end Argument

end ExtensionHost
