import ExtensionHost.Proofs.Argument.Resolution
import Mathlib.Data.List.Pairwise

/-!
# `ExtensionHost.Proofs.Argument.Interchange`: by position or by name

An argument may be given by position or under the name of its position, and it
makes no difference which. Say that the arguments of a call are all given by
position, and that from position `k` on every position is declared under a name
that stands for it. Then the first `k` arguments and the pairs of a name and an
argument for the others are the same call, in whatever order the pairs come
(`extractKeywords_interchange`): the same values, or the same error.

Both passes of the code have to be compared for that. The first one accepts the
pairs, because each name stands for its own position behind the slots
(`NamedFrom.resolved`). The second one sees nothing of a call but the argument of each
position (`convertPlaced_congr`), and that is the same argument
(`NamedFrom.suppliedArgument_eq`). An error that tells how many arguments were given
counts both kinds, so it is the same, too.

Without names there are two ways to take a tuple apart, which check the number of
arguments in different places: one of them before it converts anything, the other
when it comes to a position that is left out. They agree on every tuple that has
enough arguments (`convertPlaced_eq_convertSlots`) and both refuse the others.
-/

set_option autoImplicit false

namespace ExtensionHost.Argument

variable {w : World} {names : List String} {items : List Ref} {entries : KeywordEntries}
  {slots slots' placed placed' : List (Option Ref)} {format : ExtractFormat}
  {codes : List FormatCode} {values : Extracted} {args leading : Ref} {text : String}
  {supplied index k : Nat}

/-! ### What the second pass sees of a call -/

/-- Where no empty slot comes next, the argument is that of the position. -/
theorem nextArgument_of_filled (h : slots[0]? ≠ some none) :
    nextArgument index slots placed = .ok (placedArgument slots placed 0) := by
  match slots with
  | [] => cases placed <;> rfl
  | none :: _ => exact absurd rfl h
  | some item :: _ => rfl

/-- If no slot is empty, none is behind the first one. -/
theorem filled_tail (h : ∀ i : Nat, slots[i]? ≠ some none) (i : Nat) :
    slots.tail[i]? ≠ some none := by
  rw [List.getElem?_tail]
  exact h (i + 1)

/-- The second pass comes to the same for two calls whose positions have the same
arguments, whether these stand in slots or in the table. -/
theorem convertPlaced_congr (hfilled : ∀ i : Nat, slots[i]? ≠ some none)
    (hfilled' : ∀ i : Nat, slots'[i]? ≠ some none)
    (hsame : placedArgument slots placed = placedArgument slots' placed') :
    convertPlaced w format supplied index codes names slots placed =
      convertPlaced w format supplied index codes names slots' placed' := by
  induction codes generalizing index names slots slots' placed placed' with
  | nil => rfl
  | cons code codes ih =>
    have htails : placedArgument slots.tail placed.tail
        = placedArgument slots'.tail placed'.tail := by
      funext i
      rw [placedArgument_tail, placedArgument_tail, hsame]
    rw [convertPlaced_cons, convertPlaced_cons, nextArgument_of_filled (hfilled 0),
      nextArgument_of_filled (hfilled' 0), hsame,
      ih (filled_tail hfilled) (filled_tail hfilled') htails]

/-- With nothing in the table and enough slots the second pass converts the slots
one after the other, as one does without names. -/
theorem convertPlaced_eq_convertSlots (hempty : ∀ i : Nat, placed[i]?.join = none)
    (henough : format.required ≤ index + slots.length) :
    convertPlaced w format supplied index codes names slots placed =
      convertSlots w index codes slots := by
  induction codes generalizing index names slots placed with
  | nil => rfl
  | cons code codes ih =>
    have hempty' : ∀ i : Nat, placed.tail[i]?.join = none := fun i => by
      rw [List.getElem?_tail]
      exact hempty (i + 1)
    rw [convertPlaced_cons]
    match slots with
    | [] =>
      -- the slots have come to an end, so this position is not required
      have hnone : nextArgument index [] placed = .ok none := by
        rw [nextArgument, List.head?_eq_getElem?, hempty]
      have hoptional : ¬ index < format.required := Nat.not_lt.2 henough
      rw [hnone, convertSlots, ← ih hempty' (Nat.le_succ_of_le henough)]
      simp only [convertNext, if_neg hoptional]
      rfl
    | none :: slots => rfl
    | some item :: slots =>
      have henough' : format.required ≤ index + 1 + slots.length := by
        rw [List.length_cons] at henough
        omega
      rw [convertSlots_cons_some, ← ih hempty' henough']
      show ((Native.ofObject w code item).map some >>= _) = _
      cases Native.ofObject w code item <;> rfl

/-! ### Arguments under the names of their positions -/

/-- The pairs of a name and an argument from a position on. -/
theorem mem_drop_zip {name : String} {item : Ref} :
    (name, item) ∈ (names.zip items).drop k ↔
      ∃ i, k ≤ i ∧ names[i]? = some name ∧ items[i]? = some item := by
  simp only [List.mem_iff_getElem?, List.getElem?_drop, List.getElem?_zip_eq_some]
  constructor
  · rintro ⟨i, hname, hitem⟩
    exact ⟨k + i, Nat.le_add_right k i, hname, hitem⟩
  · rintro ⟨i, hle, hname, hitem⟩
    obtain ⟨j, rfl⟩ := Nat.exists_eq_add_of_le hle
    exact ⟨j, hname, hitem⟩

/-- From position `k` on the names stand for the positions that they are declared
at, as far as there are arguments. -/
def NamedFrom (names : List String) (items : List Ref) (k : Nat) : Prop :=
  ∀ i, k ≤ i → i < items.length → ∃ name, Declares names name i

/-- The name that an argument is paired with stands for its position. -/
theorem NamedFrom.declares (h : NamedFrom names items k) {i : Nat} {name : String} {item : Ref}
    (hle : k ≤ i) (hname : names[i]? = some name) (hitem : items[i]? = some item) :
    Declares names name i := by
  obtain ⟨declared, hdeclares⟩ := h i hle (List.getElem?_eq_some_iff.1 hitem).1
  obtain rfl : name = declared := Option.some.inj (hname.symm.trans hdeclares.here)
  exact hdeclares

/-- An argument is given under the name of a position if it is the argument that
belongs there. -/
theorem NamedFrom.entry_iff (h : NamedFrom names items k)
    (hentries : entries.Perm ((names.zip items).drop k)) {i : Nat} {item : Ref} :
    (∃ name, (name, item) ∈ entries ∧ Declares names name i) ↔ k ≤ i ∧ items[i]? = some item := by
  constructor
  · rintro ⟨name, hmem, hdeclares⟩
    obtain ⟨j, hle, hname, hitem⟩ := mem_drop_zip.1 (hentries.mem_iff.1 hmem)
    obtain rfl := Declares.unique hdeclares (h.declares hle hname hitem)
    exact ⟨hle, hitem⟩
  · rintro ⟨hle, hitem⟩
    obtain ⟨name, hdeclares⟩ := h i hle (List.getElem?_eq_some_iff.1 hitem).1
    exact ⟨name, hentries.mem_iff.2 (mem_drop_zip.2 ⟨i, hle, hdeclares.here, hitem⟩), hdeclares⟩

/-- The pairs stand for positions of their own behind the first `k`, whatever
their order. -/
theorem NamedFrom.resolved (h : NamedFrom names items k)
    (hentries : entries.Perm ((names.zip items).drop k)) : Resolved names k entries where
  resolves := by
    rintro ⟨name, item⟩ hmem
    obtain ⟨i, hle, hname, hitem⟩ := mem_drop_zip.1 (hentries.mem_iff.1 hmem)
    exact ⟨i, h.declares hle hname hitem, hle⟩
  distinct := by
    have hsymm : ∀ {entry other : String × Ref}, (∀ i, Hits names i entry → ¬ Hits names i other) →
        ∀ i, Hits names i other → ¬ Hits names i entry :=
      fun hapart i hother hentry => hapart i hentry hother
    rw [hentries.pairwise_iff hsymm, List.pairwise_iff_getElem]
    intro i j hi hj hij n hn hn'
    -- the entries at two places of the list are for two positions
    have hplace : ∀ i (hi : i < ((names.zip items).drop k).length),
        Hits names (k + i) ((names.zip items).drop k)[i] := by
      intro i hi
      have hget := List.getElem?_eq_getElem hi
      rw [List.getElem?_drop, List.getElem?_zip_eq_some] at hget
      exact h.declares (Nat.le_add_right k i) hget.1 hget.2
    have hfirst := Declares.unique hn (hplace i hi)
    have hsecond := Declares.unique hn' (hplace j hj)
    omega

/-- Positions have the arguments that they would have if all were given by
position. -/
theorem NamedFrom.suppliedArgument_eq (h : NamedFrom names items k) (hk : k ≤ items.length)
    (hentries : entries.Perm ((names.zip items).drop k)) :
    suppliedArgument names entries ((items.take k).map some) =
      suppliedArgument names [] (items.map some) := by
  have hresolved := h.resolved hentries
  funext i
  rw [suppliedArgument, suppliedArgument, List.length_map, List.length_map,
    List.length_take_of_le hk, namedArgument_nil]
  by_cases hi : i < k
  · rw [if_pos hi, if_pos (Nat.lt_of_lt_of_le hi hk), List.getElem?_map, List.getElem?_map,
      List.getElem?_take_of_lt hi]
  · rw [if_neg hi]
    have hitems : (if i < items.length then (items.map some)[i]?.join else none) = items[i]? := by
      rw [List.getElem?_map]
      split
      · next hlt => rw [List.getElem?_eq_getElem hlt]; rfl
      · next hge => rw [List.getElem?_eq_none (Nat.le_of_not_lt hge)]
    rw [hitems]
    refine Option.ext fun item => ?_
    rw [hresolved.namedArgument_eq_some_iff, h.entry_iff hentries,
      and_iff_right (Nat.le_of_not_lt hi)]

/-- Slots that are made from items are all filled. -/
theorem filled_map_some (items : List Ref) (i : Nat) : (items.map some)[i]? ≠ some none := by
  rw [List.getElem?_map]
  cases items[i]? <;> nofun

/-- A call with enough slots whose names are resolved goes on to the second pass with
the table of what is given by name. -/
theorem extractKeywordsUnder_of_resolved (text : String) (hcount : names.length = format.length)
    (hslots : Box.tupleSlots w args = .ok slots) (hroom : slots.length ≤ format.length)
    (hentries : Resolved names slots.length entries) :
    ∃ placed, placedArgument slots placed = suppliedArgument names entries slots ∧
      extractKeywordsUnder w format text names args entries =
        convertPlaced w format (slots.length + entries.length) 0 format.codes names slots
          placed := by
  rcases placeEntries_cases slots.length entries hcount with
    ⟨e, ⟨before, entry, after, rfl, -, hrefused⟩, -⟩ | ⟨-, placed, hplaced, htable⟩
  · exact absurd hentries hrefused.not_resolved
  · refine ⟨placed, placedArgument_eq_supplied htable, ?_⟩
    rw [extractKeywordsUnder_eq hcount hslots rfl hroom, hplaced]
    rfl

/-- The call with names comes to the same as the call without them. -/
theorem NamedFrom.extractKeywords_eq (h : NamedFrom names items k)
    (hformat : ExtractFormat.parse text = .ok format) (hcount : names.length = format.length)
    (hargs : Box.tupleSlots w args = .ok (items.map some)) (hroom : items.length ≤ format.length)
    (hk : k ≤ items.length) (hleading : Box.tupleSlots w leading = .ok ((items.take k).map some))
    (hentries : entries.Perm ((names.zip items).drop k)) :
    extractKeywords w leading entries text names = extractKeywords w args .none text names := by
  have hlength : ((items.take k).map some).length = k := by
    rw [List.length_map, List.length_take_of_le hk]
  have hresolved : Resolved names ((items.take k).map some).length entries := by
    rw [hlength]
    exact h.resolved hentries
  obtain ⟨placed, hplaced, hrun⟩ :=
    extractKeywordsUnder_of_resolved text hcount hleading (by omega) hresolved
  obtain ⟨placed', hplaced', hrun'⟩ :=
    extractKeywordsUnder_of_resolved text hcount hargs (by rwa [List.length_map]) resolved_nil
  -- both calls have as many arguments, which an error may tell
  have hsupplied : ((items.take k).map some).length + entries.length =
      (items.map some).length + ([] : KeywordEntries).length := by
    rw [hlength, hentries.length_eq, List.length_drop, List.length_zip, List.length_map,
      List.length_nil]
    omega
  have hsame : placedArgument ((items.take k).map some) placed
      = placedArgument (items.map some) placed' :=
    hplaced.trans ((h.suppliedArgument_eq hk hentries).trans hplaced'.symm)
  rw [extractKeywords, extractKeywords, hformat]
  show extractKeywordsUnder w format text names leading entries =
    extractKeywordsUnder w format text names args (.listed [])
  rw [hrun, hrun', hsupplied]
  exact convertPlaced_congr (filled_map_some (items.take k)) (filled_map_some items) hsame

/-! ### Without names -/

/-- A call that leaves out a required position is refused. -/
theorem not_ok_of_short (hempty : ∀ i : Nat, placed[i]?.join = none)
    (hshort : slots.length < format.required) (hrequired : format.required ≤ format.length) :
    convertPlaced w format supplied 0 format.codes names slots placed ≠ .ok values := by
  intro hok
  obtain ⟨-, hneeds, -⟩ := convertPlaced_ok hok
  refine hneeds slots.length (Nat.lt_of_lt_of_le hshort hrequired) (by omega) ?_
  rw [placedArgument, List.getElem?_eq_none (Nat.le_refl _)]
  exact hempty _

/-- Without names both ways to take a tuple apart give the same values. -/
theorem extractKeywords_nil_eq_ok_iff (hcount : ∀ format, ExtractFormat.parse text = .ok format →
      names.length = format.length) :
    extractKeywords w args .none text names = .ok values ↔ extract w args text = .ok values := by
  have hrefused (e : ApiError) : Except.error e ≠ .ok values := fun h => by cases h
  rw [extractKeywords, extract]
  cases hformat : ExtractFormat.parse text with
  | error e => exact iff_of_false (hrefused _) (hrefused _)
  | ok format =>
    have hcount := hcount format hformat
    show extractKeywordsUnder w format text names args .none = _ ↔ extractUnder w format args = _
    cases hslots : Box.tupleSlots w args with
    | error e =>
      rw [extractUnder_error hslots, extractKeywordsUnder, if_neg (not_not.2 hcount), hslots]
      exact iff_of_false (hrefused _) (hrefused _)
    | ok slots =>
      rw [extractUnder_ok hslots]
      by_cases hroom : slots.length ≤ format.length
      -- without names every position has what stands in its slot, or nothing
      · have hempty := join_replicate_none format.length
        rw [extractKeywordsUnder_eq hcount hslots rfl hroom]
        show convertPlaced w format _ 0 format.codes names slots _ = _ ↔ _
        by_cases hshort : slots.length < format.required
        · rw [if_pos (.inl hshort)]
          exact iff_of_false (not_ok_of_short hempty hshort (required_le_length hformat))
            (hrefused _)
        · rw [if_neg (by omega), convertPlaced_eq_convertSlots hempty (by omega)]
      · have hmany : format.length < slots.length := Nat.not_le.1 hroom
        rw [if_pos (.inr hmany), extractKeywordsUnder, if_neg (not_not.2 hcount), hslots]
        show (if format.length < slots.length then _ else _) = _ ↔ _
        rw [if_pos hmany]
        exact iff_of_false (hrefused _) (hrefused _)

/-! ### The law -/

/-- It makes no difference whether arguments are given by position or by name, nor in
which order they are given by name; and without names it makes no difference for the
values in which of the two ways a tuple is taken apart. -/
theorem extractKeywords_interchange (hformat : ExtractFormat.parse text = .ok format)
    (hcount : names.length = format.length) :
    (∀ args leading items k (entries : KeywordEntries),
      Box.tupleSlots w args = .ok (items.map some) →
      items.length ≤ format.length → k ≤ items.length → NamedFrom names items k →
      Box.tupleSlots w leading = .ok ((items.take k).map some) →
      entries.Perm ((names.zip items).drop k) →
      extractKeywords w leading entries text names = extractKeywords w args .none text names) ∧
    ∀ args values, extractKeywords w args .none text names = .ok values ↔
      extract w args text = .ok values := by
  refine ⟨fun args leading items k entries hargs hroom hk hnamed hleading hentries => ?_,
    fun args values => extractKeywords_nil_eq_ok_iff fun format' hformat' => ?_⟩
  · exact hnamed.extractKeywords_eq hformat hcount hargs hroom hk hleading hentries
  · rw [hformat] at hformat'
    cases hformat'
    exact hcount

/-- A tuple of a text and the two truths, and a tuple of the text alone. -/
def withLeading : World :=
  let attempt : Attempt Ref := do
    let text ← Box.newText "n"
    Host.retain text
    let _ ← Box.tupleOf [text, Ref.yes, Ref.no]
    Box.tupleOf [text]
  match attempt.run (.new (.bounded 0x1000000) {}) with
  | .ok _ w | .error _ w => w

/-- The truths may be given by name, the second one first. Nothing can be given under
the empty name of the first position. -/
theorem extractKeywords_withLeading :
    extractKeywords withLeading 5 (.listed [("c", Ref.no), ("b", Ref.yes)]) "O|ii" ["", "b", "c"] =
        extractKeywords withLeading 4 .none "O|ii" ["", "b", "c"] ∧
      extract withLeading 4 "O|ii" =
        .ok [some (.object (some 3)), some (.int 1), some (.int 0)] := by
  have hformat : ExtractFormat.parse "O|ii" = .ok ⟨[.object, .int, .int], 1, none, none⟩ := rfl
  have hcount : ["", "b", "c"].length = 3 := rfl
  obtain ⟨hsame, hplain⟩ := extractKeywords_interchange (w := withLeading) hformat hcount
  refine ⟨?_, (hplain 4 _).1 rfl⟩
  refine hsame 4 5 [3, Ref.yes, Ref.no] 1 _ rfl (by decide) (by decide) (fun i hle hlt => ?_) rfl
    (List.Perm.swap _ _ _)
  have hcases : i = 1 ∨ i = 2 := by
    rw [show ([3, Ref.yes, Ref.no] : List Ref).length = 3 from rfl] at hlt
    omega
  rcases hcases with rfl | rfl
  · exact ⟨"b", keywordPosition?_eq_some_iff.1 (by decide)⟩
  · exact ⟨"c", keywordPosition?_eq_some_iff.1 (by decide)⟩

end ExtensionHost.Argument
