import ExtensionHost.Proofs.Argument.Keywords
import Mathlib.Data.List.Nodup
import Mathlib.Data.List.Perm.Subperm
import Mathlib.Data.List.Range

/-!
# `ExtensionHost.Proofs.Argument.Resolution`: which position a name stands for

A name stands for the first position that is declared under it
(`Declares`). A call is accepted when every name that it gives stands for a
position of its own behind the arguments that are given by position, no
required position is left out, and every argument converts
(`KeywordsFit`). The code works in two passes over a table of positions;
`extractKeywords_resolves` says that the passes together come to that one
rule, and that a call that is refused is refused for the first of the checks
that fails, in the order of `KeywordsRefused`.

The first pass stops at the first name that cannot take a position. What is
in front of that name has been resolved, so the induction carries the
entries that were placed before (`placeEntries_eq`). The second pass stops
at the first position without a value, which is `firstFailure` again.
-/

set_option autoImplicit false

namespace ExtensionHost.Argument

variable {w : World} {names : List String} {given : Nat} {before entries : KeywordEntries}
  {source : KeywordSource}
  {placed slots : List (Option Ref)} {format : ExtractFormat} {codes : List FormatCode}
  {values : Extracted} {args pairs : Ref} {text name : String} {supplied i : Nat} {e : ApiError}

/-! ### Names and positions -/

/-- A name stands for the first position that is declared under it. No
position is declared under the empty name. -/
structure Declares (names : List String) (name : String) (i : Nat) : Prop where
  nonempty : name ≠ ""
  here : names[i]? = some name
  first : ∀ j < i, names[j]? ≠ some name

/-- The code finds the first position that a name is declared for. -/
theorem keywordPosition?_eq_some_iff :
    keywordPosition? names name = some i ↔ Declares names name i := by
  rw [keywordPosition?, List.findIdx?_eq_some_iff_getElem]
  constructor
  · rintro ⟨hlt, hhere, hfirst⟩
    simp only [Bool.and_eq_true, decide_eq_true_eq] at hhere
    refine ⟨hhere.2 ▸ hhere.1, by rw [List.getElem?_eq_getElem hlt, hhere.2], fun j hj hname => ?_⟩
    obtain ⟨hlt', hname⟩ := List.getElem?_eq_some_iff.1 hname
    have hskipped := hfirst j hj
    simp [hname, hhere.2 ▸ hhere.1] at hskipped
  · intro h
    obtain ⟨hlt, hname⟩ := List.getElem?_eq_some_iff.1 h.here
    refine ⟨hlt, by simp [hname, h.nonempty], fun j hj => ?_⟩
    have hne : names[j] ≠ name := fun heq =>
      h.first j hj (by rw [List.getElem?_eq_getElem (Nat.lt_trans hj hlt), heq])
    simp [hne]

/-- A position that is declared is one of the positions. -/
theorem Declares.lt (h : Declares names name i) : i < names.length :=
  (List.getElem?_eq_some_iff.1 h.here).1

/-- A name stands for one position only. -/
theorem Declares.unique {j : Nat} (h : Declares names name i) (h' : Declares names name j) :
    i = j := by
  rw [← keywordPosition?_eq_some_iff] at h h'
  exact Option.some.inj (h.symm.trans h')

/-- The entry is for a position. -/
def Hits (names : List String) (i : Nat) (entry : String × Ref) : Prop := Declares names entry.1 i

/-- The entries stand for positions behind the first `given`, each for
another one. -/
structure Resolved (names : List String) (given : Nat) (entries : KeywordEntries) : Prop where
  resolves : ∀ entry ∈ entries, ∃ i, Hits names i entry ∧ given ≤ i
  distinct : entries.Pairwise fun entry other => ∀ i, Hits names i entry → ¬ Hits names i other

/-- Without pairs there is nothing to resolve. -/
theorem resolved_nil : Resolved names given [] := ⟨nofun, .nil⟩

/-- Why an entry cannot take its position: there is none, or it has an
argument already. -/
inductive EntryRefused (names : List String) (given : Nat) (before : KeywordEntries)
    (entry : String × Ref) : ApiError → Prop
  | unknown (h : ∀ i, ¬ Hits names i entry) :
      EntryRefused names given before entry (.unknownKeyword entry.1)
  | duplicate {i : Nat} (hi : Hits names i entry)
      (h : i < given ∨ ∃ other ∈ before, Hits names i other) :
      EntryRefused names given before entry (.duplicateArgument entry.1)

/-- The entries before one have their positions, and that one is refused. -/
def FirstEntryRefused (names : List String) (given : Nat) (entries : KeywordEntries)
    (e : ApiError) : Prop :=
  ∃ before entry after, entries = before ++ entry :: after ∧ Resolved names given before ∧
    EntryRefused names given before entry e

/-- One more entry, for a position that has no argument yet. -/
theorem Resolved.concat {entry : String × Ref} (h : Resolved names given before)
    (hi : Hits names i entry) (hgiven : given ≤ i)
    (hfree : ∀ other ∈ before, ¬ Hits names i other) :
    Resolved names given (before ++ [entry]) where
  resolves other hmem := by
    rcases List.mem_append.1 hmem with hmem | hmem
    · exact h.resolves other hmem
    · obtain rfl := List.mem_singleton.1 hmem
      exact ⟨i, hi, hgiven⟩
  distinct := by
    refine List.pairwise_append.2 ⟨h.distinct, List.pairwise_singleton _ _, ?_⟩
    intro other hother last hlast j hj hj'
    obtain rfl := List.mem_singleton.1 hlast
    obtain rfl := Declares.unique hi hj'
    exact hfree other hother hj

/-- An entry that is refused has no position of its own. -/
theorem EntryRefused.not_resolved {entry : String × Ref} {after : KeywordEntries}
    (h : EntryRefused names given before entry e) :
    ¬ Resolved names given (before ++ entry :: after) := by
  intro hresolved
  obtain ⟨i, hi, hgiven⟩ := hresolved.resolves entry (by simp)
  cases h with
  | unknown hnone => exact hnone i hi
  | duplicate hj htaken =>
    obtain rfl := Declares.unique hi hj
    rcases htaken with hlt | ⟨other, hother, hhit⟩
    · omega
    · obtain ⟨-, -, hapart⟩ := List.pairwise_append.1 hresolved.distinct
      exact hapart other hother entry List.mem_cons_self i hhit hi

/-- Two entries never stand for one position. -/
theorem Resolved.apart {entry other : String × Ref} (h : Resolved names given entries)
    (hentry : entry ∈ entries) (hother : other ∈ entries) (hne : entry ≠ other)
    (hi : Hits names i entry) : ¬ Hits names i other := by
  have hsymm : Std.Symm fun entry other : String × Ref =>
      ∀ i, Hits names i entry → ¬ Hits names i other :=
    ⟨fun _ _ hapart j hj hj' => hapart j hj' hj⟩
  exact h.distinct.forall hentry hother hne i hi

/-- The entries that are placed are those whose positions are taken. -/
theorem placeEntries_eq (entries : KeywordEntries) (hlength : placed.length = names.length)
    (hbefore : Resolved names given before)
    (htaken : ∀ i, (placed[i]?.join).isSome ↔ ∃ other ∈ before, Hits names i other) :
    (∃ e, FirstEntryRefused names given (before ++ entries) e ∧
        placeEntries names given entries placed = .error e) ∨
      (Resolved names given (before ++ entries) ∧
        ∃ placed', placeEntries names given entries placed = .ok placed') := by
  induction entries generalizing placed before with
  | nil =>
    rw [List.append_nil]
    exact .inr ⟨hbefore, placed, rfl⟩
  | cons entry entries ih =>
    obtain ⟨name, value⟩ := entry
    simp only [placeEntries]
    cases hposition : keywordPosition? names name with
    | none =>
      refine .inl ⟨_, ⟨before, (name, value), entries, rfl, hbefore, .unknown fun i hi => ?_⟩, rfl⟩
      rw [Hits, ← keywordPosition?_eq_some_iff, hposition] at hi
      cases hi
    | some i =>
      have hi : Hits names i (name, value) := keywordPosition?_eq_some_iff.1 hposition
      by_cases hfree : i < given ∨ (placed[i]?.join).isSome
      · refine .inl ⟨_, ⟨before, (name, value), entries, rfl, hbefore, .duplicate hi ?_⟩, ?_⟩
        · exact hfree.imp id (htaken i).1
        · simp only [if_pos hfree]
      · -- the entry takes its position, and the rest of the entries finds it taken
        have hnone : ∀ other ∈ before, ¬ Hits names i other := fun other hother hhit =>
          hfree (.inr ((htaken i).2 ⟨other, hother, hhit⟩))
        have hlt : i < placed.length := hlength ▸ hi.lt
        have htaken' : ∀ j : Nat, ((placed.set i (some value))[j]?.join).isSome ↔
            ∃ other ∈ before ++ [(name, value)], Hits names j other := by
          intro j
          by_cases hj : j = i
          · subst hj
            rw [List.getElem?_set_self hlt]
            exact iff_of_true rfl ⟨(name, value), by simp, hi⟩
          · rw [List.getElem?_set_ne (Ne.symm hj), htaken j]
            constructor
            · rintro ⟨other, hother, hhit⟩
              exact ⟨other, List.mem_append_left _ hother, hhit⟩
            · rintro ⟨other, hother, hhit⟩
              rcases List.mem_append.1 hother with hother | hother
              · exact ⟨other, hother, hhit⟩
              · obtain rfl := List.mem_singleton.1 hother
                exact absurd (Declares.unique hhit hi) hj
        have hresolved : Resolved names given (before ++ [(name, value)]) :=
          hbefore.concat hi (by omega) hnone
        have hnext := ih (by rw [List.length_set, hlength]) hresolved htaken'
        rw [List.append_assoc, List.singleton_append] at hnext
        simp only [if_neg hfree]
        exact hnext

/-- A pair is refused for one reason only. -/
theorem EntryRefused.unique {entry : String × Ref} {e' : ApiError}
    (h : EntryRefused names given before entry e) (h' : EntryRefused names given before entry e') :
    e = e' := by
  cases h with
  | unknown hnone =>
    cases h' with
    | unknown => rfl
    | duplicate hi => exact absurd hi (hnone _)
  | duplicate hi =>
    cases h' with
    | unknown hnone => exact absurd hi (hnone _)
    | duplicate => rfl

/-- Only one refusal is the first. -/
theorem FirstEntryRefused.unique {e' : ApiError} (h : FirstEntryRefused names given entries e)
    (h' : FirstEntryRefused names given entries e') : e = e' := by
  obtain ⟨before, entry, after, rfl, hbefore, hrefused⟩ := h
  obtain ⟨before', entry', after', heq, hbefore', hrefused'⟩ := h'
  -- of two refusals at different places the earlier one would have been resolved
  rcases List.append_eq_append_iff.1 heq with ⟨rest, rfl, hrest⟩ | ⟨rest, rfl, hrest⟩
  · cases rest with
    | nil =>
      obtain ⟨rfl, -⟩ := List.cons.inj hrest
      rw [List.append_nil] at hrefused'
      exact hrefused.unique hrefused'
    | cons other rest =>
      obtain ⟨rfl, -⟩ := List.cons.inj hrest
      exact absurd hbefore' hrefused.not_resolved
  · cases rest with
    | nil =>
      obtain ⟨rfl, -⟩ := List.cons.inj hrest
      rw [List.append_nil] at hrefused
      exact hrefused.unique hrefused'
    | cons other rest =>
      obtain ⟨rfl, -⟩ := List.cons.inj hrest
      exact absurd hbefore hrefused'.not_resolved

/-- Entries stand for positions that are all different, so there are no more of them
than places with those positions. -/
theorem Resolved.length_le_of_hits {chosen : KeywordEntries}
    (h : Resolved names given entries) (hchosen : chosen.Sublist entries) (places : List Nat)
    (hplaces : ∀ entry ∈ chosen, ∃ i ∈ places, Hits names i entry) :
    chosen.length ≤ places.length := by
  let position (entry : String × Ref) : Nat := (keywordPosition? names entry.1).getD 0
  have hposition : ∀ entry i, Hits names i entry → position entry = i := by
    intro entry i hi
    show (keywordPosition? names entry.1).getD 0 = i
    rw [keywordPosition?_eq_some_iff.2 hi]
    rfl
  have hnodup : (chosen.map position).Nodup := by
    refine List.pairwise_map.2 ((h.distinct.sublist hchosen).imp_of_mem
      fun {entry other} hmem hmem' hapart heq => ?_)
    obtain ⟨i, -, hi⟩ := hplaces entry hmem
    obtain ⟨j, -, hj⟩ := hplaces other hmem'
    rw [hposition entry i hi, hposition other j hj] at heq
    exact hapart i hi (heq ▸ hj)
  have hsubset : chosen.map position ⊆ places := by
    intro n hn
    obtain ⟨entry, hmem, rfl⟩ := List.mem_map.1 hn
    obtain ⟨i, hplace, hi⟩ := hplaces entry hmem
    rwa [hposition entry i hi]
  simpa only [List.length_map] using (List.subperm_of_subset hnodup hsubset).length_le

/-- The positions that are given, by position or by name, are all different,
so there are no more of them than names. -/
theorem Resolved.length_le (h : Resolved names given entries) (hgiven : given ≤ names.length) :
    given + entries.length ≤ names.length := by
  have hle := h.length_le_of_hits (List.Sublist.refl entries)
    (List.range' given (names.length - given)) fun entry hmem => by
      obtain ⟨i, hi, hle⟩ := h.resolves entry hmem
      have hlt := Declares.lt hi
      exact ⟨i, List.mem_range'_1.2 (by omega), hi⟩
  rw [List.length_range'] at hle
  omega

/-! ### Arguments of positions -/

/-- An object is the argument of a position: it stands in the slot, or it is
given under the name that stands for the position. -/
inductive Supplies (names : List String) (slots : List (Option Ref)) (entries : KeywordEntries)
    (i : Nat) (item : Ref) : Prop
  | slot (h : slots[i]? = some (some item))
  | named {name : String} (hentry : (name, item) ∈ entries) (hi : Declares names name i)

/-- The entry that is found for a position is the only one for it. -/
theorem Resolved.namedArgument_eq_some_iff (h : Resolved names given entries) {item : Ref} :
    namedArgument names entries i = some item ↔
      ∃ name, (name, item) ∈ entries ∧ Declares names name i := by
  rw [namedArgument, Option.map_eq_some_iff]
  constructor
  · rintro ⟨entry, hfound, rfl⟩
    have hhit := List.find?_some hfound
    rw [decide_eq_true_eq, keywordPosition?_eq_some_iff] at hhit
    exact ⟨entry.1, List.mem_of_find?_eq_some hfound, hhit⟩
  · rintro ⟨name, hmem, hi⟩
    cases hfound : entries.find? fun entry => keywordPosition? names entry.1 = some i with
    | none =>
      have hmiss := List.find?_eq_none.1 hfound _ hmem
      rw [decide_eq_true_eq, keywordPosition?_eq_some_iff] at hmiss
      exact absurd hi hmiss
    | some entry =>
      have hhit := List.find?_some hfound
      rw [decide_eq_true_eq, keywordPosition?_eq_some_iff] at hhit
      refine ⟨entry, rfl, ?_⟩
      by_contra hne
      exact h.apart (List.mem_of_find?_eq_some hfound) hmem (fun heq => hne (by rw [heq])) hhit hi

/-- The argument of a position is the one that is supplied for it. -/
theorem Resolved.supplied_eq_some_iff (h : Resolved names slots.length entries) {item : Ref} :
    suppliedArgument names entries slots i = some item ↔ Supplies names slots entries i item := by
  rw [suppliedArgument]
  by_cases hi : i < slots.length
  · rw [if_pos hi, List.getElem?_eq_getElem hi]
    constructor
    · intro hslot
      exact .slot (by rw [List.getElem?_eq_getElem hi]; exact congrArg some hslot)
    · rintro (hslot | ⟨hentry, hdeclares⟩)
      · rw [List.getElem?_eq_getElem hi] at hslot
        exact Option.some.inj hslot
      · -- names stand for positions behind the slots
        obtain ⟨j, hj, hle⟩ := h.resolves _ hentry
        obtain rfl := Declares.unique hdeclares hj
        omega
  · rw [if_neg hi, h.namedArgument_eq_some_iff]
    constructor
    · rintro ⟨name, hentry, hdeclares⟩
      exact .named hentry hdeclares
    · rintro (hslot | ⟨hentry, hdeclares⟩)
      · exact absurd (List.getElem?_eq_some_iff.1 hslot).1 hi
      · exact ⟨_, hentry, hdeclares⟩

/-- A position has no argument exactly if none is supplied for it. -/
theorem Resolved.supplied_eq_none_iff (h : Resolved names slots.length entries) :
    suppliedArgument names entries slots i = none ↔
      ∀ item, ¬ Supplies names slots entries i item := by
  constructor
  · intro hnone item hitem
    rw [← h.supplied_eq_some_iff, hnone] at hitem
    cases hitem
  · intro habsent
    cases hargument : suppliedArgument names entries slots i with
    | none => rfl
    | some item => exact absurd (h.supplied_eq_some_iff.1 hargument) (habsent item)

/-- Why a position has no value: its slot is empty, its argument does not
convert, or it has none and is required. -/
inductive PositionRefused (w : World) (format : ExtractFormat) (names : List String)
    (slots : List (Option Ref)) (entries : KeywordEntries) (i : Nat) : ApiError → Prop
  | unset (h : slots[i]? = some none) :
      PositionRefused w format names slots entries i (.uninitializedSlot i)
  | unconverted {code : FormatCode} {item : Ref} {e : ApiError}
      (hcode : format.codes[i]? = some code)
      (hitem : Supplies names slots entries i item) (h : Native.ofObject w code item = .error e) :
      PositionRefused w format names slots entries i e
  | missing {name : String} (hname : names[i]? = some name) (hrequired : i < format.required)
      (hset : slots[i]? ≠ some none) (h : ∀ item, ¬ Supplies names slots entries i item) :
      PositionRefused w format names slots entries i
        (missingArgument format name (slots.length + entries.length))

/-- The positions before one have values or need none, and that one is
refused. -/
def FirstPositionRefused (w : World) (format : ExtractFormat) (names : List String)
    (slots : List (Option Ref)) (entries : KeywordEntries) (e : ApiError) : Prop :=
  ∃ i, i < format.length ∧ PositionRefused w format names slots entries i e ∧
    ∀ j < i, ∀ e', ¬ PositionRefused w format names slots entries j e'

/-- The second pass at a position, given the arguments of all positions. -/
def positionFailure (w : World) (format : ExtractFormat) (slots : List (Option Ref))
    (argument : Nat → Option Ref) (supplied : Nat) (i : Nat) (code : FormatCode) (name : String) :
    Option ApiError :=
  if slots[i]? = some none then some (.uninitializedSlot i)
  else
    match argument i with
    | some item =>
      match Native.ofObject w code item with
      | .error e => some e
      | .ok _ => none
    | none => if i < format.required then some (missingArgument format name supplied) else none

/-- The conversion of a position fails with exactly the error that the position is
refused with. -/
theorem positionFailure_eq_some_iff (h : Resolved names slots.length entries)
    {code : FormatCode} (hcode : format.codes[i]? = some code) (hname : names[i]? = some name) :
    positionFailure w format slots (suppliedArgument names entries slots)
        (slots.length + entries.length) i code name = some e ↔
      PositionRefused w format names slots entries i e := by
  rw [positionFailure]
  constructor
  · intro hfails
    split at hfails
    · next hunset =>
      cases hfails
      exact .unset hunset
    · next hset =>
      split at hfails
      · next item hitem =>
        split at hfails
        · next e' hconvert =>
          cases hfails
          exact .unconverted hcode (h.supplied_eq_some_iff.1 hitem) hconvert
        · cases hfails
      · next hnone =>
        split at hfails
        · next hrequired =>
          cases hfails
          exact .missing hname hrequired hset (h.supplied_eq_none_iff.1 hnone)
        · cases hfails
  · intro hrefused
    cases hrefused with
    | unset hunset => rw [if_pos hunset]
    | @unconverted code' item e hcode' hitem hconvert =>
      rw [hcode] at hcode'
      cases hcode'
      have hset : slots[i]? ≠ some none := by
        intro hunset
        have hlt := (List.getElem?_eq_some_iff.1 hunset).1
        have hitem := h.supplied_eq_some_iff.2 hitem
        rw [suppliedArgument, if_pos hlt, hunset] at hitem
        cases hitem
      simp only [if_neg hset, h.supplied_eq_some_iff.2 hitem, hconvert]
    | @missing name' hname' hrequired hset habsent =>
      rw [hname] at hname'
      cases hname'
      simp only [if_neg hset, h.supplied_eq_none_iff.2 habsent, if_pos hrequired]

/-- The next argument, seen from position `i`, is that of position `i`, unless its slot
is empty. -/
theorem nextArgument_drop (i : Nat) :
    nextArgument i (slots.drop i) (placed.drop i) =
      if slots[i]? = some none then .error (.uninitializedSlot i)
      else .ok (placedArgument slots placed i) := by
  rw [placedArgument]
  by_cases hi : i < slots.length
  · rw [List.drop_eq_getElem_cons hi, List.getElem?_eq_getElem hi]
    cases slots[i] with
    | none => rfl
    | some item => rfl
  · rw [List.drop_eq_nil_of_le (Nat.le_of_not_lt hi), List.getElem?_eq_none (Nat.le_of_not_lt hi)]
    show Except.ok (placed.drop i).head?.join = .ok placed[i]?.join
    rw [List.head?_drop]

/-- One position of the second pass. -/
theorem positionFailure_cases (argument : Nat → Option Ref) (index : Nat) (code : FormatCode)
    (name : String) (declared : List String) (hset : slots[index]? ≠ some none) :
    (∃ e, positionFailure w format slots argument supplied index code name = some e ∧
        convertNext w format supplied index code (name :: declared) (argument index) = .error e) ∨
      (positionFailure w format slots argument supplied index code name = none ∧
        ∃ value, convertNext w format supplied index code (name :: declared) (argument index)
          = .ok value) := by
  rw [positionFailure, if_neg hset]
  cases argument index with
  | some item =>
    show (∃ e, _ ∧ (Native.ofObject w code item).map some = .error e) ∨ _
    cases hconvert : Native.ofObject w code item with
    | error e => exact .inl ⟨e, by simp only [hconvert], rfl⟩
    | ok native =>
      refine .inr ⟨by simp only [hconvert], some native, ?_⟩
      simp only [convertNext, hconvert]
      rfl
  | none =>
    by_cases hrequired : index < format.required
    · refine .inl ⟨missingArgument format name supplied, by simp only [if_pos hrequired], ?_⟩
      simp only [convertNext, if_pos hrequired]
      rfl
    · refine .inr ⟨by simp only [if_neg hrequired], none, ?_⟩
      simp only [convertNext, if_neg hrequired]

/-- The second pass goes up to the first position that has no value. -/
theorem convertPlaced_eq (w : World) (format : ExtractFormat) (slots placed : List (Option Ref))
    (codes : List FormatCode) (supplied index : Nat) (declared : List String)
    (hlength : declared.length = codes.length) :
    (∃ e, firstFailure (positionFailure w format slots (placedArgument slots placed) supplied)
          index codes declared = some e ∧
        convertPlaced w format supplied index codes declared (slots.drop index) (placed.drop index)
          = .error e) ∨
      (firstFailure (positionFailure w format slots (placedArgument slots placed) supplied)
          index codes declared = none ∧
        ∃ values, convertPlaced w format supplied index codes declared (slots.drop index)
          (placed.drop index) = .ok values) := by
  induction codes generalizing index declared with
  | nil => exact .inr ⟨rfl, [], rfl⟩
  | cons code codes ih =>
    cases declared with
    | nil => cases hlength
    | cons name declared =>
      rw [convertPlaced_cons, nextArgument_drop, List.tail_cons, List.tail_drop, List.tail_drop,
        firstFailure]
      -- a slot that is not set comes before everything else about its position
      by_cases hset : slots[index]? = some none
      · have hfails : positionFailure w format slots (placedArgument slots placed) supplied index
            code name = some (.uninitializedSlot index) := by rw [positionFailure, if_pos hset]
        rw [hfails, if_pos hset]
        exact .inl ⟨_, rfl, rfl⟩
      · rw [if_neg hset]
        rcases positionFailure_cases (placedArgument slots placed) index code name declared
          hset with
          ⟨e, hfails, herror⟩ | ⟨hpass, value, hvalue⟩
        · rw [hfails]
          refine .inl ⟨e, rfl, ?_⟩
          show (convertNext w format supplied index code (name :: declared) _ >>= _) = _
          rw [herror]
          rfl
        · -- the position passes, so the rest decides
          rw [hpass]
          rcases ih (index + 1) declared (Nat.succ.inj hlength) with
            ⟨e, hfails, herror⟩ | ⟨hrest, values, hvalues⟩
          · refine .inl ⟨e, hfails, ?_⟩
            show (convertNext w format supplied index code (name :: declared) _ >>= _) = _
            rw [hvalue, herror]
            rfl
          · refine .inr ⟨hrest, value :: values, ?_⟩
            show (convertNext w format supplied index code (name :: declared) _ >>= _) = _
            rw [hvalue, hvalues]
            rfl

/-- The second pass is refused at the first position that is. -/
theorem firstFailure_eq_some_iff (h : Resolved names slots.length entries)
    (hnames : names.length = format.length) :
    firstFailure (positionFailure w format slots (suppliedArgument names entries slots)
        (slots.length + entries.length)) 0 format.codes names = some e ↔
      FirstPositionRefused w format names slots entries e := by
  have hcodes : format.codes.length = names.length := hnames.symm
  constructor
  · intro hfails
    obtain ⟨i, code, name, hcode, hname, hfails, hbefore⟩ := failsFirst_of_firstFailure hfails
    have hi : i < format.length := (List.getElem?_eq_some_iff.1 hcode).1
    refine ⟨i, hi, (positionFailure_eq_some_iff h hcode hname).1 hfails, fun j hj e' hrefused => ?_⟩
    -- a position before the first failure is one that passes
    have hlt : j < format.codes.length := Nat.lt_trans hj hi
    have hcode' := List.getElem?_eq_getElem hlt
    have hname' := List.getElem?_eq_getElem (hcodes ▸ hlt)
    have hfails' := (positionFailure_eq_some_iff h hcode' hname').2 hrefused
    rw [hbefore j _ _ hj hcode' hname'] at hfails'
    cases hfails'
  · rintro ⟨i, hi, hrefused, hbefore⟩
    have hcode := List.getElem?_eq_getElem (show i < format.codes.length from hi)
    have hname := List.getElem?_eq_getElem (show i < names.length from hnames ▸ hi)
    refine FailsFirst.firstFailure_eq
      ⟨i, _, _, hcode, hname, (positionFailure_eq_some_iff h hcode hname).2 hrefused, ?_⟩
    intro j code name hj hcode' hname'
    refine Option.eq_none_iff_forall_not_mem.2 fun e' hfails => ?_
    exact hbefore j hj e' ((positionFailure_eq_some_iff h hcode' hname').1 hfails)

/-- The second pass goes through when no position is refused. -/
theorem firstFailure_eq_none_iff (h : Resolved names slots.length entries)
    (hnames : names.length = format.length) :
    firstFailure (positionFailure w format slots (suppliedArgument names entries slots)
        (slots.length + entries.length)) 0 format.codes names = none ↔
      ∀ i < format.length, ∀ e, ¬ PositionRefused w format names slots entries i e := by
  constructor
  · intro hpass i hi e hrefused
    have hcode := List.getElem?_eq_getElem (show i < format.codes.length from hi)
    have hname := List.getElem?_eq_getElem (show i < names.length from hnames ▸ hi)
    have hfails := (positionFailure_eq_some_iff h hcode hname).2 hrefused
    rw [allPass_of_firstFailure hpass i _ _ hcode hname] at hfails
    cases hfails
  · intro hpass
    refine Option.eq_none_iff_forall_not_mem.2 fun e hfails => ?_
    obtain ⟨i, hi, hrefused, -⟩ := (firstFailure_eq_some_iff h hnames).1 hfails
    exact hpass i hi e hrefused

/-! ### The rule -/

/-- The mark stands behind codes that have been read. -/
theorem readCodes_mark {chars : List Char} {seen m : Nat} {mark mark' : Option Nat}
    (h : ExtractFormat.readCodes text seen mark chars = .ok (codes, mark'))
    (hmark : ∀ m, mark = some m → m ≤ seen) (hm : mark' = some m) : m ≤ seen + codes.length := by
  induction chars generalizing seen mark codes with
  | nil =>
    cases h
    exact hmark m hm
  | cons c rest ih =>
    simp only [ExtractFormat.readCodes] at h
    split at h
    · -- this is the mark, so no other one came before
      split at h
      · cases h
      · exact ih h fun m hm => by cases hm; exact Nat.le_refl _
    · split at h
      · cases h
      · split at h
        · cases h
        · next hrest =>
          cases h
          have hle := ih hrest fun m hm => Nat.le_succ_of_le (hmark m hm)
          rw [List.length_cons]
          omega

/-- No format requires more arguments than it has codes. -/
theorem required_le_length (h : ExtractFormat.parse text = .ok format) :
    format.required ≤ format.length := by
  simp only [ExtractFormat.parse] at h
  split at h
  · cases h
  · next codes mark hcodes =>
    have hle : mark.getD codes.length ≤ codes.length := by
      cases mark with
      | none => exact Nat.le_refl _
      | some m =>
        have hm := readCodes_mark hcodes nofun rfl
        rwa [Nat.zero_add] at hm
    split at h <;> cases h <;> exact hle

/-- The arguments by position and by name go with a format. -/
structure KeywordsFit (w : World) (format : ExtractFormat) (names : List String)
    (slots : List (Option Ref)) (entries : KeywordEntries) : Prop where
  declared : names.length = format.length
  room : slots.length ≤ format.length
  /-- Every name stands for a position of its own behind the slots. -/
  resolved : Resolved names slots.length entries
  required : ∀ i < format.required, i < slots.length ∨ ∃ entry ∈ entries, Hits names i entry
  filled : ∀ slot ∈ slots, slot ≠ none
  converts : ∀ i code item, format.codes[i]? = some code → Supplies names slots entries i item →
    ∃ value, Native.ofObject w code item = .ok value

/-- Each position has the value of its argument, and one without an argument
has none. -/
structure KeywordValues (w : World) (format : ExtractFormat) (names : List String)
    (slots : List (Option Ref)) (entries : KeywordEntries) (values : Extracted) : Prop where
  length : values.length = format.length
  supplied : ∀ i code item, format.codes[i]? = some code → Supplies names slots entries i item →
    ∃ value, Native.ofObject w code item = .ok value ∧ values[i]? = some (some value)
  absent : ∀ i < format.length, (∀ item, ¬ Supplies names slots entries i item) →
    values[i]? = some none

/-- The arguments determine the values. -/
theorem KeywordValues.unique {values' : Extracted}
    (h : KeywordValues w format names slots entries values)
    (h' : KeywordValues w format names slots entries values') : values = values' := by
  refine List.ext_getElem? fun i => ?_
  by_cases hi : i < format.length
  · by_cases hsupplied : ∃ item, Supplies names slots entries i item
    · obtain ⟨item, hitem⟩ := hsupplied
      have hcode := List.getElem?_eq_getElem (show i < format.codes.length from hi)
      obtain ⟨value, hvalue, hget⟩ := h.supplied i _ item hcode hitem
      obtain ⟨value', hvalue', hget'⟩ := h'.supplied i _ item hcode hitem
      rw [hvalue] at hvalue'
      cases hvalue'
      rw [hget, hget']
    · rw [not_exists] at hsupplied
      rw [h.absent i hi hsupplied, h'.absent i hi hsupplied]
  · have hnone := List.getElem?_eq_none (h.length.symm ▸ Nat.le_of_not_lt hi)
    have hnone' := List.getElem?_eq_none (h'.length.symm ▸ Nat.le_of_not_lt hi)
    rw [hnone, hnone']

/-- Why arguments by position and by name are refused: the first check that
fails. The source is read once the arguments by position are known. -/
inductive KeywordsRefused (w : World) (args : Ref) (text : String) (names : List String)
    (source : KeywordSource) : ApiError → Prop
  | format {e : ApiError} (h : ExtractFormat.parse text = .error e) :
      KeywordsRefused w args text names source e
  | count {format : ExtractFormat} (hformat : ExtractFormat.parse text = .ok format)
      (h : names.length ≠ format.length) :
      KeywordsRefused w args text names source (.badFormat text
        (toString format.length ++ " codes but " ++ toString names.length ++ " keyword names"))
  | tuple {format : ExtractFormat} {e : ApiError} (hformat : ExtractFormat.parse text = .ok format)
      (hcount : names.length = format.length) (h : Box.tupleSlots w args = .error e) :
      KeywordsRefused w args text names source e
  | source {format : ExtractFormat} {slots : List (Option Ref)} {e : ApiError}
      (hformat : ExtractFormat.parse text = .ok format) (hcount : names.length = format.length)
      (hslots : Box.tupleSlots w args = .ok slots) (h : source.read w = .error e) :
      KeywordsRefused w args text names source e
  | arity {format : ExtractFormat} {slots : List (Option Ref)} {entries : KeywordEntries}
      (hformat : ExtractFormat.parse text = .ok format) (hcount : names.length = format.length)
      (hslots : Box.tupleSlots w args = .ok slots) (hread : source.read w = .ok entries)
      (h : format.length < slots.length) :
      KeywordsRefused w args text names source
        (.arity format.required format.length (slots.length + entries.length))
  | entry {format : ExtractFormat} {slots : List (Option Ref)} {entries : KeywordEntries}
      {e : ApiError} (hformat : ExtractFormat.parse text = .ok format)
      (hcount : names.length = format.length) (hslots : Box.tupleSlots w args = .ok slots)
      (hread : source.read w = .ok entries) (hroom : slots.length ≤ format.length)
      (h : FirstEntryRefused names slots.length entries e) :
      KeywordsRefused w args text names source e
  | position {format : ExtractFormat} {slots : List (Option Ref)} {entries : KeywordEntries}
      {e : ApiError} (hformat : ExtractFormat.parse text = .ok format)
      (hcount : names.length = format.length) (hslots : Box.tupleSlots w args = .ok slots)
      (hread : source.read w = .ok entries) (hroom : slots.length ≤ format.length)
      (hentries : Resolved names slots.length entries)
      (h : FirstPositionRefused w format names slots entries e) :
      KeywordsRefused w args text names source e

/-- No more arguments are given than there are codes. -/
theorem KeywordsFit.length_le (h : KeywordsFit w format names slots entries) :
    slots.length + entries.length ≤ format.length := by
  have hle := h.resolved.length_le (h.declared ▸ h.room)
  rwa [h.declared] at hle

/-- Positions that are not refused are all that the rule asks for. -/
theorem keywordsFit_iff (hrequired : format.required ≤ format.length)
    (hcount : names.length = format.length) (hroom : slots.length ≤ format.length)
    (hentries : Resolved names slots.length entries) :
    KeywordsFit w format names slots entries ↔
      ∀ i < format.length, ∀ e, ¬ PositionRefused w format names slots entries i e := by
  constructor
  · intro h i hi e hrefused
    cases hrefused with
    | unset hunset => exact h.filled none (List.mem_of_getElem? hunset) rfl
    | unconverted hcode hitem hconvert =>
      obtain ⟨value, hvalue⟩ := h.converts i _ _ hcode hitem
      rw [hconvert] at hvalue
      cases hvalue
    | missing _ hlt hset habsent =>
      rcases h.required i hlt with hslot | ⟨⟨name, item⟩, hmem, hhit⟩
      · -- the slot has an occupant, which is the argument
        have hget := List.getElem?_eq_getElem hslot
        cases hoccupant : slots[i] with
        | none => exact hset (hget.trans (congrArg some hoccupant))
        | some item => exact habsent item (.slot (hget.trans (congrArg some hoccupant)))
      · exact habsent item (.named hmem hhit)
  · intro hpass
    refine ⟨hcount, hroom, hentries, fun i hi => ?_, fun slot hmem hnone => ?_,
      fun i code item hcode hitem => ?_⟩
    -- a required position without a value would be refused
    · by_contra hleft
      rw [not_or, not_exists] at hleft
      obtain ⟨hslot, hnamed⟩ := hleft
      have hlt : i < names.length := by omega
      have hslots : slots[i]? = none := List.getElem?_eq_none (Nat.le_of_not_lt hslot)
      refine hpass i (by omega) _
        (.missing (List.getElem?_eq_getElem hlt) hi (by rw [hslots]; nofun) fun item hitem => ?_)
      cases hitem with
      | slot hitem =>
        rw [hslots] at hitem
        cases hitem
      | named hmem hdeclares => exact hnamed _ ⟨hmem, hdeclares⟩
    · subst hnone
      obtain ⟨i, hi, hslot⟩ := List.getElem_of_mem hmem
      refine hpass i (by omega) _ (.unset ?_)
      rw [List.getElem?_eq_getElem hi, hslot]
    · have hi : i < format.length := (List.getElem?_eq_some_iff.1 hcode).1
      cases hconvert : Native.ofObject w code item with
      | error e => exact absurd (.unconverted hcode hitem hconvert) (hpass i hi e)
      | ok value => exact ⟨value, rfl⟩

/-- The second pass over a table in which the entries have their places. -/
theorem convertPlaced_supplied (hcount : names.length = format.length)
    (hentries : Resolved names slots.length entries)
    (htable : ∀ i, placed[i]?.join = namedArgument names entries i) :
    (∃ e, FirstPositionRefused w format names slots entries e ∧
        convertPlaced w format (slots.length + entries.length) 0 format.codes names slots placed
          = .error e) ∨
      ((∀ i < format.length, ∀ e, ¬ PositionRefused w format names slots entries i e) ∧
        ∃ values, convertPlaced w format (slots.length + entries.length) 0 format.codes names slots
            placed = .ok values ∧
          KeywordValues w format names slots entries values) := by
  have hpass := convertPlaced_eq w format slots placed format.codes
    (slots.length + entries.length) 0 names hcount
  rw [placedArgument_eq_supplied htable, List.drop_zero, List.drop_zero] at hpass
  rcases hpass with ⟨e, hfails, herror⟩ | ⟨hnone, values, hvalues⟩
  · exact .inl ⟨e, (firstFailure_eq_some_iff hentries hcount).1 hfails, herror⟩
  · refine .inr ⟨(firstFailure_eq_none_iff hentries hcount).1 hnone, values, hvalues, ?_⟩
    obtain ⟨hconverted, -, -⟩ := convertPlaced_ok hvalues
    rw [placedArgument_eq_supplied htable] at hconverted
    refine ⟨hconverted.length, fun i code item hcode hitem => ?_, fun i hi habsent => ?_⟩
    · exact hconverted.present i code item hcode (hentries.supplied_eq_some_iff.2 hitem)
    · exact hconverted.absent i hi (hentries.supplied_eq_none_iff.2 habsent)

/-- The table that the first pass starts from has nothing in it. -/
theorem join_replicate_none (n i : Nat) :
    (List.replicate n (none : Option Ref))[i]?.join = none := by
  rw [List.getElem?_replicate]
  split <;> rfl

/-- The first pass is refused at the first entry that has no position of its
own, and leaves a table of the named values otherwise. -/
theorem placeEntries_cases (given : Nat) (entries : KeywordEntries)
    (hcount : names.length = format.length) :
    (∃ e, FirstEntryRefused names given entries e ∧
        placeEntries names given entries (List.replicate format.length none) = .error e) ∨
      (Resolved names given entries ∧ ∃ placed,
        placeEntries names given entries (List.replicate format.length none) = .ok placed ∧
        ∀ i : Nat, placed[i]?.join = namedArgument names entries i) := by
  have hlength : (List.replicate format.length (none : Option Ref)).length = names.length := by
    rw [List.length_replicate, hcount]
  have hempty : ∀ i : Nat, ((List.replicate format.length (none : Option Ref))[i]?.join).isSome ↔
      ∃ other ∈ ([] : KeywordEntries), Hits names i other := by
    intro i
    rw [join_replicate_none]
    exact iff_of_false nofun fun ⟨_, hmem, _⟩ => nomatch hmem
  rcases placeEntries_eq entries hlength resolved_nil hempty with
    hrefused | ⟨hentries, placed, hplaced⟩
  · exact .inl hrefused
  · obtain ⟨-, htable, -⟩ := placeEntries_ok hlength hplaced
    simp only [join_replicate_none, Option.none_or] at htable
    exact .inr ⟨hentries, placed, hplaced, htable⟩

/-- A tuple that fits goes on to the two passes. -/
theorem extractKeywordsUnder_eq (hcount : names.length = format.length)
    (hslots : Box.tupleSlots w args = .ok slots) (hread : source.read w = .ok entries)
    (hroom : slots.length ≤ format.length) :
    extractKeywordsUnder w format text names args source = (do
      let placed ← placeEntries names slots.length entries (List.replicate format.length none)
      convertPlaced w format (slots.length + entries.length) 0 format.codes names slots
        placed) := by
  rw [extractKeywordsUnder, if_neg (not_not.2 hcount), hslots, hread]
  show (if format.length < slots.length then _ else _) = _
  rw [if_neg (Nat.not_lt.2 hroom)]

/-- Under a format that was read, a call is refused for the first check that
fails, or it fits and gives the values. -/
theorem extractKeywordsUnder_cases (w : World) (args : Ref) (source : KeywordSource)
    (names : List String) (hformat : ExtractFormat.parse text = .ok format) :
    (∃ e, KeywordsRefused w args text names source e) ∨
      ∃ slots entries values, Box.tupleSlots w args = .ok slots ∧ source.read w = .ok entries ∧
        KeywordsFit w format names slots entries ∧
        extractKeywordsUnder w format text names args source = .ok values ∧
        KeywordValues w format names slots entries values := by
  -- the checks in the order in which they are made, each for what the ones before it let
  -- pass
  by_cases hcount : names.length = format.length
  · cases hslots : Box.tupleSlots w args with
    | error e => exact .inl ⟨e, .tuple hformat hcount hslots⟩
    | ok slots =>
      cases hread : source.read w with
      | error e => exact .inl ⟨e, .source hformat hcount hslots hread⟩
      | ok entries =>
        by_cases hroom : slots.length ≤ format.length
        · rw [extractKeywordsUnder_eq hcount hslots hread hroom]
          rcases placeEntries_cases slots.length entries hcount with
            ⟨e, hrefused, -⟩ | ⟨hentries, placed, hplaced, htable⟩
          · exact .inl ⟨e, .entry hformat hcount hslots hread hroom hrefused⟩
          · rcases convertPlaced_supplied (w := w) hcount hentries htable with
              ⟨e, hrefused, -⟩ | ⟨hpass, values, hvalues, hspec⟩
            · exact .inl ⟨e, .position hformat hcount hslots hread hroom hentries hrefused⟩
            · refine .inr ⟨slots, entries, values, rfl, rfl, ?_, ?_, hspec⟩
              · exact (keywordsFit_iff (required_le_length hformat) hcount hroom hentries).2 hpass
              · rw [hplaced]
                exact hvalues
        · exact .inl ⟨_, .arity hformat hcount hslots hread (Nat.not_le.1 hroom)⟩
  · exact .inl ⟨_, .count hformat hcount⟩

/-- The code is refused for that check. -/
theorem KeywordsRefused.extractKeywords (h : KeywordsRefused w args text names source e) :
    extractKeywords w args source text names = .error e := by
  rw [Argument.extractKeywords]
  cases h with
  | format h =>
    rw [h]
    rfl
  | count hformat h =>
    rw [hformat]
    show extractKeywordsUnder w _ text names args source = _
    rw [extractKeywordsUnder, if_pos h]
  | tuple hformat hcount h =>
    rw [hformat]
    show extractKeywordsUnder w _ text names args source = _
    rw [extractKeywordsUnder, if_neg (not_not.2 hcount), h]
    rfl
  | source hformat hcount hslots h =>
    rw [hformat]
    show extractKeywordsUnder w _ text names args source = _
    rw [extractKeywordsUnder, if_neg (not_not.2 hcount), hslots, h]
    rfl
  | arity hformat hcount hslots hread h =>
    rw [hformat]
    show extractKeywordsUnder w _ text names args source = _
    rw [extractKeywordsUnder, if_neg (not_not.2 hcount), hslots, hread]
    show (if _ then _ else _) = _
    rw [if_pos h]
  | @entry format slots entries e hformat hcount hslots hread hroom h =>
    rw [hformat]
    show extractKeywordsUnder w format text names args source = _
    rw [extractKeywordsUnder_eq hcount hslots hread hroom]
    rcases placeEntries_cases slots.length entries hcount with
      ⟨e', hrefused, herror⟩ | ⟨hentries, -⟩
    · rw [herror, hrefused.unique h]
      rfl
    · obtain ⟨before, entry, after, rfl, -, hrefused⟩ := h
      exact absurd hentries hrefused.not_resolved
  | @position format slots entries e hformat hcount hslots hread hroom hentries h =>
    rw [hformat]
    show extractKeywordsUnder w format text names args source = _
    rw [extractKeywordsUnder_eq hcount hslots hread hroom]
    -- all entries find a position, so it is the second pass that refuses
    have hfails := (firstFailure_eq_some_iff hentries hcount).2 h
    rcases placeEntries_cases slots.length entries hcount with
      ⟨e', ⟨before, entry, after, rfl, -, hrefused⟩, -⟩ | ⟨-, placed, hplaced, htable⟩
    · exact absurd hentries hrefused.not_resolved
    · rw [hplaced]
      show convertPlaced w format _ 0 format.codes names slots placed = _
      rcases convertPlaced_supplied (w := w) hcount hentries htable with
        ⟨e', hrefused, herror⟩ | ⟨hpass, -⟩
      · rw [(firstFailure_eq_some_iff hentries hcount).2 hrefused] at hfails
        rw [herror, Option.some.inj hfails]
      · obtain ⟨i, hi, hrefused, -⟩ := h
        exact absurd hrefused (hpass i hi e)

/-- A call that fits is refused for nothing. -/
theorem KeywordsFit.not_refused (hformat : ExtractFormat.parse text = .ok format)
    (hslots : Box.tupleSlots w args = .ok slots) (hread : source.read w = .ok entries)
    (h : KeywordsFit w format names slots entries) :
    ¬ KeywordsRefused w args text names source e := by
  intro hrefused
  -- each check is one that a fitting call passes
  cases hrefused with
  | format hrefused =>
    rw [hformat] at hrefused
    cases hrefused
  | count hformat' hcount =>
    rw [hformat] at hformat'
    cases hformat'
    exact hcount h.declared
  | tuple _ _ hrefused =>
    rw [hslots] at hrefused
    cases hrefused
  | source _ _ _ hrefused =>
    rw [hread] at hrefused
    cases hrefused
  | arity hformat' _ hslots' _ hroom =>
    rw [hformat] at hformat'
    rw [hslots] at hslots'
    cases hformat'
    cases hslots'
    exact Nat.not_lt.2 h.room hroom
  | entry _ _ hslots' hread' _ hrefused =>
    rw [hslots] at hslots'
    rw [hread] at hread'
    cases hslots'
    cases hread'
    obtain ⟨before, entry, after, rfl, -, hrefused⟩ := hrefused
    exact hrefused.not_resolved h.resolved
  | position hformat' _ hslots' hread' _ _ hrefused =>
    rw [hformat] at hformat'
    rw [hslots] at hslots'
    rw [hread] at hread'
    cases hformat'
    cases hslots'
    cases hread'
    obtain ⟨i, hi, hrefused, -⟩ := hrefused
    have hle := required_le_length hformat
    exact (keywordsFit_iff hle h.declared h.room h.resolved).1 h i hi e hrefused

/-- What becomes of a call: it is refused for the first check that fails, or
its arguments fit the format and every position has its value. -/
theorem extractKeywords_cases (w : World) (args : Ref) (source : KeywordSource) (text : String)
    (names : List String) :
    (∃ e, KeywordsRefused w args text names source e) ∨
      ∃ format slots entries values, ExtractFormat.parse text = .ok format ∧
        Box.tupleSlots w args = .ok slots ∧ source.read w = .ok entries ∧
        KeywordsFit w format names slots entries ∧
        extractKeywords w args source text names = .ok values ∧
        KeywordValues w format names slots entries values := by
  cases hformat : ExtractFormat.parse text with
  | error e => exact .inl ⟨e, .format hformat⟩
  | ok format =>
    rcases extractKeywordsUnder_cases w args source names hformat with
      hrefused | ⟨slots, entries, values, hslots, hread, hfit, hvalues, hspec⟩
    · exact .inl hrefused
    · refine .inr ⟨format, slots, entries, values, rfl, hslots, hread, hfit, ?_, hspec⟩
      rw [extractKeywords, hformat]
      exact hvalues

/-- A call is refused for the first check that fails, and for nothing else. -/
theorem extractKeywords_eq_error_iff :
    extractKeywords w args source text names = .error e ↔
      KeywordsRefused w args text names source e := by
  refine ⟨fun herror => ?_, KeywordsRefused.extractKeywords⟩
  rcases extractKeywords_cases w args source text names with
    ⟨e', hrefused⟩ | ⟨format, slots, entries, values, -, -, -, -, hvalues, -⟩
  · rw [hrefused.extractKeywords] at herror
    cases herror
    exact hrefused
  · rw [hvalues] at herror
    cases herror

/-- A call is accepted when its arguments fit the format, and every position
has its value then. -/
theorem extractKeywords_eq_ok_iff :
    extractKeywords w args source text names = .ok values ↔
      ∃ format slots entries, ExtractFormat.parse text = .ok format ∧
        Box.tupleSlots w args = .ok slots ∧ source.read w = .ok entries ∧
        KeywordsFit w format names slots entries ∧
        KeywordValues w format names slots entries values := by
  constructor
  · intro hok
    rcases extractKeywords_cases w args source text names with
      ⟨e, hrefused⟩ | ⟨format, slots, entries, values', hformat, hslots, hread, hfit,
        hvalues, hspec⟩
    · rw [hrefused.extractKeywords] at hok
      cases hok
    · rw [hvalues] at hok
      cases hok
      exact ⟨format, slots, entries, hformat, hslots, hread, hfit, hspec⟩
  · rintro ⟨format, slots, entries, hformat, hslots, hread, hfit, hspec⟩
    rcases extractKeywords_cases w args source text names with
      ⟨e, hrefused⟩ | ⟨format', slots', entries', values', hformat', hslots', hread', -, hvalues,
        hspec'⟩
    · exact absurd hrefused (hfit.not_refused hformat hslots hread)
    · rw [hformat] at hformat'
      rw [hslots] at hslots'
      rw [hread] at hread'
      cases hformat'
      cases hslots'
      cases hread'
      rw [hvalues, hspec'.unique hspec]

end ExtensionHost.Argument
