import ExtensionHost.Proofs.Argument.Build
import ExtensionHost.Proofs.Argument.Parsing
import ExtensionHost.Proofs.Box.Reading
import ExtensionHost.Proofs.Format.Spelling

/-!
# `ExtensionHost.Proofs.Argument.RoundTrip`: what is put together is taken apart again

A value is boxed and put into a slot while the tuple is built, and it has to be
read off its box when the tuple is taken apart, after all the others were boxed
and put into theirs. So there are two parts. A value that was just boxed reads as
itself under its own code (`reads_boxNative`). And it does so as long as its object
stays and no text is written to, which is what `World.Carries` says of the worlds
before and after the rest of the tuple is built: no object goes, since every slot
that is filled was empty (`members_buildMembers`).

The formats of the two sides are read by different readers. The texts that spell
the same codes for both are those of `Proofs.Format.Spelling`.
-/

set_option autoImplicit false

namespace ExtensionHost

open World Box

/-! ### Values that pass through boxes -/

/-- A value that a box can give back. An integer has to be one of its type, a text
has to be there and to have no NUL in it, and narrowing has to give back a single
that was widened. -/
def Native.Portable : Native → Prop
  | .text pointer => ∃ words, pointer = some words ∧ '\x00' ∉ words.toList
  | .int v => NativeInt.int.holds v
  | .long v => NativeInt.long.holds v
  | .longLong v => NativeInt.longLong.holds v
  | .double _ => True
  | .float x => x.widen.narrow = x
  | .object _ => True

namespace Argument

variable {w w' : World} {r s : Ref} {owned : Multiset Ref} {value : Native} {values : List Native}
  {index length : Nat}

/-- The object reads as the value under the value's own code. -/
def Reads (w : World) (value : Native) (s : Ref) : Prop :=
  Native.ofObject w value.code s = .ok value

/-- What is read off an object is read off it later. -/
theorem Reads.carries (hreads : Reads w value s) (h : w.Carries w') : Reads w' value s := by
  unfold Reads at *
  cases value with
  | text pointer =>
    obtain ⟨words, hwords, hvalue⟩ := except_map_eq_ok.1 hreads
    exact except_map_eq_ok.2 ⟨words, terminatedText_carries h hwords, hvalue⟩
  | int v | long v | longLong v =>
    obtain ⟨found, hfound, hvalue⟩ := except_map_eq_ok.1 hreads
    exact except_map_eq_ok.2 ⟨found, native_carries h hfound, hvalue⟩
  | double x | float x =>
    obtain ⟨found, hfound, hvalue⟩ := except_map_eq_ok.1 hreads
    exact except_map_eq_ok.2 ⟨found, real_carries h hfound, hvalue⟩
  | object pointer => exact hreads

/-- An integer that was boxed converts to every type that it is a value of. -/
theorem carries_newInteger {target : NativeInt} {v : Int} (h : w.Housed)
    (hholds : target.holds v) (hrun : (newInteger v).run w = .ok (.ok s) w') :
    w.Carries w' ∧ native w' s target = .ok v := by
  obtain ⟨hcarries, home, hobject⟩ := carries_allocate h hrun
  have hinteger : integer w' s = .ok v := integer_eq_ok.2 ⟨_, hobject, rfl, rfl⟩
  refine ⟨hcarries, ?_⟩
  simp only [native, hinteger, NativeInt.convert?, if_pos hholds]

/-- A new real number is read back, and all else is as it was. -/
theorem carries_newReal {x : Double} (h : w.Housed)
    (hrun : (newReal x).run w = .ok (.ok s) w') : w.Carries w' ∧ real w' s = .ok x := by
  obtain ⟨hcarries, home, hobject⟩ := carries_allocate h hrun
  exact ⟨hcarries, real_eq_ok.2 ⟨_, hobject, .inl ⟨rfl, rfl⟩⟩⟩

/-- A value that was boxed is read off its box again. -/
theorem reads_boxNative (hportable : value.Portable) (h : w.Housed)
    (hrun : (boxNative value).run w = .ok (.ok s) w') : w.Carries w' ∧ Reads w' value s := by
  unfold Reads
  cases value with
  | text pointer =>
    obtain ⟨words, rfl, hwords⟩ := hportable
    have hcontains := contains_newTextOf makesTexts_str rfl h.memory hrun
    exact ⟨carries_newTextOf h hrun,
      except_map_eq_ok.2 ⟨words, hcontains.terminatedText hwords, rfl⟩⟩
  | int v | long v | longLong v =>
    obtain ⟨hcarries, hread⟩ := carries_newInteger h hportable hrun
    exact ⟨hcarries, except_map_eq_ok.2 ⟨v, hread, rfl⟩⟩
  | double x =>
    obtain ⟨hcarries, hread⟩ := carries_newReal h hrun
    exact ⟨hcarries, except_map_eq_ok.2 ⟨x, hread, rfl⟩⟩
  | float x =>
    obtain ⟨hcarries, hread⟩ := carries_newReal h hrun
    refine ⟨hcarries, except_map_eq_ok.2 ⟨x.widen, hread, ?_⟩⟩
    -- a single float is kept as a double, which narrows to it again
    rw [show x.widen.narrow = x from hportable]
  | object pointer =>
    cases pointer with
    | none => cases hrun
    | some r =>
      cases hrun
      exact ⟨carries_retain w _, rfl⟩

/-! ### Tuples that hold the values -/

/-- Filling a slot that was empty writes one word. Nobody is in the slot, so nobody is
released. -/
theorem written_of_setTupleItem {member : Ref} (h : w.Housed) (hvacant : Vacant w r index length)
    (hindex : index < length) (hrun : (setTupleItem r index member).run w = .ok (.ok ()) w') :
    ∃ object block, w.object? r = some object ∧ object.body = .tuple length ∧
      object.home = some block ∧
      w' = w.written block (·.setWord (contentStart + slotSize * index) (some member)) := by
  obtain ⟨object, htuple⟩ := hvacant.tuple
  obtain ⟨hobject, -, hbody⟩ := tupleObject_eq_ok.1 htuple
  have hle := h.le_of_tuple hobject hbody
  obtain ⟨block, hhome⟩ := Option.isSome_iff_exists.1 (h.fits r object hobject hle).home
  have hword : (w.memory.process.payload block).word? (contentStart + slotSize * index) = none := by
    have hempty := hvacant.empty index (Nat.le_refl _) hindex
    rw [slots_of_object? hobject, slotsOf, (slotsAt_tuple hbody hhome).table, List.getElem?_map,
      List.getElem?_range hindex] at hempty
    exact Option.some.inj hempty
  have hread : (Attempt.consuming member (Attempt.read (tupleObject · r))).run w =
      .ok (.ok (object, length)) w :=
    Attempt.run_consuming_ok (by rw [Attempt.run_read, htuple])
  rw [setTupleItem, Attempt.run_bind_ok hread] at hrun
  simp only [if_pos hindex, hhome, Attempt.run_lift, run_fillSlot, hword] at hrun
  cases hrun
  exact ⟨object, block, hobject, hbody, hhome, rfl⟩

/-- Filling a slot that was empty leaves what is in other objects. -/
theorem carries_setTupleItem {member : Ref} (h : w.Housed) (hvacant : Vacant w r index length)
    (hindex : index < length)
    (hrun : (setTupleItem r index member).run w = .ok (.ok ()) w') : w.Carries w' := by
  obtain ⟨object, block, hobject, hbody, hhome, rfl⟩ :=
    written_of_setTupleItem h hvacant hindex hrun
  refine carries_written h hobject (Object.mem_blocks.2 (.inr hhome)) (fun _ htext => ?_) _
  rw [hbody] at htext
  cases htext

/-- What putting one value into a tuple leaves: its box stands in the slot and reads
as the value. -/
structure Put (w : World) (r : Ref) (index length : Nat) (value : Native) (owned : Multiset Ref)
    (member : Ref) (w' : World) : Prop where
  sound : w'.Sound (r ::ₘ owned)
  grows : w.Grows [r] w'
  vacant : Vacant w' r (index + 1) length
  carries : w.Carries w'
  reads : Reads w' value member
  slots : w'.slots r = (w.slots r).set index (some member)

/-- The first value is boxed and put into the first of the empty slots, and then the
others follow. -/
theorem put_of_buildMembers (h : w.Sound (r ::ₘ owned)) (hportable : value.Portable)
    (hpresent : Present w [value]) (hvacant : Vacant w r index length) (hindex : index < length)
    {code : FormatCode} {items : List BuildItem} {rest : List Native}
    (hrun : (buildMembers r index (.code code :: items) (value :: values)).run w =
      .ok (.ok rest) w') :
    ∃ member w₁, Put w r index length value owned member w₁ ∧
      (buildMembers r (index + 1) items values).run w₁ = .ok (.ok rest) w' := by
  rw [buildMembers, buildItem, buildCode] at hrun
  obtain ⟨⟨member, left⟩, w₁, hbuilt, hrun⟩ := Attempt.run_bind_eq_ok.1 hrun
  obtain ⟨_, _, hbox, hbuilt⟩ := Attempt.run_bind_eq_ok.1 hbuilt
  cases hbuilt
  obtain ⟨_, w₂, hset, hrun⟩ := Attempt.run_bind_eq_ok.1 hrun
  -- the value is boxed, and what was empty stays empty
  obtain ⟨result, _, hbox', hsound₁, hgrows₁⟩ := gives_boxNative value w (r ::ₘ owned) h hpresent
  rw [hbox] at hbox'
  cases hbox'
  rw [gained_ok] at hsound₁
  obtain ⟨hcarries₁, hreads⟩ := reads_boxNative hportable h.housed hbox
  have hvacant₁ := hvacant.grows hgrows₁
  -- the box is put into its slot, which changes this slot alone
  obtain ⟨_, hset', hsound₂, hgrows₂, hvacant₂, hslots₂⟩ := hvacant₁.setTupleItem hindex hsound₁
  rw [hset] at hset'
  cases hset'
  have hcarries₂ := carries_setTupleItem hsound₁.housed hvacant₁ hindex hset
  obtain ⟨object, htuple⟩ := hvacant.tuple
  have hslots₁ := hgrows₁.slots r object (tupleObject_eq_ok.1 htuple).1 List.not_mem_nil
  refine ⟨member, w₂, ⟨hsound₂, (hgrows₁.mono (List.nil_subset _)).trans hgrows₂, hvacant₂,
    hcarries₁.trans hcarries₂, hreads.carries hcarries₂, ?_⟩, hrun⟩
  rw [hslots₂, hslots₁]

/-- What building members leaves: the slots in front are as they were, and the
members behind them read as the values. -/
structure Members (w : World) (r : Ref) (index : Nat) (values : List Native) (w' : World) :
    Prop where
  tuple : IsTuple w' r (index + values.length)
  carries : w.Carries w'
  slots : ∃ members : List Ref, w'.slots r = (w.slots r).take index ++ members.map some ∧
    List.Forall₂ (Reads w') values members

/-- The members of a group of plain codes are put into the slots in order, each with its
own value. -/
theorem members_buildMembers (h : w.Sound (r ::ₘ owned))
    (hportable : ∀ value ∈ values, value.Portable) (hpresent : Present w values)
    (hvacant : Vacant w r index (index + values.length)) {rest : List Native}
    (hrun : (buildMembers r index ((values.map Native.code).map .code) values).run w =
      .ok (.ok rest) w') : Members w r index values w' := by
  -- the values before `index` are in their slots already, so the world and `index` vary
  induction values generalizing w index with
  | nil =>
    rw [List.map_nil, List.map_nil, buildMembers] at hrun
    cases hrun
    obtain ⟨object, htuple⟩ := hvacant.tuple
    have hlength : (w'.slots r).length = index := (length_of_tuple htuple).1
    refine ⟨hvacant.tuple, .refl w', [], ?_, .nil⟩
    rw [List.map_nil, List.append_nil, List.take_of_length_le hlength.le]
  | cons value values ih =>
    have hroom : index + (value :: values).length = index + 1 + values.length := by
      rw [List.length_cons, Nat.add_left_comm, Nat.add_comm, Nat.add_right_comm]
    rw [hroom] at hvacant
    have hportable₁ : ∀ other ∈ values, other.Portable := fun other hother =>
      hportable other (List.mem_cons_of_mem value hother)
    have hpresent₁ : Present w [value] :=
      hpresent.of_subset (List.cons_subset_cons value (List.nil_subset values))
    obtain ⟨member, w₁, hput, hrest⟩ := put_of_buildMembers h
      (hportable value (List.mem_cons_self ..)) hpresent₁ hvacant (by omega) hrun
    obtain ⟨htuple, hcarries, members, hslots, hreads⟩ := ih hput.sound hportable₁
      ((hpresent.of_subset (List.subset_cons_self value values)).grows hput.grows) hput.vacant hrest
    refine ⟨hroom ▸ htuple, hput.carries.trans hcarries, member :: members, ?_,
      .cons (hput.reads.carries hcarries) hreads⟩
    -- the slot that was filled is the last of those in front of the others
    obtain ⟨object, hobject⟩ := hvacant.tuple
    have hindex : index < (w.slots r).length := by
      rw [(length_of_tuple hobject).1]
      omega
    rw [hslots, hput.slots, List.take_add_one, List.take_set_of_le (Nat.le_refl index),
      List.getElem?_set_self hindex, List.append_assoc]
    rfl

/-- A tuple of what was built holds the values. -/
theorem members_group (h : w.Sound owned) (hportable : ∀ value ∈ values, value.Portable)
    (hpresent : Present w values) {rest : List Native}
    (hrun : (buildItem (.group ((values.map Native.code).map .code)) values).run w =
      .ok (.ok (r, rest)) w') :
    IsTuple w' r values.length ∧ ∃ members : List Ref, w'.slots r = members.map some ∧
      List.Forall₂ (Reads w') values members := by
  rw [buildItem, List.length_map, List.length_map] at hrun
  obtain ⟨made, w₁, hmake, hrun⟩ := Attempt.run_bind_eq_ok.1 hrun
  obtain ⟨left, w₂, hbuild, hrun⟩ := Attempt.run_bind_eq_ok.1 (Attempt.run_of_consuming hrun)
  cases hrun
  obtain ⟨result, _, hmake', hsound₁, hgrows₁, hmade⟩ := creates_newTuple values.length w owned h
  rw [hmake] at hmake'
  cases hmake'
  obtain ⟨-, ⟨home, hobject⟩, hempty⟩ := hmade r rfl
  -- no slot of the new tuple is filled yet
  have hvacant := vacant_of_empty hobject rfl rfl hempty
  rw [← Nat.zero_add values.length] at hvacant
  obtain ⟨htuple, -, members, hslots, hreads⟩ :=
    members_buildMembers hsound₁ hportable (hpresent.grows hgrows₁) hvacant hbuild
  rw [Nat.zero_add] at htuple
  exact ⟨htuple, members, hslots, hreads⟩

/-! ### Taking the tuple apart -/

/-- Slots that read as values convert to them. -/
theorem convertSlots_of_reads {members : List Ref} (hreads : List.Forall₂ (Reads w) values members)
    (position : Nat) : convertSlots w position (values.map Native.code) (members.map some) =
      .ok (values.map some) := by
  induction hreads generalizing position with
  | nil => rfl
  | cons hread _ ih =>
    rw [List.map_cons, List.map_cons, convertSlots_cons_some,
      show Native.ofObject w _ _ = _ from hread, ih]
    rfl

/-- A tuple of members that read as values is taken apart into these values, when
none of them may be missing and when the last of them may be. -/
theorem extractUnder_of_reads {members : List Ref} {format : ExtractFormat}
    (hcodes : format.codes = values.map Native.code) (hrequired : format.required ≤ values.length)
    (htuple : tupleSlots w r = .ok (members.map some))
    (hreads : List.Forall₂ (Reads w) values members) :
    extractUnder w format r = .ok (values.map some) := by
  have hlength : format.length = values.length := by
    rw [ExtractFormat.length, hcodes, List.length_map]
  have hcount : (members.map some).length = values.length := by
    rw [List.length_map, hreads.length_eq]
  rw [extractUnder_ok htuple, hlength, hcount, if_neg (by omega), hcodes,
    convertSlots_of_reads hreads]

/-- The tuple is the whole result whether the format has parentheses around the
codes or not; without them there have to be two codes or more. -/
theorem group_of_build {text : String} {codes : List FormatCode}
    (htext : text = "(" ++ FormatCode.letters codes ++ ")" ∨
      2 ≤ codes.length ∧ text = FormatCode.letters codes)
    (hrun : (build text values).run w = .ok (.ok r) w') :
    ∃ rest, (buildItem (.group (codes.map .code)) values).run w = .ok (.ok (r, rest)) w' := by
  rw [build] at hrun
  obtain ⟨format, _, hread, hchecked⟩ := Attempt.run_bind_eq_ok.1 hrun
  obtain ⟨hparse, rfl⟩ := Attempt.run_ofExcept_eq_ok.1 hread
  obtain ⟨_, start, hcheck, hbuilt⟩ := Attempt.run_bind_eq_ok.1 hchecked
  obtain ⟨-, rfl⟩ := Attempt.run_ofExcept_eq_ok.1 hcheck
  have hitem : ∀ item,
      (do return (← buildItem item values).1 : Attempt Ref).run start = .ok (.ok r) w' →
        ∃ rest, (buildItem item values).run start = .ok (.ok (r, rest)) w' := by
    intro item hrun
    obtain ⟨⟨found, rest⟩, _, hbuild, hrun⟩ := Attempt.run_bind_eq_ok.1 hrun
    cases hrun
    exact ⟨rest, hbuild⟩
  rcases htext with rfl | ⟨hcodes, rfl⟩
  · rw [BuildFormat.parse_parenthesized] at hparse
    cases hparse
    exact hitem _ hbuilt
  · rw [BuildFormat.parse_letters] at hparse
    cases hparse
    -- two codes or more are put into a tuple
    cases codes with
    | nil => cases hcodes
    | cons first rest =>
      cases rest with
      | nil => exact absurd hcodes (Nat.not_succ_le_self 1)
      | cons second more => exact hitem _ hbuilt

/-- Putting values together and taking the result apart again gives the values. The
format of the one may have parentheses around the codes, and that of the other a
mark among them and something behind them. -/
theorem extract_of_build (h : w.Sound owned) (hportable : ∀ value ∈ values, value.Portable)
    (hpresent : Present w values) {text : String}
    (htext : text = "(" ++ FormatCode.letters (values.map Native.code) ++ ")" ∨
      2 ≤ values.length ∧ text = FormatCode.letters (values.map Native.code))
    (hrun : (build text values).run w = .ok (.ok r) w') (mark : Option Nat)
    (suffix : ExtractFormat.Suffix) :
    extract w' r (ExtractFormat.marked (values.map Native.code) mark ++ suffix.print) =
      .ok (values.map some) := by
  have hcount : (values.map Native.code).length = values.length := List.length_map _
  rw [← hcount] at htext
  obtain ⟨rest, hgroup⟩ := group_of_build htext hrun
  obtain ⟨⟨object, htuple⟩, members, hslots, hreads⟩ := members_group h hportable hpresent hgroup
  have htaken : tupleSlots w' r = .ok (members.map some) := by
    rw [tupleSlots, htuple, ← hslots, slots_of_object? (tupleObject_eq_ok.1 htuple).1]
    rfl
  rw [extract, ExtractFormat.parse_marked]
  refine extractUnder_of_reads rfl ?_ htaken hreads
  cases mark <;> simp

/-- An integer at the end of its range, a text, and an object that is there for good. -/
def row : List Native := [.int (-0x80000000), .text (some "hi"), .object (some Ref.yes)]

/-- An integer, a text and an object are read back with a format that makes the last two
optional. -/
theorem extract_row : ∃ w', (build "(isO)" row).run (.new (.bounded 0x1000000) {}) =
    .ok (.ok 3) w' ∧ extract w' 3 "i|sO:row" = .ok (row.map some) := by
  have hportable : ∀ value ∈ row, value.Portable := by
    simp only [row, List.forall_mem_cons, List.not_mem_nil, false_imp_iff, implies_true, and_true]
    exact ⟨rfl, ⟨"hi", rfl, by decide⟩, trivial⟩
  have hpresent : Present (.new (.bounded 0x1000000) {}) row := by
    intro r hr
    rw [List.mem_singleton.1 hr]
    rfl
  exact ⟨_, rfl, extract_of_build (sound_new _ _) hportable hpresent (.inl rfl) rfl (some 1)
    (.name "row")⟩

end Argument

end ExtensionHost
