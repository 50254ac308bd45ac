import ExtensionHost.Proofs.Argument.RoundTrip
import ExtensionHost.Proofs.Upkeep.Withdrawal

/-!
# `ExtensionHost.Proofs.Argument.Assembly`: the value that a format describes

The items of a format share out the values among them in reading order, and a group
gives a tuple of what its members give. `Shows` says so of an item, its own values
and an object, one constructor for each kind of item. It also lists the objects that
were made on the way, since these are all that is new.

Building follows the same tree, but with one list of values that is handed on from
item to item, and it fills slots of a tuple that stands before its members. Three
things carry the induction (`assembled_buildItem`, `assembled_buildMembers`):

* The values that an item takes are a prefix of those that are left, as long as its
  codes, so it does not matter how many follow.
* What an item made is not touched by the items after it, since it stands behind
  everything the values refer to (`Ready.notMem`). So what was shown once is shown
  at the end (`Shows.adds`).
* A tuple is made before its members, so nothing is ever held by something younger
  than itself (`tiered_setTupleItem`).

When storage runs out in the middle the same induction gives `World.Refused`: what
was made up to there, and that it is released by the tuples around it.
-/

set_option autoImplicit false

namespace ExtensionHost

/-- What is read off an object is read off it after others were made. -/
theorem World.Adds.carries {w w' : World} {filled refs made : List Ref}
    (h : w.Adds filled refs made w') : w.Carries w' := ⟨h.grows.stays, h.text⟩

namespace Argument

open World Box

variable {w w' : World} {r s : Ref} {owned : Multiset Ref} {value : Native} {values : List Native}
  {filled refs made : List Ref} {base index length : Nat} {item : BuildItem}

/-! ### What stands for a value -/

/-- The type and the contents of the box of a native value, if it needs one: an absent
text and an object do not. -/
def boxOf? : Native → Option (TypeObject × Body)
  | .text none | .object _ => none
  | .text (some words) => some (.str, .text words.toUTF8.size)
  | .int v | .long v | .longLong v => some (.int, .integer v)
  | .double x => some (.float, .real x)
  | .float x => some (.float, .real x.widen)

/-- The object `r` stands for a native value, and `made` are the objects that were made
for that. -/
inductive Boxes (w : World) : Native → Ref → List Ref → Prop
  | absent : Boxes w (.text none) Ref.none []
  | object (r : Ref) : Boxes w (.object (some r)) r []
  | boxed {value : Native} {type : TypeObject} {body : Body} {home : Address} {r : Ref}
      (hbox : boxOf? value = some (type, body))
      (hobject : w.object? r = some (fresh type body home))
      (htext : ∀ words, value = .text (some words) → Contains w r words) : Boxes w value r [r]

mutual

/-- The object `r` is what an item describes when its codes stand for `values`, and
`made` are the objects that were made for that, in reading order. -/
inductive Shows (w : World) : BuildItem → List Native → Ref → List Ref → Prop
  | code {code : FormatCode} {value : Native} {r : Ref} {made : List Ref}
      (h : Boxes w value r made) : Shows w (.code code) [value] r made
  | group {items : List BuildItem} {values : List Native} {members : List Ref} {r : Ref}
      {home : Address} {made : List Ref}
      (hobject : w.object? r = some (fresh .tuple (.tuple items.length) home))
      (hslots : w.slots r = members.map some) (h : ShowsAll w items values members made) :
      Shows w (.group items) values r (r :: made)

/-- Each of the members is what its item describes. The items share out the values
among them in reading order. -/
inductive ShowsAll (w : World) : List BuildItem → List Native → List Ref → List Ref → Prop
  | nil : ShowsAll w [] [] [] []
  | cons {item : BuildItem} {items : List BuildItem} {own rest : List Native} {member : Ref}
      {members made more : List Ref} (h : Shows w item own member made)
      (hrest : ShowsAll w items rest members more) :
      ShowsAll w (item :: items) (own ++ rest) (member :: members) (made ++ more)

end

/-- What was made stays what it was made to be, while others are made. -/
theorem stays_fresh {type : TypeObject} {body : Body} {home : Address}
    (hobject : w.object? r = some (fresh type body home)) (hadds : w.Adds filled refs made w')
    (hr : r ∉ refs) : w'.object? r = some (fresh type body home) := by
  rw [hadds.stays r _ hobject, List.count_eq_zero.2 hr, raised_zero]

/-- A box still holds its value after objects were added elsewhere. -/
theorem Boxes.adds {own : List Ref} (h : Boxes w value r own) (hadds : w.Adds filled refs made w')
    (hrefs : ∀ s ∈ own, s ∉ refs) : Boxes w' value r own := by
  cases h with
  | absent => exact .absent
  | object => exact .object r
  | boxed hbox hobject htext =>
    exact .boxed hbox (stays_fresh hobject hadds (hrefs r (List.mem_singleton_self r)))
      fun words hwords => (htext words hwords).carries hadds.carries

mutual

/-- A value that is laid out in an object stays laid out when other objects are added
and other slots are filled. -/
theorem Shows.adds (hadds : w.Adds filled refs made w') :
    ∀ {item : BuildItem} {values : List Native} {r : Ref} {own : List Ref},
      Shows w item values r own → (∀ s ∈ own, s ∉ refs) → (∀ s ∈ own, s ∉ filled) →
        Shows w' item values r own
  | _, _, _, _, .code h, hrefs, _ => .code (h.adds hadds hrefs)
  | _, _, r, _, .group hobject hslots h, hrefs, hfilled => by
    refine .group (stays_fresh hobject hadds (hrefs r List.mem_cons_self)) ?_
      (ShowsAll.adds hadds h (fun s hs => hrefs s (List.mem_cons_of_mem r hs))
        fun s hs => hfilled s (List.mem_cons_of_mem r hs))
    rw [hadds.slots r _ hobject (hfilled r List.mem_cons_self), hslots]

/-- The same holds for the members of a group. -/
theorem ShowsAll.adds (hadds : w.Adds filled refs made w') :
    ∀ {items : List BuildItem} {values : List Native} {members own : List Ref},
      ShowsAll w items values members own → (∀ s ∈ own, s ∉ refs) → (∀ s ∈ own, s ∉ filled) →
        ShowsAll w' items values members own
  | _, _, _, _, .nil, _, _ => .nil
  | _, _, _, _, .cons h hrest, hrefs, hfilled =>
    .cons (h.adds hadds (fun s hs => hrefs s (List.mem_append_left _ hs))
        fun s hs => hfilled s (List.mem_append_left _ hs))
      (hrest.adds hadds (fun s hs => hrefs s (List.mem_append_right _ hs))
        fun s hs => hfilled s (List.mem_append_right _ hs))

end

/-! ### Boxes -/

variable {result : Except ApiError Ref}

/-- A new tuple has nothing in it yet and is the last object that was made. -/
theorem assembled_newTuple (h : w.Housed) (htiered : w.Tiered base)
    (hrun : (newTuple length).run w = .ok result w') :
    Assembled w [] [] base (Newborn w .tuple (.tuple length)) result w' := by
  rw [newTuple, newTupleOf] at hrun
  rcases newSized_eq .tuple length (.tuple length) with ⟨size, hsize, heq⟩ | ⟨-, heq⟩
  · rw [heq] at hrun
    cases hrun
    exact .refused (refused_large htiered (hsize (by decide)))
  · rw [heq] at hrun
    have hmakes : Makes .tuple (TypeObject.tuple.itemSize * length + TypeObject.tuple.basicSize)
        (.tuple length) :=
      MakesTuples.makes ⟨rfl, Nat.le_refl _, Nat.le_refl _⟩ length
    exact assembled_allocate h htiered hmakes hrun

/-- The bytes of a text are written into a block that nobody had. -/
theorem assembled_newText (h : w.Housed) (htiered : w.Tiered base) {text : String}
    (hrun : (newText text).run w = .ok result w') :
    Assembled w [] [] base (Newborn w .str (.text text.toUTF8.size)) result w' := by
  cases madeText_newTextOf hrun with
  | tooLarge hsize => exact .refused (refused_large htiered (hsize (by decide)))
  | refused hcalloc => exact .refused (refused_calloc h hcalloc htiered)
  | @made home m hcalloc =>
    obtain ⟨-, hhands, -⟩ := Memory.calloc_spec h.memory hcalloc
    have hdepart := Memory.sameDepartures_calloc w.memory 1
      (TypeObject.str.itemSize * text.toUTF8.size + TypeObject.str.basicSize)
    rw [hcalloc] at hdepart
    have hwritten := (Memory.Alike.refl m).modifyPayload home (·.write contentStart text.toUTF8)
    have hcontent := makesTexts_str.content_le text.toUTF8.size
    refine assembled_made h htiered (hhands.write (by omega))
      ((Memory.draws_calloc h.memory hcalloc).trans hwritten.draws) hdepart.departures
      (makesTexts_str.makes _ 0).blocks rfl fun slot hslot => ?_
    rw [slots_of_object? object?_made_self] at hslot
    cases hslot

/-- All is ready for the values that are left to be built: what they refer to was there at
the start, that is, stands in front of `base` in the table. -/
structure Ready (w : World) (owned : Multiset Ref) (base : Nat) (values : List Native) :
    Prop where
  sound : w.Sound owned
  tiered : w.Tiered base
  present : Present w values
  below : ∀ r ∈ referents values, r < base
  pointed : .object none ∉ values
  start : Ref.none < base

/-- What is ready for the values is ready for some of them. -/
theorem Ready.of_subset {rest : List Native} (h : Ready w owned base values)
    (hrest : rest ⊆ values) : Ready w owned base rest :=
  { h with
    present := h.present.of_subset hrest
    below := fun r hr => by
      obtain ⟨value, hvalue, hpointer⟩ := List.mem_filterMap.1 hr
      exact h.below r (List.mem_filterMap.2 ⟨value, hrest hvalue, hpointer⟩)
    pointed := fun hmem => h.pointed (hrest hmem) }

/-- Objects that are made on the way do not stand in the way of the values that are left. -/
theorem Ready.adds {owned' : Multiset Ref} (h : Ready w owned base values)
    (hadds : w.Adds filled refs made w') (hsound : w'.Sound owned') (htiered : w'.Tiered base) :
    Ready w' owned' base values :=
  ⟨hsound, htiered, h.present.grows hadds.grows, h.below, h.pointed, h.start⟩

/-- What was made is none of what the values refer to. -/
theorem Ready.notMem (h : Ready w owned base values) (hadds : w.Adds filled refs made w')
    (hs : s ∈ referents values) : s ∉ made := by
  intro hmem
  have halive := h.present s hs
  rw [hadds.fresh hmem] at halive
  cases halive

/-- A value is boxed, or there is an object for it already. -/
theorem assembled_boxNative (h : Ready w owned base [value])
    (hrun : (boxNative value).run w = .ok result w') : Assembled w [] (referents [value]) base
      (fun r made w' => Boxes w' value r made ∧ (r < base ∨ w.objects.size ≤ r)) result w' := by
  -- all values that need a box get one in the same way
  have hboxed : ∀ type body, boxOf? value = some (type, body) → referents [value] = [] →
      Assembled w [] [] base (Newborn w type body) result w' →
      (∀ r, result = .ok r → ∀ words, value = .text (some words) → Contains w' r words) →
      Assembled w [] (referents [value]) base
        (fun r made w' => Boxes w' value r made ∧ (r < base ∨ w.objects.size ≤ r)) result w' := by
    intro type body hbox hrefs hnew htext
    rw [hrefs]
    cases hnew with
    | refused hrefused => exact .refused hrefused
    | made adds tiered what =>
      obtain ⟨rfl, hlast, ⟨home, hobject⟩, -⟩ := what
      exact .made adds tiered ⟨.boxed hbox hobject (htext _ rfl), .inr (Nat.le_of_eq hlast.symm)⟩
  cases value with
  | text pointer =>
    cases pointer with
    | none =>
      have hsame : w.retain Ref.none = w := retain_first h.sound.housed (by decide)
      have hnone : (boxNative (.text none)).run w = .ok (.ok Ref.none) (w.retain Ref.none) := rfl
      rw [hnone, hsame] at hrun
      cases hrun
      exact .made (.refl w []) h.tiered ⟨.absent, .inl h.start⟩
    | some words =>
      refine hboxed _ _ rfl rfl (assembled_newText h.sound.housed h.tiered hrun) ?_
      rintro r rfl other ⟨⟩
      exact contains_newTextOf makesTexts_str rfl h.sound.housed.memory hrun
  | int v | long v | longLong v =>
    exact hboxed _ _ rfl rfl
      (assembled_allocate h.sound.housed h.tiered (makes_of_bare nofun nofun nofun) hrun) nofun
  | double x | float x =>
    exact hboxed _ _ rfl rfl
      (assembled_allocate h.sound.housed h.tiered (makes_of_bare nofun nofun nofun) hrun) nofun
  | object pointer =>
    cases pointer with
    | none => exact absurd (List.mem_singleton_self _) h.pointed
    | some r =>
      cases hrun
      have hadds := adds_retain w r []
      refine .made hadds ?_ ⟨.object r, .inl (h.below r (List.mem_singleton_self r))⟩
      exact h.tiered.adds hadds fun t ht => by
        rcases ht with ht | ht <;> cases ht

/-! ### Members -/

/-- Filling a slot that was empty adds nothing but what is in the slot. -/
theorem adds_setTupleItem {member : Ref} (h : w.Housed) (hvacant : Vacant w r index length)
    (hindex : index < length) (hrun : (setTupleItem r index member).run w = .ok (.ok ()) w') :
    w.Adds [r] [] [] w' := by
  have hcarries := carries_setTupleItem h hvacant hindex hrun
  obtain ⟨object, block, hobject, -, hhome, rfl⟩ := written_of_setTupleItem h hvacant hindex hrun
  exact {
    stays := fun s other hs => by
      rw [List.count_nil, raised_zero]
      exact hs
    absent := fun _ hs _ => hs
    slots := fun s _ _ hs => slots_written_of_ne h hobject (Object.mem_blocks.2 (.inr hhome))
      (fun heq => hs (List.mem_singleton.2 heq)) _
    text := hcarries.text
    size := rfl
    order := rfl
    single := nofun
    draws := ((Memory.Alike.refl _).modifyPayload block _).draws
    departures := rfl }

/-- A tuple may get members that were made after it, or were there from the start. -/
theorem tiered_setTupleItem {member : Ref} (htiered : w.Tiered base) (hadds : w.Adds [r] [] [] w')
    (hslots : w'.slots r = (w.slots r).set index (some member))
    (hmember : base ≤ member → r < member) : w'.Tiered base := by
  refine htiered.adds hadds fun t ht s hs hle => ?_
  obtain rfl : t = r := List.mem_singleton.1 (ht.resolve_right List.not_mem_nil)
  have hslot := mem_contents.1 hs
  rw [hslots] at hslot
  rcases List.mem_or_eq_of_mem_set hslot with hslot | heq
  · exact htiered t s (mem_contents.2 hslot) hle
  · cases heq
    exact hmember hle

/-- What is left when an item was built and put into its slot. -/
structure Seated (w : World) (r : Ref) (index length : Nat) (refs made : List Ref) (base : Nat)
    (owned : Multiset Ref) (w₁ : World) (member : Ref) (w' : World) : Prop where
  sound : w'.Sound (r ::ₘ owned)
  adds : w.Adds [r] refs made w'
  filled : w₁.Adds [r] [] [] w'
  tiered : w'.Tiered base
  vacant : Vacant w' r (index + 1) length
  slots : w'.slots r = (w.slots r).set index (some member)

/-- The item is put into the first of the empty slots. -/
theorem seated_setTupleItem {w₁ : World} {member : Ref} (hvacant : Vacant w r index length)
    (hindex : index < length) (hadds : w.Adds [] refs made w₁) (htiered : w₁.Tiered base)
    (hplace : member < base ∨ w.objects.size ≤ member) (h₁ : w₁.Sound (member ::ₘ r ::ₘ owned)) :
    ∃ w', (setTupleItem r index member).run w₁ = .ok (.ok ()) w' ∧
      Seated w r index length refs made base owned w₁ member w' := by
  obtain ⟨object, htuple⟩ := hvacant.tuple
  have hobject := (tupleObject_eq_ok.1 htuple).1
  have hslots₁ := hadds.slots r object hobject List.not_mem_nil
  have hvacant₁ := hvacant.grows hadds.grows
  obtain ⟨w', hrun, hsound, -, hvacant', hslots⟩ := hvacant₁.setTupleItem hindex h₁
  have hfilled := adds_setTupleItem h₁.housed hvacant₁ hindex hrun
  have htiered' := tiered_setTupleItem htiered hfilled hslots fun hle =>
    Nat.lt_of_lt_of_le (lt_size_of_object? hobject) (hplace.resolve_left (Nat.not_lt.2 hle))
  have hboth := (hadds.mono (List.nil_subset [r])).trans hfilled
    (fun s hs => absurd hs List.not_mem_nil) fun s hs => .inl hs
  rw [List.append_nil, List.append_nil] at hboth
  exact ⟨w', hrun, hsound, hboth, hfilled, htiered', hvacant', by rw [hslots, hslots₁]⟩

/-- What an item gives: the values that are not its own are left, and it is what its own
describe. -/
structure Item (w : World) (base : Nat) (item : BuildItem) (own rest : List Native)
    (found : Ref × List Native) (made : List Ref) (w' : World) : Prop where
  rest : found.2 = rest
  shows : Shows w' item own found.1 made
  place : found.1 < base ∨ w.objects.size ≤ found.1

/-- What items give when they are put into a tuple: the slots in front are as they were,
and the members follow. -/
structure Items (w : World) (r : Ref) (index : Nat) (items : List BuildItem)
    (own rest left : List Native) (made : List Ref) (w' : World) : Prop where
  rest : left = rest
  members : ∃ members, w'.slots r = (w.slots r).take index ++ members.map some ∧
    ShowsAll w' items own members made

/-- One more member in front of the others. -/
theorem Items.cons {w₁ w₂ : World} {items : List BuildItem} {own own' rest left : List Native}
    {member : Ref} {refs' more : List Ref} (h : Items w₂ r (index + 1) items own' rest left more w')
    (hvacant : Vacant w r index length) (hindex : index < length) (hadds₁ : w.Adds [] refs made w₁)
    (hseated : Seated w r index length refs made base owned w₁ member w₂)
    (hadds : w₂.Adds [r] refs' more w') (hrefs : ∀ s ∈ refs', s ∉ made)
    (hshows : Shows w₁ item own member made) :
    Items w r index (item :: items) (own ++ own') rest left (made ++ more) w' := by
  obtain ⟨hleft, members, hslots, hrest⟩ := h
  obtain ⟨object, htuple⟩ := hvacant.tuple
  have hr : ∀ s ∈ made, s ∉ [r] := fun s hs hmem => by
    have hfresh := hadds₁.fresh hs
    rw [List.mem_singleton.1 hmem, (tupleObject_eq_ok.1 htuple).1] at hfresh
    cases hfresh
  have hshows' := (hshows.adds hseated.filled (fun s _ => List.not_mem_nil) hr).adds hadds
    (fun s hs hmem => hrefs s hmem hs) hr
  refine ⟨hleft, member :: members, ?_, .cons hshows' hrest⟩
  -- the slot that was filled is the last of those in front of the others
  have hlt : index < (w.slots r).length := by
    rw [(length_of_tuple htuple).1]
    exact hindex
  rw [hslots, hseated.slots, List.take_add_one, List.take_set_of_le (Nat.le_refl index),
    List.getElem?_set_self hlt, List.append_assoc]
  rfl

mutual

/-- By induction on the item. The values that it takes are as many as it has codes, and
stand in front of those that are left to others. -/
theorem assembled_buildItem : (item : BuildItem) → (own rest : List Native) →
    own.length = item.codes.length → {w w' : World} → {owned : Multiset Ref} → {base : Nat} →
    Ready w owned base (own ++ rest) → {result : Except ApiError (Ref × List Native)} →
    (buildItem item (own ++ rest)).run w = .ok result w' →
    Assembled w [] (referents own) base (Item w base item own rest) result w'
  | .code code, own, rest, hlength, w, w', owned, base, hready, result, hrun => by
    obtain ⟨value, rfl⟩ := List.length_eq_one_iff.1 hlength
    have hready₁ : Ready w owned base [value] := hready.of_subset (List.subset_append_left _ _)
    obtain ⟨boxed, w₁, hbox, -⟩ := gives_boxNative value w owned hready.sound hready₁.present
    have hassembled := assembled_boxNative hready₁ hbox
    rw [buildItem, List.singleton_append, buildCode] at hrun
    cases hassembled with
    | refused hrefused =>
      rw [Attempt.run_bind_error hbox] at hrun
      cases hrun
      exact .refused hrefused
    | made adds tiered what =>
      rw [Attempt.run_bind_ok hbox] at hrun
      cases hrun
      exact .made adds tiered ⟨rfl, .code what.1, what.2⟩
  | .group items, own, rest, hlength, w, w', owned, base, hready, result, hrun => by
    obtain ⟨tuple, w₁, hrun₁, hsound₁, -, hmade⟩ :=
      creates_newTuple items.length w owned hready.sound
    rw [buildItem] at hrun
    cases assembled_newTuple hready.sound.housed hready.tiered hrun₁ with
    | refused hrefused =>
      rw [Attempt.run_bind_error hrun₁] at hrun
      cases hrun
      exact .refused (hrefused.mono (List.Subset.refl _) (List.nil_sublist _))
    | @made r made _ adds tiered what =>
      obtain ⟨rfl, hlast, ⟨home, hobject⟩, hempty⟩ := what
      rw [gained_ok] at hsound₁
      have hvacant := vacant_of_empty hobject rfl rfl hempty
      have hready₁ := hready.adds adds hsound₁ tiered
      obtain ⟨placed, w₂, hrun₂, hplaced⟩ := buildMembers_spec items r 0 items.length (own ++ rest)
        w₁ owned hsound₁ hvacant (by omega) hready₁.present
      have hmembers := assembled_buildMembers items own rest hlength r 0 items.length hready₁
        hvacant (Nat.zero_add _) hrun₂
      -- the tuple is new, so no value refers to it and it may be filled
      have hrefs : ∀ s ∈ referents own, s ∉ [r] := fun s =>
        (hready.of_subset (List.subset_append_left own rest)).notMem adds
      have hfilled : ∀ s ∈ [r], s ∈ ([] : List Ref) ∨ w.object? s = none := fun s hs =>
        .inr (adds.fresh hs)
      rw [Attempt.run_bind_ok hrun₁] at hrun
      cases hmembers with
      | refused hrefused =>
        obtain ⟨w₃, hrelease, -, hrefused'⟩ :=
          (hrefused.after adds hrefs hfilled).release hready.sound
            (fun s hs => absurd hs List.not_mem_nil) hplaced.sound
        rw [Attempt.run_consuming_error (Attempt.run_bind_error hrun₂ _) hrelease] at hrun
        cases hrun
        exact .refused hrefused'
      | @made left made _ adds₂ tiered₂ what₂ =>
        rw [Attempt.run_consuming_ok (Attempt.run_bind_ok hrun₂ _)] at hrun
        cases hrun
        obtain ⟨hleft, members, hslots, hshows⟩ := what₂
        have hstays := stays_fresh hobject adds₂ fun hmem =>
          hrefs r hmem (List.mem_singleton_self r)
        exact .made (adds.trans adds₂ hrefs hfilled) tiered₂
          ⟨hleft, .group hstays hslots hshows, .inr (Nat.le_of_eq hlast.symm)⟩

/-- By induction on the items. -/
theorem assembled_buildMembers : (items : List BuildItem) → (own rest : List Native) →
    own.length = (BuildItem.codesOfList items).length → (r : Ref) → (index length : Nat) →
    {w w' : World} → {owned : Multiset Ref} → {base : Nat} →
    Ready w (r ::ₘ owned) base (own ++ rest) → Vacant w r index length →
    index + items.length = length → {result : Except ApiError (List Native)} →
    (buildMembers r index items (own ++ rest)).run w = .ok result w' →
    Assembled w [r] (referents own) base (Items w r index items own rest) result w'
  | [], own, rest, hlength, r, index, length, w, w', owned, base, hready, hvacant, hroom, result,
    hrun => by
    obtain rfl := List.eq_nil_of_length_eq_zero hlength
    rw [buildMembers] at hrun
    cases hrun
    obtain ⟨object, htuple⟩ := hvacant.tuple
    have hslots : (w.slots r).length = index := (length_of_tuple htuple).1.trans hroom.symm
    refine .made (.refl w [r]) hready.tiered ⟨rfl, [], ?_, .nil⟩
    rw [List.map_nil, List.append_nil, List.take_of_length_le hslots.le]
  | item :: items, own, rest, hlength, r, index, length, w, w', owned, base, hready, hvacant, hroom,
    result, hrun => by
    rw [List.length_cons] at hroom
    -- the item takes the first of the values, and the others take what follows
    rw [BuildItem.codesOfList, List.length_append] at hlength
    obtain ⟨own, own', rfl, hown, hown'⟩ : ∃ first others, own = first ++ others ∧
        first.length = item.codes.length ∧
        others.length = (BuildItem.codesOfList items).length := by
      refine ⟨own.take item.codes.length, own.drop item.codes.length,
        (List.take_append_drop _ _).symm, ?_, ?_⟩
      · rw [List.length_take]
        omega
      · rw [List.length_drop]
        omega
    rw [List.append_assoc] at hready hrun
    obtain ⟨built, w₁, hrun₁, hbuilt⟩ :=
      buildItem_spec item (own ++ (own' ++ rest)) w (r ::ₘ owned) hready.sound hready.present
    rw [buildMembers] at hrun
    rw [referents, List.filterMap_append]
    cases assembled_buildItem item own (own' ++ rest) hown hready hrun₁ with
    | refused hrefused =>
      rw [Attempt.run_bind_error hrun₁] at hrun
      cases hrun
      exact .refused (hrefused.mono (List.nil_subset _) (List.sublist_append_left _ _))
    | @made found made _ adds tiered what =>
      obtain ⟨member, _⟩ := found
      obtain ⟨rfl, hshows, hplace⟩ := what
      obtain ⟨w₂, hrun₂, hseated⟩ :=
        seated_setTupleItem hvacant (by omega) adds tiered hplace hbuilt.sound
      rw [Attempt.run_bind_ok hrun₁, Attempt.run_bind_ok hrun₂] at hrun
      have hready₁ := hready.of_subset (List.subset_append_right own (own' ++ rest))
      have hmembers := assembled_buildMembers items own' rest hown' r (index + 1) length
        (hready₁.adds hseated.adds hseated.sound hseated.tiered) hseated.vacant (by omega) hrun
      -- what the other values refer to is none of what was made for this one
      have hrefs : ∀ s ∈ referents own', s ∉ made := fun s =>
        (hready₁.of_subset (List.subset_append_left own' rest)).notMem adds
      cases hmembers with
      | refused hrefused => exact .refused (hrefused.after hseated.adds hrefs fun s hs => .inl hs)
      | made adds₃ tiered₃ what₃ =>
        exact .made (hseated.adds.trans adds₃ hrefs fun s hs => .inl hs) tiered₃
          (what₃.cons hvacant (by omega) adds hseated adds₃ hrefs hshows)

end

end Argument

end ExtensionHost
