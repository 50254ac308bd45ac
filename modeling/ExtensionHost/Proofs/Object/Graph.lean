import ExtensionHost.Object.Create
import ExtensionHost.Proofs.Storage.Entry
import Mathlib.Algebra.BigOperators.Group.Finset.Basic

/-!
# `ExtensionHost.Proofs.Object.Graph`: which objects hold which

The slots of the live containers are the edges of a graph on objects. Every
edge is one reference, and so is every reference that the caller keeps. Two
invariants describe a world whose counts can be trusted:

* `World.Housed`: every object lies in blocks of its own that are in use, its
  routine goes with what it holds, and a list has the room that it says it has;
* `World.Counted`: every count is the number of references, and a reference
  leads to an object that is still there.

`Counted` takes the references as a multiset and does not ask where they are
kept. That is what makes it hold between the steps of an operation, when a
reference is on its way from the caller into a slot or back.
-/

set_option autoImplicit false

namespace ExtensionHost

namespace Object

/-- The buffer of a list. -/
def buffer (object : Object) : Option Address :=
  match object.body with
  | .list _ _ buffer => buffer
  | _ => none

/-- The blocks that an object has to itself. -/
def blocks (object : Object) : List Address := object.buffer.toList ++ object.home.toList

/-- The object lies in a block and may go, and when it goes its routine
releases what it holds. -/
structure Fits (object : Object) : Prop where
  home : object.home.isSome
  mayGo : object.type.routine ≠ .forbidden
  tuple : ∀ length, object.body = .tuple length → object.type.routine = .tuple
  list : ∀ length capacity buffer, object.body = .list length capacity buffer →
    object.type.routine = .list

/-- The buffer of a list has the capacity that the list records, and its
slots that are not in use are empty. -/
structure Roomy (object : Object) (p : Process) : Prop where
  bare : ∀ length capacity, object.body = .list length capacity none → length = 0 ∧ capacity = 0
  within : ∀ length capacity a, object.body = .list length capacity (some a) →
    length ≤ capacity ∧ World.slotSize * capacity ≤ (p.kind a).usable
  unused : ∀ length capacity a, object.body = .list length capacity (some a) →
    ∀ i, length ≤ i → i < capacity → (p.payload a).word? (World.slotSize * i) = none

/-- The blocks of an object are in use and have room for it. -/
structure HousedIn (object : Object) (p : Process) : Prop where
  live : ∀ a ∈ object.blocks, p.Live a
  nodup : object.blocks.Nodup
  roomy : object.Roomy p

variable {object : Object} {p p' : Process} {a : Address}

/-- Only lists have a buffer. -/
theorem buffer_eq_some : object.buffer = some a ↔
    ∃ length capacity, object.body = .list length capacity (some a) := by
  unfold buffer
  cases object.body <;> simp

/-- The blocks of an object are its buffer and its home. -/
theorem mem_blocks : a ∈ object.blocks ↔ object.buffer = some a ∨ object.home = some a := by
  simp only [blocks, List.mem_append, Option.mem_toList]

/-- Counting references leaves the blocks of an object. -/
@[simp] theorem blocks_count (object : Object) (count : Int) :
    blocks { object with count } = object.blocks := rfl

/-- Counting references leaves an object fitting its type. -/
theorem Fits.setCount (h : object.Fits) (count : Int) : Fits { object with count } :=
  ⟨h.home, h.mayGo, h.tuple, h.list⟩

/-- Only the blocks of an object matter for where it lies. -/
theorem HousedIn.congr (h : object.HousedIn p)
    (hsame : ∀ a ∈ object.blocks, p'.blocks[a]? = p.blocks[a]?) : object.HousedIn p' where
  live a ha := (Process.live_congr (hsame a ha)).2 (h.live a ha)
  nodup := h.nodup
  roomy := by
    refine ⟨h.roomy.bare, fun length capacity a hbody => ?_, fun length capacity a hbody i => ?_⟩
    · have ha : a ∈ object.blocks := mem_blocks.2 (.inl (buffer_eq_some.2 ⟨_, _, hbody⟩))
      rw [Process.kind_congr (hsame a ha)]
      exact h.roomy.within length capacity a hbody
    · have ha : a ∈ object.blocks := mem_blocks.2 (.inl (buffer_eq_some.2 ⟨_, _, hbody⟩))
      rw [Process.payload_congr (hsame a ha)]
      exact h.roomy.unused length capacity a hbody i

/-- Counting references leaves an object housed. -/
theorem HousedIn.setCount (h : object.HousedIn p) (count : Int) :
    HousedIn { object with count } p :=
  ⟨h.live, h.nodup, ⟨h.roomy.bare, h.roomy.within, h.roomy.unused⟩⟩

end Object

namespace World

variable {w w' : World} {r s : Ref} {object other : Object}

/-- The world with other storage. -/
def withMemory (w : World) (m : Memory) : World := { w with memory := m }

/-- The world with other notices: events, and labels of objects that went. -/
def noticing (w : World) (events : Array Event) (reports : Array Int) : World :=
  { w with
    reports
    memory := { w.memory with process := { w.memory.process with events } } }

/-- The world after an object ended, its storage not yet freed. -/
def without (w : World) (r : Ref) : World :=
  w.modify r fun object => { object with live := false }

/-! ### Looking up objects -/

/-- An object is there if the table has it and it did not end. -/
theorem object?_eq_some :
    w.object? r = some object ↔ w.objects[r]? = some object ∧ object.live = true := by
  unfold object?
  cases w.objects[r]? with
  | none => simp
  | some found =>
    simp only [Option.ite_none_right_eq_some, Option.some.injEq]
    constructor
    · rintro ⟨hlive, rfl⟩
      exact ⟨rfl, hlive⟩
    · rintro ⟨rfl, hlive⟩
      exact ⟨hlive, rfl⟩

/-- An object that is there is in the table. -/
theorem lt_size_of_object? (h : w.object? r = some object) : r < w.objects.size := by
  obtain ⟨hr, -⟩ := object?_eq_some.1 h
  exact (Array.getElem?_eq_some_iff.1 hr).1

/-- An object that is changed without being ended. -/
theorem object?_modify (w : World) (r s : Ref) (f : Object → Object)
    (hlive : ∀ object, (f object).live = object.live) :
    (w.modify r f).object? s = if r = s then (w.object? s).map f else w.object? s := by
  simp only [object?, modify, Array.getElem?_modify]
  by_cases hrs : r = s
  · rw [if_pos hrs, if_pos hrs]
    cases w.objects[s]? with
    | none => rfl
    | some found => cases hfound : found.live <;> simp [hlive, hfound]
  · rw [if_neg hrs, if_neg hrs]

/-- An object of which the count is changed. -/
theorem object?_setCount (w : World) (r s : Ref) (f : Object → Int) :
    (w.modify r fun object => { object with count := f object }).object? s =
      if r = s then (w.object? s).map fun object => { object with count := f object }
      else w.object? s :=
  object?_modify w r s (fun object => { object with count := f object }) fun _ => rfl

/-- A change to one object leaves the others. -/
theorem object?_modify_of_ne (h : s ≠ r) (f : Object → Object) :
    (w.modify r f).object? s = w.object? s := by
  simp only [object?, modify, Array.getElem?_modify, if_neg (Ne.symm h)]

/-- An object that ended is not there any more. -/
theorem object?_without (w : World) (r s : Ref) :
    (w.without r).object? s = if r = s then none else w.object? s := by
  simp only [object?, without, modify, Array.getElem?_modify]
  by_cases hrs : r = s
  · rw [if_pos hrs, if_pos hrs]
    cases w.objects[s]? <;> rfl
  · rw [if_neg hrs, if_neg hrs]

/-- Objects that are left after one ended are others. -/
theorem object?_of_without (hs : (w.without r).object? s = some object) :
    r ≠ s ∧ w.object? s = some object := by
  rw [object?_without] at hs
  split at hs
  · cases hs
  · exact ⟨‹_›, hs⟩

/-! ### Slots -/

/-- The slots of an object that is still there. -/
def slots (w : World) (r : Ref) : List (Option Ref) := (w.object? r).elim [] w.slotsOf

/-- What an object holds: the occupants of its slots. -/
def contents (w : World) (r : Ref) : List Ref := (w.slots r).filterMap id

/-- The slots of an object that is there are read off its block. -/
theorem slots_of_object? (h : w.object? r = some object) : w.slots r = w.slotsOf object := by
  rw [slots, h, Option.elim_some]

/-- An object that is gone has no slots. -/
theorem slots_of_none (h : w.object? r = none) : w.slots r = [] := by
  rw [slots, h, Option.elim_none]

/-- An object that is gone holds nothing. -/
theorem contents_of_none (h : w.object? r = none) : w.contents r = [] := by
  rw [contents, slots_of_none h, List.filterMap_nil]

/-- What an object holds stands in one of its slots. -/
theorem mem_contents : s ∈ w.contents r ↔ some s ∈ w.slots r := by
  simp only [contents, List.mem_filterMap, id, exists_eq_right]

/-- The slots of an object stand in its blocks. -/
theorem slotsOf_congr
    (h : ∀ a ∈ object.blocks,
      w'.memory.process.payload a = w.memory.process.payload a) :
    w'.slotsOf object = w.slotsOf object := by
  have htable : w'.slotTable object = w.slotTable object := by
    unfold slotTable payloadOf
    cases hbody : object.body with
    | tuple length =>
      cases hhome : object.home with
      | none => rfl
      | some a => simp only [h a (Object.mem_blocks.2 (.inr hhome))]
    | list length capacity buffer =>
      cases buffer with
      | none => rfl
      | some a =>
        simp only [h a (Object.mem_blocks.2 (.inl (Object.buffer_eq_some.2 ⟨_, _, hbody⟩)))]
    | _ => rfl
  rw [slotsOf, slotsOf, htable]

/-- Counting references leaves the slots of an object. -/
theorem slotsOf_setCount (w : World) (object : Object) (count : Int) :
    w.slotsOf { object with count } = w.slotsOf object := rfl

/-! ### The references in slots -/

open scoped BigOperators

/-- The references in the slots of all objects but those in `ended`. -/
def held (w : World) (ended : List Ref) : Multiset Ref :=
  ∑ r ∈ Finset.range w.objects.size, if r ∈ ended then 0 else (w.contents r : Multiset Ref)

/-- Places behind the table hold nothing. -/
theorem held_eq_sum (w : World) (ended : List Ref) {n : Nat} (h : w.objects.size ≤ n) :
    w.held ended =
      ∑ r ∈ Finset.range n, if r ∈ ended then 0 else (w.contents r : Multiset Ref) := by
  refine Finset.sum_subset (Finset.range_mono h) fun r _ hr => ?_
  have hnone : w.object? r = none := by
    cases hobject : w.object? r with
    | none => rfl
    | some object => exact absurd (Finset.mem_range.2 (lt_size_of_object? hobject)) hr
  rw [contents_of_none hnone]
  split <;> rfl

/-- What is held depends on what each object holds. -/
theorem held_congr {ended ended' : List Ref}
    (h : ∀ r, (if r ∈ ended' then [] else w'.contents r) = if r ∈ ended then [] else w.contents r) :
    w'.held ended' = w.held ended := by
  rw [held_eq_sum w' ended' (Nat.le_max_left _ w.objects.size),
    held_eq_sum w ended (Nat.le_max_right w'.objects.size _)]
  refine Finset.sum_congr rfl fun r _ => ?_
  have hr := congrArg (fun l : List Ref => (l : Multiset Ref)) (h r)
  split at hr <;> split at hr <;> simp_all

/-- The slots of one object apart from those of the others. -/
theorem held_split {ended : List Ref} (hr : r ∉ ended) :
    w.held ended = (w.contents r : Multiset Ref) + w.held (r :: ended) := by
  have hn : r ∈ Finset.range (max w.objects.size (r + 1)) :=
    Finset.mem_range.2 (Nat.lt_of_lt_of_le r.lt_succ_self (Nat.le_max_right _ _))
  rw [held_eq_sum w ended (Nat.le_max_left _ (r + 1)),
    held_eq_sum w (r :: ended) (Nat.le_max_left _ (r + 1)), ← Finset.add_sum_erase _ _ hn,
    ← Finset.add_sum_erase _ (fun s => if s ∈ r :: ended then 0 else _) hn]
  simp only [if_neg hr, List.mem_cons, true_or, if_true, zero_add]
  refine congrArg _ (Finset.sum_congr rfl fun s hs => ?_)
  simp only [Finset.ne_of_mem_erase hs, false_or]

/-- What is held is held by an object that did not end. -/
theorem mem_held {ended : List Ref} :
    s ∈ w.held ended ↔ ∃ r, r ∉ ended ∧ s ∈ w.contents r := by
  constructor
  · intro h
    obtain ⟨r, -, hs⟩ := Multiset.mem_sum.1 h
    split at hs
    · cases Multiset.notMem_zero s hs
    · next hr => exact ⟨r, hr, Multiset.mem_coe.1 hs⟩
  · rintro ⟨r, hr, hs⟩
    rw [held_split hr]
    exact Multiset.mem_add.2 (.inl (Multiset.mem_coe.2 hs))

/-! ### Objects in their blocks -/

/-- The objects that a world starts with. -/
def singletons : Array Object := #[
  .immortal .none .nothing, .immortal .bool (.integer 1), .immortal .bool (.integer 0)]

/-- The first objects are as they were made, every other one fits its type,
and all lie in blocks of their own. -/
structure Housed (w : World) : Prop where
  memory : w.memory.Sound
  singleton : ∀ r, r < 3 → w.objects[r]? = singletons[r]?
  fits : ∀ r object, w.object? r = some object → 3 ≤ r → object.Fits
  housed : ∀ r object, w.object? r = some object → object.HousedIn w.memory.process
  apart : ∀ r s object other, w.object? r = some object → w.object? s = some other →
    ∀ a ∈ object.blocks, a ∈ other.blocks → r = s

/-- The first objects are immortal and no containers. -/
theorem Housed.first (h : w.Housed) (hobject : w.object? r = some object) (hr : r < 3) :
    object.isImmortal = true ∧ (object.body = .nothing ∨ ∃ v, object.body = .integer v) := by
  have hsingle := h.singleton r hr
  rw [(object?_eq_some.1 hobject).1] at hsingle
  match r, hr with
  | 0, _ =>
    cases hsingle
    exact ⟨rfl, .inl rfl⟩
  | 1, _ | 2, _ =>
    cases hsingle
    exact ⟨rfl, .inr ⟨_, rfl⟩⟩

/-- An object whose references are counted is none of the first three. -/
theorem Housed.le_of_mortal (h : w.Housed) (hobject : w.object? r = some object)
    (hmortal : object.isImmortal = false) : 3 ≤ r := by
  by_contra hlt
  have himmortal := (h.first hobject (Nat.lt_of_not_le hlt)).1
  rw [hmortal] at himmortal
  cases himmortal

/-- The first three are integers or nothing at all. -/
theorem Housed.le_of_body (h : w.Housed) (hobject : w.object? r = some object)
    (hnothing : object.body ≠ .nothing) (hinteger : ∀ v, object.body ≠ .integer v) : 3 ≤ r := by
  by_contra hlt
  rcases (h.first hobject (Nat.lt_of_not_le hlt)).2 with hbody | ⟨v, hbody⟩
  · exact hnothing hbody
  · exact hinteger v hbody

/-- A text is none of the three objects that are always there. -/
theorem Housed.le_of_text (h : w.Housed) (hobject : w.object? r = some object) {length : Nat}
    (hbody : object.body = .text length) : 3 ≤ r :=
  h.le_of_body hobject (by simp [hbody]) (by simp [hbody])

/-- A tuple is none of the three objects that are always there. -/
theorem Housed.le_of_tuple (h : w.Housed) (hobject : w.object? r = some object) {length : Nat}
    (hbody : object.body = .tuple length) : 3 ≤ r :=
  h.le_of_body hobject (by simp [hbody]) (by simp [hbody])

/-- A list is none of the three objects that are always there. -/
theorem Housed.le_of_list (h : w.Housed) (hobject : w.object? r = some object)
    {length capacity : Nat} {buffer : Option Address}
    (hbody : object.body = .list length capacity buffer) : 3 ≤ r :=
  h.le_of_body hobject (by simp [hbody]) (by simp [hbody])

/-- Only one object changes. What it is afterwards is housed apart from the
others, whose blocks stay as they are. -/
theorem Housed.change (h : w.Housed) (hmemory : w'.memory.Sound)
    (hfirst : ∀ s, s < 3 → w'.objects[s]? = w.objects[s]?)
    (hothers : ∀ s, s ≠ r → w'.object? s = w.object? s)
    (hsame : ∀ s other, s ≠ r → w.object? s = some other → ∀ a ∈ other.blocks,
      w'.memory.process.blocks[a]? = w.memory.process.blocks[a]?)
    (hnew : ∀ object, w'.object? r = some object →
      (3 ≤ r → object.Fits) ∧ object.HousedIn w'.memory.process ∧
        ∀ s other, s ≠ r → w.object? s = some other → ∀ a ∈ object.blocks, a ∉ other.blocks) :
    w'.Housed where
  memory := hmemory
  singleton s hs := (hfirst s hs).trans (h.singleton s hs)
  fits s other hs hle := by
    by_cases hsr : s = r
    · subst hsr
      exact (hnew other hs).1 hle
    · rw [hothers s hsr] at hs
      exact h.fits s other hs hle
  housed s other hs := by
    by_cases hsr : s = r
    · subst hsr
      exact (hnew other hs).2.1
    · rw [hothers s hsr] at hs
      exact (h.housed s other hs).congr (hsame s other hsr hs)
  apart s t one other hs ht a ha hb := by
    -- two objects meet in a block only if one of them is the one that changed
    by_cases hsr : s = r <;> by_cases htr : t = r
    · rw [hsr, htr]
    · subst hsr
      rw [hothers t htr] at ht
      exact absurd hb ((hnew one hs).2.2 t other htr ht a ha)
    · subst htr
      rw [hothers s hsr] at hs
      exact absurd ha ((hnew other ht).2.2 s one hsr hs a hb)
    · rw [hothers s hsr] at hs
      rw [hothers t htr] at ht
      exact h.apart s t one other hs ht a ha hb

/-- The storage changes, but no block of an object. -/
theorem Housed.of_memory (h : w.Housed) (hobjects : w'.objects = w.objects)
    (hmemory : w'.memory.Sound)
    (hsame : ∀ s other, w.object? s = some other → ∀ a ∈ other.blocks,
      w'.memory.process.blocks[a]? = w.memory.process.blocks[a]?) : w'.Housed := by
  have hlookup : ∀ s, w'.object? s = w.object? s := fun s => by rw [object?, object?, hobjects]
  -- no object is changed, so the one behind the table may stand for the one that is
  refine h.change (r := w.objects.size) hmemory (fun s _ => by rw [hobjects])
    (fun s _ => hlookup s) (fun s other _ => hsame s other) fun object hobject => ?_
  rw [hlookup] at hobject
  exact absurd (lt_size_of_object? hobject) (Nat.lt_irrefl _)

/-- Notices move nothing. -/
theorem Housed.noticing (h : w.Housed) (events : Array Event) (reports : Array Int) :
    (w.noticing events reports).Housed :=
  h.of_memory rfl (h.memory.of_kind fun _ _ _ => rfl) fun _ _ _ _ _ => rfl

/-- A change to an object that may go leaves the first objects alone. -/
theorem first_modify (hr : 3 ≤ r) (hs : s < 3) (f : Object → Object) :
    (w.modify r f).objects[s]? = w.objects[s]? := by
  rw [modify, Array.getElem?_modify, if_neg (Nat.ne_of_gt (Nat.lt_of_lt_of_le hs hr))]

/-- Counting references of an object that may go moves nothing. -/
theorem Housed.setCount (h : w.Housed) (hr : 3 ≤ r) (f : Object → Int) :
    (w.modify r fun object => { object with count := f object }).Housed := by
  refine h.change (r := r) h.memory (fun s hs => first_modify hr hs _)
    (fun s hs => object?_modify_of_ne hs _) (fun s other _ _ a _ => rfl) fun object hobject => ?_
  rw [object?_setCount, if_pos rfl] at hobject
  obtain ⟨old, hold, rfl⟩ := Option.map_eq_some_iff.1 hobject
  refine ⟨fun hle => (h.fits r old hold hle).setCount _, (h.housed r old hold).setCount _, ?_⟩
  intro s other hs hother a ha hmem
  exact hs (h.apart s r other old hother hold a hmem ha)

/-! ### References and counts -/

/-- The count of an object, if it is still there. -/
def count? (w : World) (r : Ref) : Option Int := (w.object? r).map (·.count)

/-- What has a count is there. -/
theorem count?_eq_some {n : Int} :
    w.count? r = some n ↔ ∃ object, w.object? r = some object ∧ object.count = n := by
  rw [count?, Option.map_eq_some_iff]

/-- An object that is there has its count. -/
theorem count?_of_object? (h : w.object? r = some object) : w.count? r = some object.count := by
  rw [count?, h, Option.map_some]

/-- Being counted is being there. -/
theorem isSome_count? : (w.count? r).isSome = (w.object? r).isSome := by
  rw [count?, Option.isSome_map]

/-- A count that goes up or down. -/
theorem count?_modify (w : World) (r s : Ref) (f : Int → Int) :
    (w.modify r fun object => { object with count := f object.count }).count? s =
      if r = s then (w.count? s).map f else w.count? s := by
  rw [count?, object?_setCount w r s fun object => f object.count]
  by_cases hrs : r = s
  · rw [if_pos hrs, if_pos hrs, count?, Option.map_map, Option.map_map]
    rfl
  · rw [if_neg hrs, if_neg hrs, count?]

/-- The references in `refs` are all there are: each leads to an object that
is still there, and the count of every object that counts them is their
number. The objects in `zeros` have none left. -/
structure Counted (w : World) (refs : Multiset Ref) (zeros : List Ref) : Prop where
  alive : ∀ r ∈ refs, (w.count? r).isSome
  exact : ∀ r n, w.count? r = some n → n < immortalCount → n = refs.count r
  zero : ∀ r, r ∈ zeros ↔ w.count? r = some 0
  nodup : zeros.Nodup

variable {refs : Multiset Ref} {zeros : List Ref}

/-- Whether a world is counted depends on the counts. -/
theorem Counted.congr (h : w.Counted refs zeros) (hcount : ∀ s, w'.count? s = w.count? s) :
    w'.Counted refs zeros where
  alive s hs := by rw [hcount]; exact h.alive s hs
  exact s n hs := h.exact s n (by rw [← hcount]; exact hs)
  zero s := by rw [hcount]; exact h.zero s
  nodup := h.nodup

/-- An object without references is referred to by nobody. -/
theorem Counted.notMem_of_zero (h : w.Counted refs zeros) (hr : r ∈ zeros) : r ∉ refs := by
  have hzero : (0 : Int) = refs.count r := h.exact r 0 ((h.zero r).1 hr) (by decide)
  exact Multiset.count_eq_zero.1 (by omega)

/-- An object whose count is one has a single reference. -/
theorem Counted.pos (h : w.Counted refs []) {n : Int} (hr : w.count? r = some n)
    (hn : n < immortalCount) : 1 ≤ n := by
  have hexact := h.exact r n hr hn
  have hne : n ≠ 0 := by
    rintro rfl
    exact absurd ((h.zero r).2 hr) List.not_mem_nil
  omega

end World

end ExtensionHost
