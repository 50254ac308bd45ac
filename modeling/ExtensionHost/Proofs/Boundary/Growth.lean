import ExtensionHost.Box.Growth
import ExtensionHost.Proofs.Boundary.Containers
import Mathlib.Order.Bounds.Defs

/-!
# `ExtensionHost.Proofs.Boundary.Growth`: how the buffer of a list grows

The buffer of a list is resized to twice its capacity when an item is added and
there is no room. What this comes to over a run of any length is said by
`listGrowth_of_run`: the capacity is the first of the doublings that has room for
the items, the buffer was resized once for each doubling, and the items that stood
in it at those times are together at most twice as many as the list has in the end.
So on average an item is moved a bounded number of times.

`Adds` is a run by a caller who keeps a reference to the list. It counts the items
that were added, and notes the length of the list whenever its capacity is found
to be another one than before. The invariant is `Doubled`: of the capacities that
the list went through all but the last one were too small, and the noted lengths
and the first capacity add up to the last one. A list that was made empty gets its
first capacity with its first item (`Grown`).
-/

set_option autoImplicit false

namespace ExtensionHost

open World Box

/-! ### Doublings -/

/-- A capacity that has come from a first one by `k` doublings, each at a length that
left no room. -/
structure Doubled (first k length capacity : Nat) (growths : List Nat) : Prop where
  doublings : capacity = first * 2 ^ k
  times : growths.length = k
  moved : growths.sum + first = capacity
  room : length ≤ capacity
  tooSmall : ∀ j < k, first * 2 ^ j < length

namespace Doubled

variable {first k length capacity : Nat} {growths : List Nat}

/-- A capacity that has room from the start was never doubled. -/
theorem of_first (hroom : length ≤ first) : Doubled first 0 length first [] :=
  ⟨(Nat.mul_one first).symm, rfl, Nat.zero_add first, hroom,
    fun _ hj => absurd hj (Nat.not_lt_zero _)⟩

/-- Nothing is moved while there is room. -/
theorem within (h : Doubled first k length capacity growths) (hroom : length < capacity) :
    Doubled first k (length + 1) capacity growths where
  doublings := h.doublings
  times := h.times
  moved := h.moved
  room := hroom
  tooSmall j hj := Nat.lt_succ_of_lt (h.tooSmall j hj)

/-- The items of a full list are moved, all of them once. -/
theorem double (h : Doubled first k length capacity growths) (hfirst : 0 < first)
    (hfull : length = capacity) :
    Doubled first (k + 1) (length + 1) (capacity * 2) (growths ++ [length]) where
  doublings := by rw [h.doublings, Nat.pow_succ, Nat.mul_assoc]
  times := by rw [List.length_append, h.times, List.length_singleton]
  moved := by
    have hmoved := h.moved
    rw [List.sum_append, List.sum_singleton]
    omega
  room := by
    have hpos : 0 < capacity := h.doublings ▸ Nat.mul_pos hfirst (Nat.two_pow_pos k)
    omega
  tooSmall j hj := by
    have hle : first * 2 ^ j ≤ first * 2 ^ k :=
      Nat.mul_le_mul_left first (Nat.pow_le_pow_right Nat.two_pos (Nat.le_of_lt_succ hj))
    rw [← h.doublings] at hle
    omega

/-- There are no more doublings than are needed. -/
theorem isLeast (h : Doubled first k length capacity growths) :
    IsLeast {j | length ≤ first * 2 ^ j} k :=
  ⟨h.room.trans_eq h.doublings,
    fun j hj => Nat.le_of_not_lt fun hlt => Nat.not_lt.2 hj (h.tooSmall j hlt)⟩

/-- The last doubling was needed, so what was moved is less than twice what there is. -/
theorem sum_le (h : Doubled first k length capacity growths) : growths.sum ≤ 2 * length := by
  cases k with
  | zero =>
    rw [List.length_eq_zero_iff.1 h.times]
    exact Nat.zero_le _
  | succ k =>
    have hsmall := h.tooSmall k (Nat.lt_succ_self k)
    have hmoved := h.moved
    rw [h.doublings, Nat.pow_succ, ← Nat.mul_assoc] at hmoved
    omega

end Doubled

/-- The capacity of a list that was made with `m` slots, and the lengths at which it
changed. -/
inductive Grown : (m length capacity : Nat) → List Nat → Prop
  | bare : Grown 0 0 0 []
  | fromNothing {k length capacity : Nat} {growths : List Nat}
      (h : Doubled firstCapacity k length capacity growths) (hsome : 0 < length) :
      Grown 0 length capacity (0 :: growths)
  | fromSlots {m k length capacity : Nat} {growths : List Nat} (hm : 0 < m)
      (h : Doubled m k length capacity growths) : Grown m length capacity growths

namespace Grown

variable {m length capacity : Nat} {growths : List Nat}

/-- A list that was just made has the capacity that was asked for. -/
theorem of_made (m : Nat) : Grown m m m [] := by
  rcases Nat.eq_zero_or_pos m with rfl | hm
  · exact .bare
  · exact .fromSlots hm (.of_first (Nat.le_refl m))

/-- An item for which there is room is added without moving the others. -/
theorem within (h : Grown m length capacity growths) (hroom : length < capacity) :
    Grown m (length + 1) capacity growths := by
  cases h with
  | bare => exact absurd hroom (Nat.lt_irrefl 0)
  | fromNothing h => exact .fromNothing (h.within hroom) (Nat.succ_pos _)
  | fromSlots hm h => exact .fromSlots hm (h.within hroom)

/-- A full list grows to its first capacity, or to twice the one it has. -/
theorem double (h : Grown m length capacity growths) (hfull : length = capacity) :
    Grown m (length + 1) (if capacity = 0 then firstCapacity else capacity * 2)
      (growths ++ [length]) := by
  cases h with
  | bare => exact .fromNothing (.of_first (by decide)) Nat.one_pos
  | fromNothing h hsome =>
    rw [if_neg (by omega), List.cons_append]
    exact .fromNothing (h.double (by decide) hfull) (Nat.succ_pos _)
  | fromSlots hm h =>
    have hpos : 0 < capacity := h.doublings ▸ Nat.mul_pos hm (Nat.two_pow_pos _)
    rw [if_neg (Nat.pos_iff_ne_zero.1 hpos)]
    exact .fromSlots hm (h.double hm hfull)

/-- A list has room for its items. -/
theorem room (h : Grown m length capacity growths) : length ≤ capacity := by
  cases h with
  | bare => exact Nat.le_refl 0
  | fromNothing h => exact h.room
  | fromSlots _ h => exact h.room

/-- What was moved is at most twice what there is. -/
theorem sum_le (h : Grown m length capacity growths) : growths.sum ≤ 2 * length := by
  cases h with
  | bare => exact Nat.zero_le _
  | fromNothing h =>
    rw [List.sum_cons, Nat.zero_add]
    exact h.sum_le
  | fromSlots _ h => exact h.sum_le

/-- Before an item is added the list has the capacity that it was made with. -/
theorem of_unused (h : Grown m m capacity growths) : capacity = m ∧ growths = [] := by
  cases h with
  | bare => exact ⟨rfl, rfl⟩
  | fromNothing _ hsome => exact absurd hsome (Nat.lt_irrefl 0)
  | @fromSlots _ k _ _ _ hm h =>
    have hnone : k = 0 := by
      by_contra hk
      have hsmall := h.tooSmall 0 (Nat.pos_of_ne_zero hk)
      rw [Nat.pow_zero, Nat.mul_one] at hsmall
      exact Nat.lt_irrefl m hsmall
    subst hnone
    exact ⟨h.doublings.trans (Nat.mul_one m), List.length_eq_zero_iff.1 h.times⟩

/-- A list that was made empty and has items started with the first capacity. -/
theorem of_nothing (h : Grown 0 length capacity growths) (hsome : 0 < length) :
    ∃ k growths', Doubled firstCapacity k length capacity growths' ∧ growths = 0 :: growths' := by
  cases h with
  | bare => exact absurd hsome (Nat.lt_irrefl 0)
  | fromNothing h => exact ⟨_, _, h, rfl⟩
  | fromSlots hm => exact absurd hm (Nat.lt_irrefl 0)

/-- A list that was made with slots started with as many. -/
theorem of_slots (h : Grown m length capacity growths) (hm : 0 < m) :
    ∃ k, Doubled m k length capacity growths := by
  cases h with
  | bare => exact absurd hm (Nat.lt_irrefl 0)
  | fromNothing => exact absurd hm (Nat.lt_irrefl 0)
  | fromSlots _ h => exact ⟨_, h⟩

end Grown

/-! ### Sequences -/

namespace Box.Sequence

/-- The call adds an item. -/
def Call.AddsItem (call : Call) (reply : Except ApiError Reply) : Prop :=
  (∃ item, call = .append (some item)) ∧ reply = .ok .done

variable {s s' : Sequence} {call : Call} {reply : Except ApiError Reply} {released : Option Ref}

/-- A call that adds no item leaves the length and the capacity. -/
theorem Step.same_of_not (h : Step call s reply s' released) (hno : ¬ call.AddsItem reply) :
    s'.slots.length = s.slots.length ∧ s'.capacity = s.capacity := by
  cases h with
  | append => exact absurd ⟨⟨_, rfl⟩, rfl⟩ hno
  | setItem => exact ⟨List.length_set, rfl⟩
  | _ => exact ⟨rfl, rfl⟩

/-- Calls that add no item leave the length and the capacity. -/
theorem Steps.same_of_not {calls : List (Call × Except ApiError Reply)} (h : Steps s calls s')
    (hno : ∀ entry ∈ calls, ¬ entry.1.AddsItem entry.2) :
    s'.slots.length = s.slots.length ∧ s'.capacity = s.capacity := by
  induction h with
  | none => exact ⟨rfl, rfl⟩
  | next h hstep ih =>
    obtain ⟨hlength, hcapacity⟩ := ih fun entry hmem => hno entry (List.mem_append_left _ hmem)
    obtain ⟨hlength', hcapacity'⟩ := hstep.same_of_not
      (hno _ (List.mem_append_right _ List.mem_cons_self))
    exact ⟨hlength'.trans hlength, hcapacity'.trans hcapacity⟩

/-- A call that adds an item makes room for it. -/
theorem Step.of_adds (h : Step call s reply s' released) (hadds : call.AddsItem reply) :
    s'.slots.length = s.slots.length + 1 ∧ s'.capacity = s.roomier := by
  obtain ⟨⟨item, rfl⟩, rfl⟩ := hadds
  cases h with
  | append => exact ⟨by rw [List.length_append, List.length_singleton], rfl⟩

end Box.Sequence

/-! ### Runs -/

namespace Boundary

open Sequence (Call Reply)

variable {w w' : World} {r : Ref} {owned kept : Multiset Ref} {m n : Nat} {growths : List Nat}

/-- The length of a list, if its capacity is another one afterwards. -/
def growthAt (r : Ref) (before after : World) : List Nat :=
  if (listCapacity after r).toOption = (listCapacity before r).toOption then []
  else (listLength before r).toOption.toList

/-- A run by a caller who keeps a reference to a list. So many items were added to it, and
at these lengths its capacity changed. In between the caller does anything else. -/
inductive Adds (r : Ref) (w : World) (owned : Multiset Ref) :
    Nat → List Nat → World → Multiset Ref → Prop
  | start : Adds r w owned 0 [] w owned
  | append {n : Nat} {growths : List Nat} {w₁ w₂ : World} {kept : Multiset Ref} {item : Ref}
      {α : Type} {operation : Host α} {answers : α → Except ApiError Reply → Prop} {a : α}
      (h : Adds r w owned n growths w₁ (handed (some item) + kept)) (hkept : r ∈ kept)
      (hperforms : Performs .list (some r) (.append (some item)) operation answers)
      (hrun : operation w₁ = .ok a w₂) (hdone : answers a (.ok .done)) :
      Adds r w owned (n + 1) (growths ++ growthAt r w₁ w₂) w₂ kept
  | between {n : Nat} {growths : List Nat} {w₁ w₂ : World} {owned₁ kept : Multiset Ref}
      {seen : List (Call × (Except ApiError Reply → Prop))}
      (h : Adds r w owned n growths w₁ owned₁) (hrun : Run .list r w₁ owned₁ seen w₂ kept)
      (hnone : ∀ entry ∈ seen, ∀ reply, entry.2 reply → ¬ entry.1.AddsItem reply) :
      Adds r w owned n (growths ++ growthAt r w₁ w₂) w₂ kept

/-- The capacity that a list answers is that of the sequence it shows. -/
theorem listCapacity_of_view {sequence : Sequence}
    (hview : ContainerKind.list.view w r = .ok sequence) :
    listCapacity w r = .ok sequence.capacity := by
  obtain ⟨⟨object, length, capacity, buffer⟩, hlist, rfl⟩ := except_map_eq_ok.1 hview
  exact except_map_eq_ok.2 ⟨_, hlist, rfl⟩

/-- The length that a list answers is that of the sequence it shows. -/
theorem listLength_of_view {sequence : Sequence} (hsound : w.Sound owned)
    (hview : ContainerKind.list.view w r = .ok sequence) :
    listLength w r = .ok sequence.slots.length := by
  have hlength := length_eq hsound .list r
  rw [hview] at hlength
  exact hlength

/-- The growth of a list is read off the sequences before and after. -/
theorem growthAt_of_view {sequence next : Sequence} (hsound : w.Sound owned)
    (hview : ContainerKind.list.view w r = .ok sequence)
    (hnext : ContainerKind.list.view w' r = .ok next) :
    growthAt r w w' =
      if next.capacity = sequence.capacity then [] else [sequence.slots.length] := by
  rw [growthAt, listCapacity_of_view hview, listCapacity_of_view hnext,
    listLength_of_view hsound hview]
  simp only [Except.toOption, Option.some.injEq, Option.toList_some]

/-- One item more, for which there was room or room was made. -/
theorem grown_add {sequence next : Sequence}
    (h : Grown m sequence.slots.length sequence.capacity growths)
    (hlength : next.slots.length = sequence.slots.length + 1)
    (hcapacity : next.capacity = sequence.roomier) :
    Grown m next.slots.length next.capacity
      (growths ++ if next.capacity = sequence.capacity then [] else [sequence.slots.length]) := by
  rw [hlength, hcapacity, Sequence.roomier]
  by_cases hroom : sequence.slots.length < sequence.capacity
  · rw [if_pos hroom, if_pos rfl, List.append_nil]
    exact h.within hroom
  · rw [if_neg hroom, if_neg (Nat.ne_of_gt (lt_grownCapacity _))]
    exact h.double (Nat.le_antisymm h.room (Nat.le_of_not_lt hroom))

/-- An answer that goes with success goes with nothing else. -/
theorem Performs.replies {item : Ref} {α : Type} {operation : Host α}
    {answers : α → Except ApiError Reply → Prop} {a : α} {reply : Except ApiError Reply}
    (h : Performs .list (some r) (.append (some item)) operation answers)
    (hdone : answers a (.ok .done)) (hanswers : answers a reply) : ∃ found, reply = .ok found := by
  cases h with
  | append =>
    rw [hanswers, ← hdone]
    exact ⟨_, rfl⟩
  | listAppend =>
    cases reply with
    | ok found => exact ⟨found, rfl⟩
    | error e => cases hdone.symm.trans hanswers

/-- An item that is appended and not refused is one that is added. -/
theorem addsItem_of_step {item : Ref} {s s' : Sequence} {reply : Reply} {released : Option Ref}
    (h : Sequence.Step (.append (some item)) s (.ok reply) s' released) :
    Call.AddsItem (.append (some item)) (.ok reply) := by
  cases h
  exact ⟨⟨item, rfl⟩, rfl⟩

/-- Answers that do not go with an item that was added explain no reply that does. -/
theorem Explains.not_addsItem {seen : List (Call × (Except ApiError Reply → Prop))}
    {replies : List (Call × Except ApiError Reply)} (h : Explains seen replies)
    (hnone : ∀ entry ∈ seen, ∀ reply, entry.2 reply → ¬ entry.1.AddsItem reply) :
    ∀ entry ∈ replies, ¬ entry.1.AddsItem entry.2 := by
  induction h with
  | nil => exact fun _ hmem => absurd hmem List.not_mem_nil
  | @cons first reply seen replies hfirst _ ih =>
    rintro entry hmem
    rcases List.mem_cons.1 hmem with rfl | hmem
    · rw [hfirst.1]
      exact hnone first List.mem_cons_self _ hfirst.2
    · exact ih (fun entry hmem => hnone entry (List.mem_cons_of_mem _ hmem)) entry hmem

/-- The list has grown as often as the items that were added ask for. -/
theorem grown_of_adds (hsound : w.Sound owned) {sequence : Sequence}
    (hview : ContainerKind.list.view w r = .ok sequence)
    (hmade : sequence.slots.length = m ∧ sequence.capacity = m)
    (h : Adds r w owned n growths w' kept) :
    w'.Sound kept ∧ ∃ next, ContainerKind.list.view w' r = .ok next ∧
      next.slots.length = m + n ∧ Grown m next.slots.length next.capacity growths := by
  -- the invariant is that capacity and resizes are those of as many added items
  induction h with
  | start =>
    refine ⟨hsound, sequence, hview, hmade.1, ?_⟩
    rw [hmade.1, hmade.2]
    exact .of_made m
  | append h hkept hperforms hrun hdone ih =>
    obtain ⟨hsound₁, next, hview₁, hlength, hgrown⟩ := ih
    obtain ⟨answer, reply, w₂, hrun', hanswers, hsound₂, heffect⟩ := hperforms.effect hsound₁
    rw [hrun] at hrun'
    cases hrun'
    obtain ⟨last, released, hstep, hview₂⟩ := heffect.view_self hview₁ (hsound₂.alive hkept)
    obtain ⟨found, rfl⟩ := hperforms.replies hdone hanswers
    obtain ⟨hlength₂, hcapacity₂⟩ := hstep.of_adds (addsItem_of_step hstep)
    refine ⟨hsound₂, last, hview₂, by omega, ?_⟩
    rw [growthAt_of_view hsound₁ hview₁ hview₂]
    exact grown_add hgrown hlength₂ hcapacity₂
  | between h hrun hnone ih =>
    obtain ⟨hsound₁, next, hview₁, hlength, hgrown⟩ := ih
    -- whatever goes on between two additions, length and capacity stay
    obtain ⟨hsound₂, replies, last, hexplains, hsteps, hview₂⟩ := view_of_run hsound₁ hview₁ hrun
    obtain ⟨hlength₂, hcapacity₂⟩ := hsteps.same_of_not (hexplains.not_addsItem hnone)
    refine ⟨hsound₂, last, hview₂, by omega, ?_⟩
    rw [growthAt_of_view hsound₁ hview₁ hview₂, if_pos hcapacity₂, List.append_nil, hlength₂,
      hcapacity₂]
    exact hgrown

/-- Integers that are boxed and appended one after the other are items that are added. -/
theorem adds_appendIntegers {count v : Nat} {w₁ w₂ : World} {capacities answer : List Nat}
    (h : Adds r w owned n growths w₁ kept) (hkept : r ∈ kept)
    (hrun : (appendIntegers r count v capacities).run w₁ = .ok (.ok answer) w₂) :
    ∃ growths', Adds r w owned (n + count) growths' w₂ kept := by
  induction count generalizing n v growths capacities w₁ with
  | zero =>
    cases hrun
    exact ⟨growths, h⟩
  | succ count ih =>
    obtain ⟨item, w₃, hbox, happends⟩ := Attempt.run_bind_eq_ok.1 hrun
    obtain ⟨⟨⟩, w₄, happend, hreads⟩ := Attempt.run_bind_eq_ok.1 happends
    obtain ⟨capacity, w₅, hread, hrest⟩ := Attempt.run_bind_eq_ok.1 hreads
    obtain rfl := (Attempt.run_read_eq_ok hread).2
    have hgives : Gives [] (newInteger v) := gives_newIntegerOf .int (by decide) v []
    have hboxed := h.between (.box .start hkept hgives (by simp) hbox) (by simp)
    have hadded := hboxed.append hkept (.append r item) happend rfl
    obtain ⟨growths', hadds⟩ := ih hadded hrest
    rw [Nat.add_assoc, Nat.add_comm 1] at hadds
    exact ⟨growths', hadds⟩

/-- Growing a list by a number of integers adds that many items. -/
theorem adds_growBy {count : Nat} {w₁ w₂ : World} {answer : Nat × List Nat}
    (h : Adds r w owned n growths w₁ kept) (hkept : r ∈ kept)
    (hrun : (growBy r count).run w₁ = .ok (.ok answer) w₂) :
    ∃ growths', Adds r w owned (n + count) growths' w₂ kept := by
  obtain ⟨capacity, w₃, hread, happends⟩ := Attempt.run_bind_eq_ok.1 hrun
  obtain rfl := (Attempt.run_read_eq_ok hread).2
  obtain ⟨capacities, w₄, happend, hreads⟩ := Attempt.run_bind_eq_ok.1 happends
  obtain ⟨length, w₅, hlook, hrest⟩ := Attempt.run_bind_eq_ok.1 hreads
  obtain rfl := (Attempt.run_read_eq_ok hlook).2
  cases hrest
  exact adds_appendIntegers h hkept happend

end Boundary

open Boundary in
/-- A list that was made with `m` slots and to which `n` items were added has room for the
items, and no more doublings than it takes. The buffer was resized once for each of them,
and once more if there was none at first. -/
theorem listGrowth_of_run {w w₁ w' : World} {owned kept : Multiset Ref} (h : Reachable w owned)
    {m n : Nat} {α : Type} {operation : Host α} {made : α → Option Ref} {a : α} {r : Ref}
    {growths : List Nat} (hbuilds : Builds .list m operation made) (hmake : operation w = .ok a w₁)
    (hmade : made a = some r) (hadds : Adds r w₁ (handed (some r) + owned) n growths w' kept) :
    listLength w' r = .ok (m + n) ∧
    (n = 0 → listCapacity w' r = .ok m ∧ growths = []) ∧
    (m = 0 → 0 < n → ∃ k, IsLeast {j | n ≤ 4 * 2 ^ j} k ∧ listCapacity w' r = .ok (4 * 2 ^ k) ∧
      growths.length = k + 1) ∧
    (0 < m → 0 < n → ∃ k, IsLeast {j | m + n ≤ m * 2 ^ j} k ∧
      listCapacity w' r = .ok (m * 2 ^ k) ∧ growths.length = k) ∧
    growths.sum ≤ 2 * (m + n) := by
  obtain ⟨answer, w₂, hmake', hsound, -, hempty⟩ := hbuilds.spec (sound_of_reachable h)
  rw [hmake] at hmake'
  cases hmake'
  rw [hmade] at hsound
  obtain ⟨-, hempty⟩ := hempty r hmade
  obtain ⟨hsound', next, hview, hlength, hgrown⟩ :=
    grown_of_adds hsound hempty.view ⟨List.length_replicate, rfl⟩ hadds
  have hcapacity := listCapacity_of_view hview
  rw [Int.toNat_natCast] at hlength hgrown
  rw [hlength] at hgrown
  refine ⟨(listLength_of_view hsound' hview).trans (congrArg _ hlength), ?_, ?_, ?_, hgrown.sum_le⟩
  · rintro rfl
    obtain ⟨hsame, hnone⟩ := hgrown.of_unused
    exact ⟨hsame ▸ hcapacity, hnone⟩
  -- the first item of a list without slots makes a buffer, which is not a doubling
  · rintro rfl hn
    rw [Nat.zero_add] at hgrown
    obtain ⟨k, moved, hdoubled, rfl⟩ := hgrown.of_nothing hn
    refine ⟨k, hdoubled.isLeast, hdoubled.doublings ▸ hcapacity, ?_⟩
    rw [List.length_cons, hdoubled.times]
  · intro hm hn
    obtain ⟨k, hdoubled⟩ := hgrown.of_slots hm
    exact ⟨k, hdoubled.isLeast, hdoubled.doublings ▸ hcapacity, hdoubled.times⟩

namespace Boundary

/-- A list with one slot. -/
def withOneSlot : World := withLoop.left (listNew 1)

/-- The list, and three items added to it. -/
def withThreeAdded : World := withOneSlot.left (Box.growBy 4 3).run

/-- The list with the tuple in its first slot, which had no occupant. -/
def withTupleSet : World := withThreeAdded.left (listSetItem (some 4) 0 (some 3))

/-- The list, and two items more. -/
def withFiveAdded : World := withTupleSet.left (Box.growBy 4 2).run

/-- The caller gives up another reference, with which an item is set that is looked at next. -/
theorem run_withTupleSet : ∃ seen, Run .list 4 withThreeAdded ({4} + {3}) seen withTupleSet {4} ∧
    ∀ entry ∈ seen, ∀ reply, entry.2 reply → ¬ entry.1.AddsItem reply := by
  have hset : listSetItem (some 4) 0 (some 3) withThreeAdded = .ok 0 withTupleSet := rfl
  have hget : listGetItem (some 4) 0 withTupleSet = .ok (some 3) withTupleSet := rfl
  have hstart : Run .list 4 withThreeAdded ({4} + {3}) [] withThreeAdded ({3} + {4}) :=
    add_comm {3} ({4} : Multiset Ref) ▸ .start
  have hkept := Multiset.mem_singleton_self 4
  refine ⟨_, (hstart.call hkept (.listSetItem _ 0 _) hset).call hkept (.listGetItem _ 0) hget, ?_⟩
  rintro entry hmem reply - ⟨⟨item, hitem⟩, -⟩
  rcases List.mem_pair.1 hmem with rfl | rfl
  · cases hitem
  · cases hitem

/-- Three items are added, then one is set and looked at, then two more are added. -/
theorem adds_withFiveAdded :
    ∃ growths, Adds 4 withOneSlot (handed (some 4) + {3}) 5 growths withFiveAdded {4} := by
  have hthree : (growBy 4 3).run withOneSlot = .ok (.ok (4, [1, 2, 4])) withThreeAdded := rfl
  have htwo : (growBy 4 2).run withTupleSet = .ok (.ok (6, [4, 8])) withFiveAdded := rfl
  have hkept := Multiset.mem_singleton_self 4
  obtain ⟨growths, hadds⟩ := adds_growBy .start (Multiset.mem_add.2 (.inl hkept)) hthree
  obtain ⟨seen, hbetween, hnone⟩ := run_withTupleSet
  exact adds_growBy (hadds.between hbetween hnone) hkept htwo

end Boundary

open Boundary in
/-- A list with one slot doubles its buffer three times until it has room for six. -/
theorem listGrowth_withFiveAdded : Reachable withLoop {3} ∧
    listNew 1 withLoop = .ok (some 4) withOneSlot ∧
    ∃ growths, Adds 4 withOneSlot (handed (some 4) + {3}) 5 growths withFiveAdded {4} ∧
      listLength withFiveAdded 4 = .ok (1 + 5) ∧ growths.sum ≤ 2 * (1 + 5) ∧
      ∃ k, IsLeast {j | 1 + 5 ≤ 1 * 2 ^ j} k ∧ listCapacity withFiveAdded 4 = .ok (1 * 2 ^ k) ∧
        growths.length = k := by
  have hmake : listNew 1 withLoop = .ok (some 4) withOneSlot := rfl
  obtain ⟨growths, hadds⟩ := adds_withFiveAdded
  obtain ⟨hlength, -, -, hdoubled, hmoved⟩ :=
    listGrowth_of_run reachable_withLoop (.listNew (1 : Nat)) hmake rfl hadds
  exact ⟨reachable_withLoop, hmake, growths, hadds, hlength, hmoved,
    hdoubled Nat.one_pos (by decide)⟩

end ExtensionHost
