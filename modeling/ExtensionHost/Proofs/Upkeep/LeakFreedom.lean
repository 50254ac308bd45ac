import ExtensionHost.Proofs.Upkeep.Thread
import Mathlib.Data.Fintype.Card

/-!
# `ExtensionHost.Proofs.Upkeep.LeakFreedom`: a thread gives back all that it took

When a caller has released all references that it has, a run leaves nothing
behind, as long as no containers hold each other in a circle and no object was
referred to so often that it became immortal.

Three facts come together. Counts are exact (`World.Sound`), so an object that is
still there is in a slot of another one that is there. Going from an object to
one that holds it must come to an end, since there are finitely many objects and
no circle, so there is no object to start from (`Sound.nobody_left`). And blocks
in use are those of objects (`World.Provided`), so with the objects all blocks
are gone, and the counters, which are totals over blocks in use, are zero.

Nothing is said of how the references are released: the theorem is about every
order, and about every run, also one in which requests for storage were refused
while something was half made.
-/

set_option autoImplicit false

namespace ExtensionHost

namespace World

variable {w w' : World} {r s t : Ref} {object : Object} {owned : Multiset Ref} {ended : List Ref}

/-! ### Circles -/

/-- No object leads back to itself through slots. -/
def Acyclic (w : World) : Prop := ∀ r s, some s ∈ w.slots r → ¬ w.Leads s r

/-- Objects lead on to those that the objects they lead to lead to. -/
theorem Leads.trans (h : w.Leads r s) (h' : w.Leads s t) : w.Leads r t := by
  induction h' with
  | here => exact h
  | slot _ ht ih => exact .slot ih ht

/-- An object holds another one, directly or through others. -/
def Holds (w : World) (r s : Ref) : Prop := ∃ t, some t ∈ w.slots r ∧ w.Leads t s

/-- An object holds those that are held by what it holds. -/
theorem Holds.trans (h : w.Holds r s) (h' : w.Holds s t) : w.Holds r t := by
  obtain ⟨first, hfirst, hleads⟩ := h
  obtain ⟨second, hsecond, hleads'⟩ := h'
  exact ⟨first, hfirst, (Leads.slot hleads hsecond).trans hleads'⟩

/-- While objects go none begins to lead to another. -/
theorem Leaves.leads (h : w.Leaves ended w') (hleads : w'.Leads r s) : w.Leads r s := by
  induction hleads with
  | here => exact .here
  | slot _ ht ih => exact .slot ih (h.mem_slots ht)

/-- While objects go no cycle comes about. -/
theorem Leaves.acyclic (h : w.Leaves ended w') (hacyclic : w.Acyclic) : w'.Acyclic :=
  fun r s hs hleads => hacyclic r s (h.mem_slots hs) (h.leads hleads)

/-- Every object but the first ones may go. -/
def Mortal (w : World) : Prop :=
  ∀ r object, w.object? r = some object → 3 ≤ r → object.isImmortal = false

/-- While objects go no count becomes one that stays. -/
theorem Leaves.mortal (h : w.Leaves ended w') (hmortal : w.Mortal) : w'.Mortal := by
  intro r object hobject hle
  obtain ⟨-, before, hbefore, hcount, -⟩ := h.origin hobject
  have hlt := Int.lt_of_not_ge (of_decide_eq_false (hmortal r before hbefore hle))
  exact decide_eq_false (Int.not_le.2 (Int.lt_of_le_of_lt hcount hlt))

/-! ### Nobody is left -/

/-- When no references are left but those in slots, an object that is there is
held by another one that is there. -/
theorem Sound.exists_holder (h : w.Sound 0) (hmortal : w.Mortal)
    (hobject : w.object? r = some object) (hle : 3 ≤ r) :
    ∃ s, 3 ≤ s ∧ (w.object? s).isSome ∧ some r ∈ w.slots s := by
  have hn : w.count? r = some object.count := count?_of_object? hobject
  have hlt := Int.lt_of_not_ge (of_decide_eq_false (hmortal r object hobject hle))
  have hexact := h.counted.exact r _ hn hlt
  have hpos := h.counted.pos hn hlt
  rw [zero_add] at hexact
  -- the count is above zero, and the only references are in slots
  have hheld : r ∈ w.held [] := Multiset.count_pos.1 (by omega)
  obtain ⟨s, -, hs⟩ := mem_held.1 hheld
  have hslot := mem_contents.1 hs
  cases hholder : w.object? s with
  | none =>
    rw [slots_of_none hholder] at hslot
    cases hslot
  | some holder =>
    refine ⟨s, ?_, by rw [hholder]; rfl, hslot⟩
    -- the first objects have no slots
    by_contra hlt
    have hbody := (h.housed.first hholder (Nat.lt_of_not_le hlt)).2
    have hnone : w.slotsOf holder = [] := by
      rw [slotsOf, slotTable]
      rcases hbody with hbody | ⟨v, hbody⟩ <;> rw [hbody] <;> rfl
    rw [slots_of_object? hholder, hnone] at hslot
    cases hslot

/-- When nobody owns anything and no object holds itself, only the singletons are left. -/
theorem Sound.nobody_left (h : w.Sound 0) (hmortal : w.Mortal) (hacyclic : w.Acyclic)
    (hle : 3 ≤ r) : w.object? r = none := by
  cases hobject : w.object? r with
  | none => rfl
  | some object =>
    -- holding is a strict order on finitely many objects, so one of them is held by none
    let holds : Fin w.objects.size → Fin w.objects.size → Prop := fun a b => w.Holds a b
    have htrans : IsTrans _ holds := ⟨fun _ _ _ => Holds.trans⟩
    have hirrefl : Std.Irrefl holds := ⟨fun a ⟨t, ht, hleads⟩ => hacyclic a t ht hleads⟩
    have hwf : WellFounded holds := Finite.wellFounded_of_trans_of_irrefl holds
    have hstart : (⟨r, lt_size_of_object? hobject⟩ : Fin w.objects.size) ∈
        {a : Fin w.objects.size | 3 ≤ a.val ∧ (w.object? a).isSome} :=
      ⟨hle, by rw [hobject]; rfl⟩
    obtain ⟨top, ⟨htop, halive⟩, hnone⟩ := hwf.has_min _ ⟨_, hstart⟩
    obtain ⟨other, hother⟩ := Option.isSome_iff_exists.1 halive
    obtain ⟨s, hs, hsome, hslot⟩ := h.exists_holder hmortal hother htop
    obtain ⟨holder, hholder⟩ := Option.isSome_iff_exists.1 hsome
    exact absurd ⟨top.val, hslot, Leads.here⟩
      (hnone ⟨s, lt_size_of_object? hholder⟩ ⟨hs, hsome⟩)

/-! ### Nothing is left -/

/-- The small blocks in use and the bytes of large blocks that the thread's
allocator counts, and the large blocks of the process and their bytes. -/
def usage (w : World) : Nat × Nat × Int × Int :=
  (w.memory.theAllocator.inUse, w.memory.theAllocator.heapLive, w.memory.process.heapBlocks,
    w.memory.process.heapBytes)

/-- All objects but the first ones are gone, and with them all blocks. -/
theorem Provided.idle (h : w.Provided) (hgone : ∀ r, 3 ≤ r → w.object? r = none) (a : Address) :
    ¬ w.memory.process.Live a := by
  intro ha
  obtain ⟨r, object, hobject, hmem⟩ := h.owned a ha
  by_cases hle : 3 ≤ r
  · rw [hgone r hle] at hobject
    cases hobject
  · have hsingle := h.housed.singleton r (Nat.lt_of_not_le hle)
    rw [(object?_eq_some.1 hobject).1] at hsingle
    match r, hle with
    | 0, _ | 1, _ | 2, _ =>
      cases hsingle
      cases hmem
    | _ + 3, hle => exact hle (Nat.le_add_left 3 _)

/-- When all objects that were made are gone, the departures that were reported
are theirs, one for each. -/
theorem Provided.departures_perm (h : w.Provided) (hgone : ∀ r, 3 ≤ r → w.object? r = none) :
    w.memory.process.departures.Perm w.madeTypes := by
  -- the first objects never go, and of the others none is there
  have hfirst : (w.objects.toList.take 3).filterMap Object.parted? = [] := by
    rw [List.filterMap_eq_nil_iff]
    intro object hmem
    obtain ⟨r, hr⟩ := List.mem_iff_getElem?.1 hmem
    rw [List.getElem?_take] at hr
    split at hr
    · next hlt =>
      rw [Array.getElem?_toList, h.housed.singleton r hlt] at hr
      match r, hlt with
      | 0, _ | 1, _ | 2, _ =>
        cases hr
        rfl
    · cases hr
  have hrest : (w.objects.toList.drop 3).filterMap Object.parted? = w.madeTypes := by
    rw [madeTypes, ← List.filterMap_eq_map]
    refine List.filterMap_congr fun object hmem => ?_
    obtain ⟨r, hr⟩ := List.mem_iff_getElem?.1 hmem
    rw [List.getElem?_drop, Array.getElem?_toList] at hr
    have hnone := hgone (3 + r) (Nat.le_add_right 3 r)
    simp only [object?, hr] at hnone
    rw [Object.parted?]
    cases hlive : object.live with
    | true =>
      rw [hlive] at hnone
      cases hnone
    | false => rfl
  have hall : w.departed = (w.madeTypes : Multiset String) := by
    rw [departed, ← List.take_append_drop 3 w.objects.toList, List.filterMap_append, hfirst, hrest,
      List.nil_append]
  exact Multiset.coe_eq_coe.1 (h.told.trans hall)

/-- When no block is in use all counters are zero. -/
theorem Provided.usage_eq (h : w.Provided) (hidle : ∀ a, ¬ w.memory.process.Live a) :
    w.usage = (0, 0, 0, 0) := by
  obtain ⟨hinUse, hlive, hblocks, hbytes⟩ := h.tallied.idle hidle
  exact Prod.ext hinUse (Prod.ext hlive (Prod.ext hblocks hbytes))

end World

open World

/-- A thread that has no circle of containers and no object that became immortal
can release the references that it has in any order. Then every object that was
made is gone and was reported to have gone once, no block is in use any more, and
the counters are what they were before the run. -/
theorem leakFree_of_thread {strict : Bool} {system : System} {settings : AllocatorSettings}
    {w : World} {owned : Multiset Ref} (h : Thread strict system settings w owned)
    (hacyclic : w.Acyclic)
    (hmortal : w.Mortal) (order : List Ref) (horder : (order : Multiset Ref) = owned) :
    ∃ w', Host.releaseAll order w = .ok () w' ∧ (∀ r, 3 ≤ r → w'.object? r = none) ∧
      w'.memory.process.departures.Perm w.madeTypes ∧ (∀ a, ¬ w'.memory.process.Live a) ∧
      w'.usage = (World.new system settings).usage := by
  have hsound : w.Sound (↑order + 0) := by
    rw [add_zero, horder]
    exact h.sound
  obtain ⟨ended, w', hrun, hsound', hleaves⟩ := Box.releaseAll_leaves order hsound
  have hdeclines := declines_releaseAll h.provided hrun
  have hprovided := hdeclines.provided h.provided
  have hgone : ∀ r, 3 ≤ r → w'.object? r = none := fun r hle =>
    hsound'.nobody_left (hleaves.mortal hmortal) (hleaves.acyclic hacyclic) hle
  have hidle := hprovided.idle hgone
  refine ⟨w', hrun, hgone, ?_, hidle, hprovided.usage_eq hidle⟩
  rw [← hdeclines.madeTypes]
  exact hprovided.departures_perm hgone

/-- What an object holds was made before it. -/
theorem lt_of_mem_slots_withListInTuple {r s : Ref} (h : some s ∈ withListInTuple.slots r) :
    s < r := by
  match r with
  | 0 | 1 | 2 | 3 => exact nomatch (show some s ∈ ([] : List (Option Ref)) from h)
  | 4 =>
    obtain rfl := Option.some.inj (List.mem_singleton.1 (show some s ∈ [some 3] from h))
    decide
  | 5 =>
    obtain rfl := Option.some.inj (List.mem_singleton.1 (show some s ∈ [some 4] from h))
    decide
  | n + 6 =>
    rw [slots_of_none (by rfl)] at h
    cases h

/-- The owner of a tuple that holds a list and a tuple releases it, and nothing is left. -/
theorem leakFree_withListInTuple :
    ∃ w', Host.releaseAll [5] withListInTuple = .ok () w' ∧ (∀ r, 3 ≤ r → w'.object? r = none) ∧
      w'.memory.process.departures.Perm ["tuple", "list", "tuple"] ∧
      (∀ a, ¬ w'.memory.process.Live a) ∧ w'.usage = (0, 0, 0, 0) := by
  refine leakFree_of_thread (thread_withListInTuple true) ?_ ?_ [5] rfl
  · intro r s hs hleads
    -- what is reached from an object is not younger than it
    have hle : ∀ t, withListInTuple.Leads s t → t ≤ s := by
      intro t ht
      induction ht with
      | here => exact Nat.le_refl s
      | slot _ ht ih => exact (lt_of_mem_slots_withListInTuple ht).le.trans ih
    exact absurd (hle r hleads) (Nat.not_le.2 (lt_of_mem_slots_withListInTuple hs))
  · intro r object hobject hle
    match r, hle with
    | 3, _ | 4, _ | 5, _ =>
      cases hobject
      rfl
    | n + 6, _ => cases hobject

end ExtensionHost
