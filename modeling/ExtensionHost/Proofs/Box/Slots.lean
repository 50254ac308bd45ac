import ExtensionHost.Proofs.Box.Containers
import Mathlib.Tactic.Abel

/-!
# `ExtensionHost.Proofs.Box.Slots`: references that go into slots

Filling a slot moves one reference from the caller into the slot and another,
if there was an occupant, from the slot to whoever fills it, who releases it.
The references there are stay the same, only where they are kept changes, so
`World.Counted` does not notice (`Sound.filled`). What is left is a release.

The release may end any object, the container among them if the caller does
not own it. So all that can be said of other objects afterwards is that those
still there are what they were (`World.Keeps`). When the slot was empty nothing
is released and more is true: nothing goes (`World.Grows`).
-/

set_option autoImplicit false

namespace ExtensionHost

namespace World

variable {w w' w'' : World} {r s item : Ref} {object : Object} {owned : Multiset Ref}
  {ended filled : List Ref}

/-- An object that is still there is what it was. -/
def Keeps (w w' : World) : Prop :=
  ∀ s object, w.object? s = some object →
    w'.object? s = none ∨ ∃ count, w'.object? s = some { object with count }

/-- What leaves objects alone keeps their types and bodies. -/
theorem Leaves.keeps (h : w.Leaves ended w') : w.Keeps w' := by
  intro s object hs
  by_cases hmem : s ∈ ended
  · exact .inl (h.gone s hmem)
  · obtain ⟨count, hs', -⟩ := h.stays s object hs hmem
    exact .inr ⟨count, hs'⟩

/-- An object that the caller owns a reference to is what it was. -/
theorem Keeps.of_owned (h : w.Keeps w') (hsound : w'.Sound owned) (hr : r ∈ owned)
    (hobject : w.object? r = some object) : ∃ count, w'.object? r = some { object with count } := by
  rcases h r object hobject with hnone | hsome
  · have halive := hsound.alive hr
    rw [hnone] at halive
    cases halive
  · exact hsome

/-! ### Writing a slot -/

/-- The block at `a` holds the slots of an object from `start` on. -/
structure SlotsAt (object : Object) (a : Address) (start length : Nat) : Prop where
  mem : a ∈ object.blocks
  table : ∀ w : World, w.slotTable object = (length, w.memory.process.payload a, start)
  used : ∀ count capacity buffer, object.body = .list count capacity buffer →
    buffer = some a ∧ start = 0 ∧ count = length

/-- The slots of a tuple follow its header. -/
theorem slotsAt_tuple {a : Address} {length : Nat} (hbody : object.body = .tuple length)
    (hhome : object.home = some a) : SlotsAt object a contentStart length where
  mem := Object.mem_blocks.2 (.inr hhome)
  table w := by simp only [slotTable, payloadOf, hbody, hhome]
  used _ _ _ h := by
    rw [hbody] at h
    cases h

/-- The slots of a list fill its buffer from the start. -/
theorem slotsAt_list {a : Address} {length capacity : Nat}
    (hbody : object.body = .list length capacity (some a)) : SlotsAt object a 0 length where
  mem := Object.mem_blocks.2 (.inl (Object.buffer_eq_some.2 ⟨_, _, hbody⟩))
  table w := by simp only [slotTable, hbody]
  used _ _ _ h := by
    rw [hbody] at h
    cases h
    exact ⟨rfl, rfl, rfl⟩

/-- The world after a block was written. -/
def written (w : World) (a : Address) (f : Payload → Payload) : World :=
  w.withMemory { w.memory with process := w.memory.process.modifyPayload a f }

/-- Only the object that the block belongs to can notice. -/
theorem slots_written_of_ne (hhoused : w.Housed) (hobject : w.object? r = some object) {a : Address}
    (ha : a ∈ object.blocks) (hs : s ≠ r) (f : Payload → Payload) :
    (w.written a f).slots s = w.slots s := by
  cases hother : w.object? s with
  | none =>
    rw [slots_of_none hother, slots_of_none (show (w.written a f).object? s = _ from hother)]
  | some other =>
    rw [slots_of_object? hother, slots_of_object? (show (w.written a f).object? s = _ from hother)]
    refine slotsOf_congr fun b hb => Process.payload_modifyPayload_of_ne ?_ _
    rintro rfl
    exact hs (hhoused.apart s r other object hother hobject b hb ha)

/-- A block of an object may be written as long as the unused slots of a list
stay empty. -/
theorem Housed.written (h : w.Housed) (hobject : w.object? r = some object) {a : Address}
    (ha : a ∈ object.blocks) (f : Payload → Payload)
    (hunused : ∀ length capacity b, object.body = .list length capacity (some b) →
      ∀ i, length ≤ i → i < capacity →
        ((w.written a f).memory.process.payload b).word? (slotSize * i) = none) :
    (w.written a f).Housed := by
  refine h.change (r := r) (h.memory.modifyPayload a f) (fun _ _ => rfl) (fun _ _ => rfl)
    (fun s other hs hother b hb => ?_) fun found hfound => ?_
  · refine Process.getElem?_modifyPayload_of_ne ?_ f
    rintro rfl
    exact hs (h.apart s r other object hother hobject b hb ha)
  · obtain rfl : found = object := by
      have hsame := hfound.symm.trans hobject
      cases hsame
      rfl
    have hin := h.housed r found hobject
    refine ⟨fun hle => h.fits r found hobject hle, ⟨fun b hb => ?_, hin.nodup, hin.roomy.bare,
      fun length capacity b hbody => ?_, hunused⟩, ?_⟩
    · exact (Process.live_modifyPayload _ _ _ _).2 (hin.live b hb)
    · rw [show (w.written a f).memory.process.kind b = _ from Process.kind_modifyPayload _ _ _ _]
      exact hin.roomy.within length capacity b hbody
    · intro s other hs hother b hb hmem
      exact hs (h.apart s r other found hother hobject b hmem hb)

variable {a : Address} {start length index : Nat}

/-- Writing a word into a slot changes that slot. -/
theorem slotsOf_written (hat : SlotsAt object a start length) (hlive : w.memory.process.Live a)
    (index : Nat) (item : Ref) :
    (w.written a (·.setWord (start + slotSize * index) (some item))).slotsOf object =
      (w.slotsOf object).set index (some item) := by
  apply List.ext_getElem?
  intro i
  have hpayload :
      (w.written a (·.setWord (start + slotSize * index) (some item))).memory.process.payload a =
        (w.memory.process.payload a).setWord (start + slotSize * index) (some item) :=
    Process.payload_modifyPayload_self (Process.lt_size_of_live hlive) _
  simp only [slotsOf, hat.table, hpayload, List.getElem?_set, List.getElem?_map, List.length_map,
    List.length_range]
  by_cases hi : i < length
  · rw [List.getElem?_range hi, Option.map_some, Option.map_some, Payload.word?_setWord]
    by_cases hindex : index = i
    · rw [if_pos (by rw [hindex]), if_pos hindex, if_pos (by rw [hindex]; exact hi)]
    · have hne : start + slotSize * i ≠ start + slotSize * index := fun heq =>
        hindex (Nat.eq_of_mul_eq_mul_left (by decide : 0 < slotSize) (by omega)).symm
      rw [if_neg hne, if_neg hindex]
  · rw [List.getElem?_eq_none (by simpa using hi), Option.map_none, Option.map_none]
    by_cases hindex : index = i
    · rw [if_pos hindex, if_neg (by rw [hindex]; exact hi)]
    · rw [if_neg hindex]

/-- The occupant of a slot as a reference that can be moved. -/
def occupantOf (slots : List (Option Ref)) (index : Nat) : Multiset Ref :=
  match slots[index]? with
  | some (some old) => {old}
  | _ => 0

/-- What stands in the slots and what comes out of them is what stood in them
and what goes in. -/
theorem filterMap_set (slots : List (Option Ref)) (hindex : index < slots.length) (item : Ref) :
    (((slots.set index (some item)).filterMap id : List Ref) : Multiset Ref) +
        occupantOf slots index =
      item ::ₘ ((slots.filterMap id : List Ref) : Multiset Ref) := by
  induction slots generalizing index with
  | nil => cases hindex
  | cons slot slots ih =>
    -- by induction on the slots, the occupant being the one of the first slot or of a later
    -- one
    cases index with
    | zero =>
      cases slot with
      | none =>
        simp [occupantOf]
      | some old =>
        simp only [occupantOf, List.set_cons_zero, List.getElem?_cons_zero, List.filterMap_cons, id]
        rw [add_comm, Multiset.singleton_add, Multiset.cons_coe, Multiset.cons_coe]
        exact Multiset.coe_eq_coe.2 (List.Perm.swap _ _ _)
    | succ index =>
      have htail := ih (Nat.lt_of_succ_lt_succ hindex)
      have hoccupant : occupantOf (slot :: slots) (index + 1) = occupantOf slots index := by
        simp only [occupantOf, List.getElem?_cons_succ]
      rw [hoccupant, List.set_cons_succ]
      cases slot with
      | none => simpa using htail
      | some old =>
        have hsome : id (some old) = some old := rfl
        rw [List.filterMap_cons_some hsome, List.filterMap_cons_some hsome, ← Multiset.cons_coe,
          ← Multiset.cons_coe, Multiset.cons_add, htail, Multiset.cons_swap]

/-- A slot that is in use may be written. -/
theorem Housed.slotWritten (h : w.Housed) (hobject : w.object? r = some object)
    (hat : SlotsAt object a start length) (hindex : index < length) (item : Ref) :
    (w.written a (·.setWord (start + slotSize * index) (some item))).Housed := by
  have hlive := (h.housed r object hobject).live a hat.mem
  refine h.written hobject hat.mem _ fun count capacity b hbody i hle hlt => ?_
  -- the slot that is written is in use, so none of the others is touched
  obtain ⟨hb, rfl, rfl⟩ := hat.used count capacity (some b) hbody
  obtain rfl : b = a := Option.some.inj hb
  have hne : slotSize * i ≠ 0 + slotSize * index := by
    intro heq
    have : i = index := Nat.eq_of_mul_eq_mul_left (by decide : 0 < slotSize) (by omega)
    omega
  rw [show (w.written b _).memory.process.payload b = _ from
    Process.payload_modifyPayload_self (Process.lt_size_of_live hlive) _, Payload.word?_setWord,
    if_neg hne]
  exact (h.housed r object hobject).roomy.unused count capacity b hbody i hle hlt

/-- An item that the caller owns is put into a slot, and the caller owns what
was there. -/
theorem Sound.written (h : w.Sound (item ::ₘ owned)) (hobject : w.object? r = some object)
    (hat : SlotsAt object a start length) (hindex : index < length) :
    (w.written a (·.setWord (start + slotSize * index) (some item))).Sound
      (occupantOf (w.slots r) index + owned) := by
  have hlive := (h.housed.housed r object hobject).live a hat.mem
  refine ⟨h.housed.slotWritten hobject hat hindex item, ?_, h.pending, h.draining⟩
  have hslots : (w.slots r).length = length := by
    rw [slots_of_object? hobject, slotsOf, hat.table, List.length_map, List.length_range]
  have hcontents :
      ((w.written a (·.setWord (start + slotSize * index) (some item))).contents r : Multiset Ref) +
        occupantOf (w.slots r) index = item ::ₘ (w.contents r : Multiset Ref) := by
    have hafter : (w.written a (·.setWord (start + slotSize * index) (some item))).contents r =
        ((w.slots r).set index (some item)).filterMap id := by
      rw [contents, slots_of_object? (show (w.written a _).object? r = _ from hobject),
        slotsOf_written hat hlive, slots_of_object? hobject]
    rw [hafter]
    exact filterMap_set (w.slots r) (by rw [hslots]; exact hindex) item
  have hothers : (w.written a (·.setWord (start + slotSize * index) (some item))).held [r] =
      w.held [r] := held_congr fun s => by
    by_cases hs : s ∈ [r]
    · rw [if_pos hs, if_pos hs]
    · rw [if_neg hs, if_neg hs, contents, contents, slots_written_of_ne h.housed hobject hat.mem
        (fun heq => hs (List.mem_singleton.2 heq))]
  -- the references are the same, and so are the counts
  have hrefs : occupantOf (w.slots r) index + owned +
      (w.written a (·.setWord (start + slotSize * index) (some item))).held [] =
      item ::ₘ owned + w.held [] := by
    rw [held_split (List.not_mem_nil : r ∉ []), held_split (List.not_mem_nil : r ∉ []), hothers,
      Multiset.cons_add, ← Multiset.add_cons, ← Multiset.cons_add, ← hcontents]
    abel
  rw [hrefs]
  exact h.counted.congr fun _ => rfl

end World

namespace Box

open World

variable {w w' : World} {r item : Ref} {object : Object} {owned : Multiset Ref} {a : Address}
  {start length index : Nat}

/-- What a slot that was filled leaves: the item is the container's, and then
what was there before is released. -/
structure Filled (w : World) (r : Ref) (index : Nat) (item : Ref) (owned : Multiset Ref)
    (w' : World) : Prop where
  sound : w'.Sound owned
  put : ∃ w₁ : World, (∀ s, w₁.object? s = w.object? s) ∧
    w₁.slots r = (w.slots r).set index (some item) ∧ (∀ s, s ≠ r → w₁.slots s = w.slots s) ∧
    w₁.Released (w.slots r)[index]?.join w'

/-- Filling a slot keeps the types and bodies of objects. -/
theorem Filled.keeps (h : Filled w r index item owned w') : w.Keeps w' := by
  obtain ⟨w₁, hobject, -, -, hreleased⟩ := h.put
  intro s object hs
  rcases hreleased.remains s with hnone | ⟨found, count, hfound, hs', -⟩
  · exact .inl hnone
  · rw [hobject, hs] at hfound
    cases hfound
    exact .inr ⟨count, hs'⟩

/-- Nothing goes when nothing was there. -/
theorem Filled.grows (h : Filled w r index item owned w')
    (hempty : (w.slots r)[index]? = some none) :
    w.Grows [r] w' ∧ w'.slots r = (w.slots r).set index (some item) := by
  obtain ⟨w₁, hobject, hslots, hothers, hreleased⟩ := h.put
  rw [hempty] at hreleased
  cases hreleased with
  | nothing hsame =>
    refine ⟨⟨fun s object hs => ?_, fun s object hs hne => ?_⟩, (hsame.slots r).trans hslots⟩
    · exact ⟨object.count, ((hsame.object s).trans (hobject s)).trans hs⟩
    · exact (hsame.slots s).trans (hothers s fun heq => hne (List.mem_singleton.2 heq))

/-- A slot is filled first, and then the old occupant is released. -/
theorem run_fillSlot (w : World) (a offset : Nat) (item : Ref) :
    fillSlot a offset item w =
      match (w.memory.process.payload a).word? offset with
      | some old => World.release old (w.written a (·.setWord offset (some item)))
      | none => .ok () (w.written a (·.setWord offset (some item))) := by
  cases hword : (w.memory.process.payload a).word? offset with
  | none =>
    rw [fillSlot, Host.run_bind_ok (Host.run_get w), Host.run_bind_ok (Host.run_modify _ w), hword]
    rfl
  | some old =>
    rw [fillSlot, Host.run_bind_ok (Host.run_get w), Host.run_bind_ok (Host.run_modify _ w), hword]
    rfl

/-- Filling a slot takes the item over and gives the old occupant up. -/
theorem fillSlot_spec (h : w.Sound (item ::ₘ owned)) (hobject : w.object? r = some object)
    (hat : SlotsAt object a start length) (hindex : index < length) :
    ∃ w', fillSlot a (start + slotSize * index) item w = .ok () w' ∧
      Filled w r index item owned w' := by
  have hwritten := h.written hobject hat hindex
  have hlive := (h.housed.housed r object hobject).live a hat.mem
  have hold : (w.slots r)[index]? =
      some ((w.memory.process.payload a).word? (start + slotSize * index)) := by
    rw [slots_of_object? hobject, slotsOf, hat.table, List.getElem?_map,
      List.getElem?_range hindex, Option.map_some]
  have hslots : (w.written a (·.setWord (start + slotSize * index) (some item))).slots r =
      (w.slots r).set index (some item) := by
    rw [slots_of_object? (show (w.written a _).object? r = _ from hobject),
      slotsOf_written hat hlive, slots_of_object? hobject]
  have hothers : ∀ s, s ≠ r →
      (w.written a (·.setWord (start + slotSize * index) (some item))).slots s = w.slots s :=
    fun s hs => slots_written_of_ne h.housed hobject hat.mem hs _
  -- the item is written before the old occupant is released, so the routine that may run
  -- then finds it there
  rw [run_fillSlot]
  cases hword : (w.memory.process.payload a).word? (start + slotSize * index) with
  | none =>
    rw [hword] at hold
    have hoccupant : occupantOf (w.slots r) index = 0 := by rw [occupantOf, hold]
    rw [hoccupant, zero_add] at hwritten
    refine ⟨_, rfl, hwritten, w.written a _, fun s => rfl, hslots, hothers, ?_⟩
    rw [hold]
    exact .nothing (.refl _)
  | some old =>
    rw [hword] at hold
    have hoccupant : occupantOf (w.slots r) index = {old} := by rw [occupantOf, hold]
    rw [hoccupant, Multiset.singleton_add] at hwritten
    obtain ⟨ended, w', hrun, hsound, hleaves⟩ := hwritten.release
    refine ⟨w', hrun, hsound, w.written a _, fun s => rfl, hslots, hothers, ?_⟩
    rw [hold]
    exact .once hrun hleaves.remains (.refl w')

/-! ### Setters -/

/-- An attempt that uses up a reference is refused: the reference is
released. -/
theorem consuming_refused {α : Type} {attempt : Attempt α} {e : ApiError} {w₁ : World}
    (h : w₁.Sound (item ::ₘ owned)) (hrun : attempt.run w = .ok (.error e) w₁) :
    ∃ w', (Attempt.consuming item attempt).run w = .ok (.error e) w' ∧ w'.Sound owned ∧
      w₁.Released (some item) w' ∧ w₁.Keeps w' := by
  obtain ⟨ended, w', hrelease, hsound, hleaves⟩ := h.release
  exact ⟨w', Attempt.run_consuming_error hrun hrelease, hsound,
    .once hrelease hleaves.remains (.refl w'), hleaves.keeps⟩

/-- A slot of a container is filled. -/
theorem Filled.effect {kind : ContainerKind} {sequence : Sequence} {shown : Int}
    (h : Filled w r index item owned w') (hview : kind.view w r = .ok sequence)
    (hindex : index < sequence.slots.length) :
    Effect w kind (some r) (.setItem index shown (some item)) (.ok .done) w' := by
  obtain ⟨w₁, hobject, hslots, hothers, hreleased⟩ := h.put
  have hbecomes := becomes_of_slots hview hobject hothers
  rw [hslots, ← slots_of_view hview] at hbecomes
  rw [← slots_of_view hview] at hreleased
  have hold := List.getElem?_eq_getElem hindex
  rw [hold] at hreleased
  exact .step rfl hview (.setItem hold) hbecomes hreleased

/-- An index outside a container is refused, and the item released. -/
theorem effect_setOutside {kind : ContainerKind} {sequence : Sequence} (i shown : Int)
    (hview : kind.view w r = .ok sequence) (hindex : ¬ (0 ≤ i ∧ i < sequence.slots.length))
    (hreleased : w.Released (some item) w') :
    Effect w kind (some r) (.setItem i shown (some item))
      (.error (.indexOutOfRange shown (Size.signed sequence.slots.length))) w' :=
  .step rfl hview (.setOutside hindex) (becomes_of_unchanged hview (.refl w)) hreleased

/-- The length of a tuple is the number of its slots. -/
theorem length_of_tuple (htuple : tupleObject w r = .ok (object, length)) :
    (w.slots r).length = length ∧ ContainerKind.tuple.view w r = .ok ⟨w.slots r, length⟩ := by
  obtain ⟨hobject, hsub, hbody⟩ := tupleObject_eq_ok.1 htuple
  refine ⟨?_, ContainerKind.view_tuple_eq_ok.2 ⟨object, length, hobject, hsub, hbody, rfl⟩⟩
  rw [slots_of_object? hobject, slotsOf, slotTable, hbody, List.length_map, List.length_range]

/-- A setter of a tuple uses up the item whatever happens. It succeeds when
there is such a slot. -/
theorem setTupleItem_spec (h : w.Sound (item ::ₘ owned)) (r : Ref) (index : Nat) :
    ∃ result w', (setTupleItem r index item).run w = .ok result w' ∧ w'.Sound owned ∧ w.Keeps w' ∧
      Effect w .tuple (some r) (.setItem index (Size.signed index) (some item))
        (result.map fun _ => .done) w' ∧
      ∀ object length, tupleObject w r = .ok (object, length) → index < length →
        result = .ok () ∧ Filled w r index item owned w' := by
  cases htuple : tupleObject w r with
  | error e =>
    have hread : (Attempt.read (tupleObject · r)).run w = .ok (.error e) w := by
      rw [Attempt.run_read, htuple]
    obtain ⟨w', hrun, hsound, hreleased, hkeeps⟩ := consuming_refused h hread
    have hview : ContainerKind.tuple.view w r = .error e := by
      show (tupleObject w r).map _ = _
      rw [htuple]
      rfl
    exact ⟨.error e, w', Attempt.run_bind_error hrun _, hsound, hkeeps,
      .noContainer nofun hview hreleased, nofun⟩
  | ok found =>
    obtain ⟨object, length⟩ := found
    obtain ⟨hobject, -, hbody⟩ := tupleObject_eq_ok.1 htuple
    obtain ⟨hlength, hview⟩ := length_of_tuple htuple
    have hread : (Attempt.consuming item (Attempt.read (tupleObject · r))).run w =
        .ok (.ok (object, length)) w :=
      Attempt.run_consuming_ok (by rw [Attempt.run_read, htuple])
    rw [setTupleItem, Attempt.run_bind_ok hread]
    by_cases hindex : index < length
    -- a tuple is none of the singletons, so it has a block to write to
    · have hle := h.housed.le_of_tuple hobject hbody
      obtain ⟨block, hhome⟩ := Option.isSome_iff_exists.1 (h.housed.fits r object hobject hle).home
      obtain ⟨w', hrun, hfilled⟩ := fillSlot_spec h hobject (slotsAt_tuple hbody hhome) hindex
      refine ⟨.ok (), w', ?_, hfilled.sound, hfilled.keeps, hfilled.effect hview (hlength ▸ hindex),
        fun _ _ _ _ => ⟨rfl, hfilled⟩⟩
      simp only [if_pos hindex, hhome]
      exact Attempt.run_lift_ok hrun
    · obtain ⟨w', hrun, hsound, hreleased, hkeeps⟩ :=
        consuming_refused h (Attempt.run_throw (α := Unit) (outOfRange index length) w)
      have houtside : ¬ (0 ≤ (index : Int) ∧ (index : Int) < ((w.slots r).length : Int)) := by
        omega
      have heffect := effect_setOutside index (Size.signed index) hview houtside hreleased
      simp only [hlength] at heffect
      refine ⟨.error (outOfRange index length), w', ?_, hsound, hkeeps, heffect,
        fun found n hfound hlt => ?_⟩
      · simp only [if_neg hindex]
        exact hrun
      · cases hfound
        exact absurd hlt hindex

/-! ### Tuples of items -/

/-- References that are given up one after the other, with what that leaves. -/
theorem releaseAll_leaves (items : List Ref) (h : w.Sound (↑items + owned)) :
    ∃ ended w', Host.releaseAll items w = .ok () w' ∧ w'.Sound owned ∧ w.Leaves ended w' := by
  induction items generalizing w with
  | nil =>
    rw [Multiset.coe_nil, zero_add] at h
    exact ⟨[], w, rfl, h, .refl w⟩
  | cons item rest ih =>
    rw [← Multiset.cons_coe, Multiset.cons_add] at h
    obtain ⟨ended, w₁, hrun₁, hsound₁, hleaves₁⟩ := h.release
    obtain ⟨ended', w₂, hrun₂, hsound₂, hleaves₂⟩ := ih hsound₁
    refine ⟨ended ++ ended', w₂, ?_, hsound₂, hleaves₁.trans hleaves₂⟩
    rw [Host.releaseAll, Host.run_bind_ok (show Host.release item w = _ from hrun₁)]
    exact hrun₂

/-- References that the caller has can be released one after the other, in any order. -/
theorem releaseAll_spec (items : List Ref) (h : w.Sound (↑items + owned)) :
    ∃ w', Host.releaseAll items w = .ok () w' ∧ w'.Sound owned := by
  obtain ⟨_, w', hrun, hsound, -⟩ := releaseAll_leaves items h
  exact ⟨w', hrun, hsound⟩

/-- The object is a tuple of a length. -/
def IsTuple (w : World) (r : Ref) (length : Nat) : Prop :=
  ∃ object, tupleObject w r = .ok (object, length)

/-- A tuple that the caller owns stays one. -/
theorem IsTuple.of_keeps {length : Nat} (h : IsTuple w r length) (hkeeps : w.Keeps w')
    (hsound : w'.Sound owned) (hr : r ∈ owned) : IsTuple w' r length := by
  obtain ⟨object, htuple⟩ := h
  obtain ⟨hobject, hsub, hbody⟩ := tupleObject_eq_ok.1 htuple
  obtain ⟨count, hobject'⟩ := hkeeps.of_owned hsound hr hobject
  exact ⟨_, tupleObject_eq_ok.2 ⟨hobject', hsub, hbody⟩⟩

/-- The slots of a tuple that the caller owns take all the items. -/
theorem fillTuple_spec {length : Nat} (items : List Ref) (index : Nat)
    (h : w.Sound (↑items + owned)) (hr : r ∈ owned) (htuple : IsTuple w r length)
    (hroom : index + items.length ≤ length) :
    ∃ w', (fillTuple r index items).run w = .ok (.ok ()) w' ∧ w'.Sound owned := by
  induction items generalizing w index with
  | nil =>
    rw [Multiset.coe_nil, zero_add] at h
    exact ⟨w, rfl, h⟩
  | cons item rest ih =>
    rw [← Multiset.cons_coe, Multiset.cons_add] at h
    rw [List.length_cons] at hroom
    obtain ⟨object, hobject⟩ := htuple
    obtain ⟨result, w₁, hrun₁, hsound₁, hkeeps₁, -, hset⟩ := setTupleItem_spec h r index
    obtain ⟨rfl, -⟩ := hset object length hobject (by omega)
    have htuple₁ := IsTuple.of_keeps ⟨object, hobject⟩ hkeeps₁ hsound₁
      (Multiset.mem_add.2 (.inr hr))
    obtain ⟨w₂, hrun₂, hsound₂⟩ := ih (index + 1) hsound₁ htuple₁ (by omega)
    refine ⟨w₂, ?_, hsound₂⟩
    rw [fillTuple, Attempt.run_bind_ok hrun₁]
    exact hrun₂

/-- The objects of a type can be tuples when the type has room for slots. -/
structure MakesTuples (type : TypeObject) : Prop where
  routine : type.routine = .tuple
  basicSize : contentStart ≤ type.basicSize
  itemSize : slotSize ≤ type.itemSize

/-- A new tuple is an object of its type with as many empty slots. -/
theorem creates_newTupleOf {type : TypeObject} (h : MakesTuples type) (length : Nat) :
    Creates (newTupleOf type length) type (.tuple length) := by
  refine creates_newSized ⟨by rw [h.routine]; nofun, fun n hn => ⟨h.routine, ?_⟩, nofun⟩
  obtain rfl : length = n := by cases hn; rfl
  rw [Nat.add_comm]
  exact Nat.add_le_add (Nat.mul_le_mul_right length h.itemSize) h.basicSize

/-- The type of tuples makes tuples. -/
theorem creates_newTuple (length : Nat) : Creates (newTuple length) .tuple (.tuple length) :=
  creates_newTupleOf ⟨rfl, Nat.le_refl _, Nat.le_refl _⟩ length

/-- A tuple of items takes over the references to them, or releases them. -/
theorem tupleOf_spec (items : List Ref) (h : w.Sound (↑items + owned)) :
    ∃ result w', (tupleOf items).run w = .ok result w' ∧ w'.Sound (gained result + owned) := by
  obtain ⟨result, w₁, hrun₁, hsound₁, -, hmade⟩ := creates_newTuple items.length w _ h
  have hfirst : (monadLift (newTuple items.length).run : Attempt _).run w = .ok (.ok result) w₁ :=
    Attempt.run_lift_ok hrun₁
  cases result with
  | error e =>
    rw [gained_error] at hsound₁
    obtain ⟨w₂, hrun₂, hsound₂⟩ := releaseAll_spec items hsound₁
    refine ⟨.error e, w₂, ?_, hsound₂.refused e⟩
    rw [tupleOf, Attempt.run_bind_ok hfirst]
    exact Attempt.run_bind_ok (Attempt.run_lift_ok hrun₂) _
  | ok r =>
    obtain ⟨-, ⟨home, hobject⟩, -⟩ := hmade r rfl
    rw [gained, add_left_comm] at hsound₁
    obtain ⟨w₂, hrun₂, hsound₂⟩ := fillTuple_spec items 0 hsound₁
      (Multiset.mem_add.2 (.inl (Multiset.mem_singleton_self r)))
      ⟨_, tupleObject_eq_ok.2 ⟨hobject, rfl, rfl⟩⟩ (by omega)
    refine ⟨.ok r, w₂, ?_, hsound₂⟩
    rw [tupleOf, Attempt.run_bind_ok hfirst]
    exact Attempt.run_bind_ok hrun₂ _

/-! ### What the caller gives and gets -/

/-- Setting an item of a tuple takes the reference over. -/
theorem accounts_setTupleItem (r : Ref) (index : Nat) (item : Ref) :
    Accounts [] {item} (setTupleItem r index item).run fun _ => 0 := by
  intro w kept hsound _
  rw [Multiset.singleton_add] at hsound
  obtain ⟨result, w', hrun, hsound', -⟩ := setTupleItem_spec hsound r index
  exact ⟨result, w', hrun, by rw [zero_add]; exact hsound'⟩

/-- A tuple that is made of items takes all of them over, even if it is refused. -/
theorem accounts_tupleOf (items : List Ref) : Accounts [] ↑items (tupleOf items).run gained :=
  fun _ _ hsound _ => tupleOf_spec items hsound

/-- An attempt that makes an object takes no reference and gives one. -/
theorem accounts_of_creates {attempt : Attempt Ref} {type : TypeObject} {body : Body}
    (h : Creates attempt type body) : Accounts [] 0 attempt.run gained := by
  intro w kept hsound _
  rw [zero_add] at hsound
  obtain ⟨result, w', hrun, hsound', -⟩ := h w kept hsound
  exact ⟨result, w', hrun, hsound'⟩

end Box

end ExtensionHost
