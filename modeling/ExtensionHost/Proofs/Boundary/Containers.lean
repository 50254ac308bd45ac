import ExtensionHost.Proofs.Boundary.Conservation

/-!
# `ExtensionHost.Proofs.Boundary.Containers`: containers refine sequences

A container can be called on from the inside, with an object and an index, and
from foreign code, with pointers and signed words; `Performs` lists the ways.
Each of them is one call on the sequence that the container holds, with the
effect that `Box.Effect` describes (`Performs.effect`). A run is any number of
such calls on any containers. Whoever keeps a reference to a container through
a run finds that it has become what the calls on it make of the sequence
(`view_of_run`).

Nothing is assumed of the storage: it may be refused at any time, and what a
block holds when it is handed out is arbitrary.
-/

set_option autoImplicit false

namespace ExtensionHost

open World Box

namespace Box

variable {w w' : World} {r : Ref} {index : Nat} {owned : Multiset Ref} {kind : ContainerKind}

/-! ### Calls from the inside -/

/-- The length of a container. -/
def ContainerKind.length : ContainerKind → World → Ref → Except ApiError Nat
  | .tuple => tupleLength
  | .list => listLength

/-- The occupant of a slot of a container. -/
def ContainerKind.item : ContainerKind → World → Ref → Nat → Except ApiError Ref
  | .tuple => tupleItem
  | .list => listItem

/-- Fills a slot of a container. -/
def ContainerKind.set : ContainerKind → Ref → Nat → Ref → Attempt Unit
  | .tuple => setTupleItem
  | .list => setListItem

/-- The length of a container is the length of the sequence that it shows. -/
theorem length_eq (h : w.Sound owned) (kind : ContainerKind) (r : Ref) :
    kind.length w r = (kind.view w r).map fun sequence => sequence.slots.length := by
  cases kind with
  | tuple =>
    show tupleLength w r = ((tupleObject w r).map _).map _
    rw [tupleLength]
    cases htuple : tupleObject w r with
    | error e => rfl
    | ok found => exact congrArg Except.ok (length_of_tuple htuple).1.symm
  | list =>
    show listLength w r = ((listObject w r).map _).map _
    rw [listLength]
    cases hlist : listObject w r with
    | error e => rfl
    | ok found => exact congrArg Except.ok (length_of_list h hlist).1.symm

/-- The occupant of a slot in a sequence, or why there is none. -/
def occupantIn (sequence : Sequence) (index : Nat) : Except ApiError Ref :=
  match sequence.slots[index]? with
  | none => .error (outOfRange index sequence.slots.length)
  | some none => .error (.uninitializedSlot (Size.signed index))
  | some (some r) => .ok r

/-- Looking up an occupant is looking up the sequence. -/
theorem occupant_eq {object : Object} {length capacity : Nat} (hobject : w.object? r = some object)
    (hlength : (w.slots r).length = length) :
    occupant w object length index = occupantIn ⟨w.slots r, capacity⟩ index := by
  have hslot : w.slot? object index = (w.slots r)[index]? := by
    rw [slot?_eq_getElem?_slotsOf, slots_of_object? hobject]
  subst hlength
  cases hread : (w.slots r)[index]? with
  | none => simp only [occupant, occupantIn, hslot, hread]
  | some slot => cases slot <;> simp only [occupant, occupantIn, hslot, hread]

/-- Reading an item is reading the sequence that the container shows. -/
theorem item_eq (h : w.Sound owned) (kind : ContainerKind) (r : Ref) (index : Nat) :
    kind.item w r index = (kind.view w r).bind fun sequence => occupantIn sequence index := by
  cases kind with
  | tuple =>
    show tupleItem w r index = ((tupleObject w r).map _).bind _
    rw [tupleItem]
    cases htuple : tupleObject w r with
    | error e => rfl
    | ok found => exact occupant_eq (tupleObject_eq_ok.1 htuple).1 (length_of_tuple htuple).1
  | list =>
    show listItem w r index = ((listObject w r).map _).bind _
    rw [listItem]
    cases hlist : listObject w r with
    | error e => rfl
    | ok found => exact occupant_eq (listObject_eq_ok.1 hlist).1 (length_of_list h hlist).1

/-- Setting an item is a step of the sequence, and whatever is wrong the item is taken over. -/
theorem set_spec {item : Ref} (h : w.Sound (item ::ₘ owned)) (kind : ContainerKind) (r : Ref)
    (index : Nat) :
    ∃ result w', (kind.set r index item).run w = .ok result w' ∧ w'.Sound owned ∧
      Effect w kind (some r) (.setItem index (Size.signed index) (some item))
        (result.map fun _ => .done) w' := by
  cases kind with
  | tuple =>
    obtain ⟨result, w', hrun, hsound, -, heffect, -⟩ := setTupleItem_spec h r index
    exact ⟨result, w', hrun, hsound, heffect⟩
  | list => exact setListItem_spec h r index

/-- What is only looked at stays as it is. -/
theorem effect_of_look {call : Sequence.Call} {sequence : Sequence}
    {reply : Except ApiError Sequence.Reply} (hview : kind.view w r = .ok sequence)
    (hstep : Sequence.Step call sequence reply sequence none) :
    Effect w kind (some r) call reply w :=
  .step rfl hview hstep (becomes_of_unchanged hview (.refl w)) (.nothing (.refl w))

/-- What is no container answers a call that brings no item with its error and changes
nothing. -/
theorem effect_of_noContainer {container : Option Ref} {call : Sequence.Call} {e : ApiError}
    (hitem : call.item = none) (hpresent : ¬ call.LacksItem)
    (hview : kind.viewAt w container = .error e) : Effect w kind container call (.error e) w := by
  refine .noContainer hpresent hview ?_
  rw [hitem]
  exact .nothing (.refl w)

/-- Reading a slot that a sequence has. -/
theorem step_occupantIn {sequence : Sequence} {shown : Int}
    (hindex : index < sequence.slots.length) :
    Sequence.Step (.getItem index shown) sequence ((occupantIn sequence index).map .item)
      sequence none := by
  have hslot := List.getElem?_eq_getElem hindex
  rw [occupantIn]
  cases hold : sequence.slots[index] with
  | none =>
    rw [hold] at hslot
    simp only [hslot]
    exact .getEmpty hslot
  | some found =>
    rw [hold] at hslot
    simp only [hslot]
    exact .getItem hslot

/-- Reading an item is a step that changes nothing. -/
theorem effect_item (h : w.Sound owned) (kind : ContainerKind) (r : Ref) (index : Nat) :
    Effect w kind (some r) (.getItem index (Size.signed index))
      ((kind.item w r index).map .item) w := by
  rw [item_eq h]
  cases hview : kind.view w r with
  | error e => exact effect_of_noContainer rfl nofun hview
  | ok sequence =>
    refine effect_of_look hview ?_
    by_cases hindex : index < sequence.slots.length
    · exact step_occupantIn hindex
    · show Sequence.Step _ _ ((occupantIn sequence index).map .item) _ _
      rw [occupantIn, List.getElem?_eq_none (Nat.le_of_not_lt hindex)]
      exact .getOutside (by omega)

/-- Inside a sequence it does not matter how an index would be reported. -/
theorem Effect.of_inside {item : Ref} {i : Int} {sequence : Sequence}
    {reply : Except ApiError Sequence.Reply}
    (h : Effect w kind (some r) (.setItem i.toNat (Size.signed i.toNat) (some item)) reply w')
    (hview : kind.view w r = .ok sequence) (hindex : 0 ≤ i ∧ i < sequence.slots.length) :
    Effect w kind (some r) (.setItem i i (some item)) reply w' := by
  obtain ⟨i, rfl⟩ := Int.eq_ofNat_of_zero_le hindex.1
  cases h with
  | noItem hitem => cases hitem
  | noContainer _ hnone =>
    rw [ContainerKind.viewAt, hview] at hnone
    cases hnone
  | step hcontainer hview' hstep hbecomes hreleased =>
    cases hcontainer
    rw [hview] at hview'
    cases hview'
    cases hstep with
    | setItem hold => exact .step rfl hview (.setItem hold) hbecomes hreleased
    | setOutside houtside => exact absurd hindex houtside
    | noItem hitem => cases hitem

/-- Asking for the length is a step that changes nothing. -/
theorem effect_length (h : w.Sound owned) (kind : ContainerKind) (r : Ref) :
    Effect w kind (some r) .length ((kind.length w r).map .number) w := by
  rw [length_eq h]
  cases hview : kind.view w r with
  | error e => exact effect_of_noContainer rfl nofun hview
  | ok sequence => exact effect_of_look hview .length

/-- Asking for the capacity is a step that changes nothing. -/
theorem effect_capacity (w : World) (r : Ref) :
    Effect w .list (some r) .capacity ((listCapacity w r).map .number) w := by
  rw [listCapacity]
  cases hlist : listObject w r with
  | error e => exact effect_of_noContainer rfl nofun (view_of_list_error hlist)
  | ok found =>
    obtain ⟨object, length, capacity, buffer⟩ := found
    obtain ⟨hobject, hsub, hbody⟩ := listObject_eq_ok.1 hlist
    exact effect_of_look (ContainerKind.view_list_eq_ok.2
      ⟨object, length, capacity, buffer, hobject, hsub, hbody, rfl⟩) .capacity

end Box

namespace Boundary

open Sequence (Call Reply)

variable {w w' : World} {r item : Ref} {owned kept : Multiset Ref} {kind : ContainerKind}
  {container : Pointer} {call : Call} {reply : Except ApiError Reply} {α : Type}

/-! ### Calls from foreign code -/

/-- A pointer to an occupant, or null. -/
def pointerFor : Except ApiError Reply → Pointer
  | .ok (.item r) => some r
  | _ => none

/-- Zero, or minus one for a refusal. -/
def statusFor : Except ApiError Reply → Int
  | .ok _ => 0
  | .error _ => -1

/-- A number, or minus one for a refusal. -/
def numberFor : Except ApiError Reply → Int
  | .ok (.number n) => Size.signed n
  | _ => -1

/-- An index inside is taken as it is. -/
theorem containerIndex_inside {index : Int} {length : Nat} (h : 0 ≤ index ∧ index < length) :
    containerIndex index length = .ok index.toNat := by rw [containerIndex, if_pos h]

/-- An index outside is refused, with the length. -/
theorem containerIndex_outside {index : Int} {length : Nat} (h : ¬ (0 ≤ index ∧ index < length)) :
    containerIndex index length = .error (.indexOutOfRange index (Size.signed length)) := by
  rw [containerIndex, if_neg h]

/-- A slot that is read from foreign code. -/
theorem getItem_spec (h : w.Sound owned) (kind : ContainerKind) (container : Pointer)
    (index : Int) :
    ∃ result, (getItem kind.length kind.item container index).run w = .ok result w ∧
      Effect w kind container (.getItem index index) (result.map .item) w := by
  cases container with
  | none => exact ⟨.error .nullReference, rfl, effect_of_noContainer rfl nofun rfl⟩
  | some r =>
    refine ⟨(kind.length w r).bind fun n => (containerIndex index n).bind fun i =>
      kind.item w r i, rfl, ?_⟩
    rw [length_eq h]
    cases hview : kind.view w r with
    | error e => exact effect_of_noContainer rfl nofun hview
    | ok sequence =>
      -- the index is checked against the length of the sequence, and only then is the slot
      -- read
      show Effect w kind (some r) _
        (((containerIndex index sequence.slots.length).bind fun i => kind.item w r i).map .item) w
      by_cases hindex : 0 ≤ index ∧ index < sequence.slots.length
      · rw [containerIndex_inside hindex]
        show Effect w kind (some r) _ ((kind.item w r index.toNat).map .item) w
        rw [item_eq h, hview]
        obtain ⟨i, rfl⟩ := Int.eq_ofNat_of_zero_le hindex.1
        exact effect_of_look hview (step_occupantIn (by omega))
      · rw [containerIndex_outside hindex]
        exact effect_of_look hview (.getOutside hindex)

/-- The checks before a slot is filled from foreign code. -/
def findSlot (kind : ContainerKind) (container : Pointer) (index : Int) : Attempt (Ref × Nat) := do
  let container ← Attempt.ofExcept (deref container)
  let length ← Attempt.read (kind.length · container)
  let index ← Attempt.ofExcept (containerIndex index length)
  return (container, index)

/-- The function of the boundary finds the slot, releasing the item if there is none,
and then sets it. -/
theorem setItem_eq (kind : ContainerKind) (container : Pointer) (index : Int) (item : Ref) :
    setItem kind.length kind.set container index (some item) = (do
      let (container, index) ← Attempt.consuming item (findSlot kind container index)
      kind.set container index item) := rfl

/-- Finding a slot reads the container and changes nothing. -/
theorem run_findSlot (w : World) (kind : ContainerKind) (r : Ref) (index : Int) :
    (findSlot kind (some r) index).run w =
      .ok ((kind.length w r).bind fun n => (containerIndex index n).map fun i => (r, i)) w := by
  show (Attempt.read (kind.length · r) >>= _).run w = _
  rw [Attempt.run_read_bind]
  cases kind.length w r with
  | error e => rfl
  | ok n =>
    show (Attempt.ofExcept (containerIndex index n) >>= _).run w =
      .ok ((containerIndex index n).map _) w
    rw [Attempt.run_bind, Attempt.run_ofExcept]
    cases containerIndex index n <;> rfl

/-- A slot that is filled from foreign code. -/
theorem setItem_spec {item : Pointer} (h : w.Sound (handed item + owned)) (kind : ContainerKind)
    (container : Pointer) (index : Int) :
    ∃ result w', (setItem kind.length kind.set container index item).run w = .ok result w' ∧
      w'.Sound owned ∧
      Effect w kind container (.setItem index index item) (result.map fun _ => .done) w' := by
  cases item with
  | none =>
    -- without an item there is no reference to give back
    rw [handed, zero_add] at h
    exact ⟨.error .nullReference, w, rfl, h, .noItem rfl (.refl w)⟩
  | some item =>
    rw [handed, Multiset.singleton_add] at h
    rw [setItem_eq]
    cases container with
    | none =>
      have hrun : (findSlot kind none index).run w = .ok (.error .nullReference) w := rfl
      -- every refusal from here on releases the item that was handed over
      obtain ⟨w', hrefused, hsound, hreleased, -⟩ := consuming_refused h hrun
      exact ⟨.error .nullReference, w', Attempt.run_bind_error hrefused _, hsound,
        .noContainer (Option.some_ne_none item) rfl hreleased⟩
    | some r =>
      have hrun := run_findSlot w kind r index
      rw [length_eq h] at hrun
      cases hview : kind.view w r with
      | error e =>
        rw [hview] at hrun
        obtain ⟨w', hrefused, hsound, hreleased, -⟩ := consuming_refused h hrun
        exact ⟨.error e, w', Attempt.run_bind_error hrefused _, hsound,
          .noContainer (Option.some_ne_none item) hview hreleased⟩
      | ok sequence =>
        rw [hview] at hrun
        replace hrun : (findSlot kind (some r) index).run w =
          .ok ((containerIndex index sequence.slots.length).map fun i => (r, i)) w := hrun
        by_cases hindex : 0 ≤ index ∧ index < sequence.slots.length
        · rw [containerIndex_inside hindex] at hrun
          -- the slot takes the item over, so nothing is left to release but its old
          -- occupant
          obtain ⟨result, w', hset, hsound, heffect⟩ := set_spec h kind r index.toNat
          refine ⟨result, w', ?_, hsound, heffect.of_inside hview hindex⟩
          rw [Attempt.run_bind_ok (Attempt.run_consuming_ok hrun)]
          exact hset
        · rw [containerIndex_outside hindex] at hrun
          obtain ⟨w', hrefused, hsound, hreleased, -⟩ := consuming_refused h hrun
          exact ⟨_, w', Attempt.run_bind_error hrefused _, hsound,
            effect_setOutside index index hview hindex hreleased⟩

/-- An item that is added from foreign code. -/
theorem listAppend_spec {item : Pointer} (h : w.Sound (handed item + owned)) (list : Pointer) :
    ∃ result w', (do
        let item ← Attempt.ofExcept (deref item)
        let list ← Attempt.consuming item (Attempt.ofExcept (deref list))
        Box.appendItem list item : Attempt Unit).run w = .ok result w' ∧
      w'.Sound owned ∧ Effect w .list list (.append item) (result.map fun _ => .done) w' := by
  cases item with
  | none =>
    rw [handed, zero_add] at h
    exact ⟨.error .nullReference, w, rfl, h, .noItem rfl (.refl w)⟩
  | some item =>
    rw [handed, Multiset.singleton_add] at h
    cases list with
    | none =>
      have hrun : (Attempt.ofExcept (deref none)).run w = .ok (.error .nullReference) w := rfl
      obtain ⟨w', hrefused, hsound, hreleased, -⟩ := consuming_refused h hrun
      exact ⟨.error .nullReference, w', Attempt.run_bind_error hrefused _, hsound,
        .noContainer (Option.some_ne_none item) rfl hreleased⟩
    | some r => exact appendItem_spec h r

/-! ### All the ways to call on a container -/

/-- The calls on containers, from the inside and from foreign code: the kind of
container and where it is, the call, the operation, and which answers go with
which replies. -/
inductive Performs : ContainerKind → Pointer → Call → {α : Type} → Host α →
    (α → Except ApiError Reply → Prop) → Prop
  | set (kind : ContainerKind) (r : Ref) (index : Nat) (item : Ref) :
      Performs kind (some r) (.setItem index (Size.signed index) (some item))
        (kind.set r index item).run fun answer reply => reply = answer.map fun _ => .done
  | append (r item : Ref) :
      Performs .list (some r) (.append (some item)) (appendItem r item).run
        fun answer reply => reply = answer.map fun _ => .done
  | item (kind : ContainerKind) (r : Ref) (index : Nat) :
      Performs kind (some r) (.getItem index (Size.signed index))
        (Attempt.read (kind.item · r index)).run fun answer reply => reply = answer.map .item
  | length (kind : ContainerKind) (r : Ref) :
      Performs kind (some r) .length (Attempt.read (kind.length · r)).run
        fun answer reply => reply = answer.map .number
  | capacity (r : Ref) :
      Performs .list (some r) .capacity (Attempt.read (listCapacity · r)).run
        fun answer reply => reply = answer.map .number
  | tupleSetItem (container : Pointer) (index : Int) (item : Pointer) :
      Performs .tuple container (.setItem index index item) (tupleSetItem container index item)
        fun answer reply => answer = statusFor reply
  | listSetItem (container : Pointer) (index : Int) (item : Pointer) :
      Performs .list container (.setItem index index item) (listSetItem container index item)
        fun answer reply => answer = statusFor reply
  | listAppend (container item : Pointer) :
      Performs .list container (.append item) (listAppend container item)
        fun answer reply => answer = statusFor reply
  | tupleGetItem (container : Pointer) (index : Int) :
      Performs .tuple container (.getItem index index) (tupleGetItem container index)
        fun answer reply => answer = pointerFor reply
  | listGetItem (container : Pointer) (index : Int) :
      Performs .list container (.getItem index index) (listGetItem container index)
        fun answer reply => answer = pointerFor reply
  | tupleSize (container : Pointer) :
      Performs .tuple container .length (tupleSize container)
        fun answer reply => answer = numberFor reply
  | listSize (container : Pointer) :
      Performs .list container .length (listSize container)
        fun answer reply => answer = numberFor reply

/-- A length that is asked for by pointer. -/
theorem size_spec (h : w.Sound owned) (kind : ContainerKind) (container : Pointer) :
    ∃ result, (readFrom container kind.length).run w = .ok result w ∧
      Effect w kind container .length (result.map .number) w := by
  cases container with
  | none => exact ⟨.error .nullReference, rfl, effect_of_noContainer rfl nofun rfl⟩
  | some r => exact ⟨kind.length w r, rfl, effect_length h kind r⟩

variable {operation : Host α} {answers : α → Except ApiError Reply → Prop}

/-- The answer of a function of the boundary goes with the reply to the call
that it makes. -/
theorem reporting_effect {β γ : Type} {attempt : Attempt γ} {result : Except ApiError γ}
    (f : γ → β) (toReply : γ → Reply) (answerFor : Except ApiError Reply → β) (entry : String)
    (failure : β) (hok : ∀ a, f a = answerFor (.ok (toReply a)))
    (herror : ∀ e, failure = answerFor (.error e)) (hrun : attempt.run w = .ok result w')
    (hsound : w'.Sound kept) (heffect : Effect w kind container call (result.map toReply) w') :
    ∃ answer reply w'', reporting entry failure (do return f (← attempt)) w = .ok answer w'' ∧
      answer = answerFor reply ∧ w''.Sound kept ∧ Effect w kind container call reply w'' := by
  have hreporting := run_reporting entry failure (do return f (← attempt)) w
  cases result with
  | ok a =>
    rw [Attempt.run_bind_ok hrun] at hreporting
    exact ⟨f a, .ok (toReply a), w', hreporting, hok a, hsound, heffect⟩
  | error e =>
    rw [Attempt.run_bind_error hrun] at hreporting
    exact ⟨failure, .error e, _, hreporting, herror e, hsound.report _,
      heffect.unchanged (unchanged_report w' _)⟩

/-- An attempt with an effect has the same effect when its success is answered with a status. -/
theorem status_effect {attempt : Attempt Unit} {result : Except ApiError Unit} (entry : String)
    (hrun : attempt.run w = .ok result w') (hsound : w'.Sound kept)
    (heffect : Effect w kind container call (result.map fun _ => .done) w') :
    ∃ answer reply w'', status entry attempt w = .ok answer w'' ∧ answer = statusFor reply ∧
      w''.Sound kept ∧ Effect w kind container call reply w'' :=
  reporting_effect (fun _ => 0) (fun _ => .done) statusFor entry (-1) (fun _ => rfl) (fun _ => rfl)
    hrun hsound heffect

/-- An attempt with an effect has the same effect when its reference is answered with a
pointer. -/
theorem pointer_effect {attempt : Attempt Ref} {result : Except ApiError Ref} (entry : String)
    (hrun : attempt.run w = .ok result w') (hsound : w'.Sound kept)
    (heffect : Effect w kind container call (result.map .item) w') :
    ∃ answer reply w'', newReference entry attempt w = .ok answer w'' ∧ answer = pointerFor reply ∧
      w''.Sound kept ∧ Effect w kind container call reply w'' :=
  reporting_effect some .item pointerFor entry none (fun _ => rfl) (fun _ => rfl) hrun hsound
    heffect

/-- An attempt with an effect has the same effect when its number is answered for
foreign code. -/
theorem number_effect {attempt : Attempt Nat} {result : Except ApiError Nat} (entry : String)
    (hrun : attempt.run w = .ok result w') (hsound : w'.Sound kept)
    (heffect : Effect w kind container call (result.map .number) w') :
    ∃ answer reply w'',
      reporting entry (-1) (do return Size.signed (← attempt)) w = .ok answer w'' ∧
        answer = numberFor reply ∧ w''.Sound kept ∧ Effect w kind container call reply w'' :=
  reporting_effect Size.signed .number numberFor entry (-1) (fun _ => rfl) (fun _ => rfl) hrun
    hsound heffect

/-- A call without an item takes over nothing. -/
theorem sound_of_noItem (h : w.Sound (handed none + kept)) : w.Sound kept := by
  rwa [handed, zero_add] at h

/-- Every call has its effect, whatever the storage grants. -/
theorem Performs.effect (h : Performs kind container call operation answers)
    (hsound : w.Sound (handed call.item + kept)) :
    ∃ answer reply w', operation w = .ok answer w' ∧ answers answer reply ∧ w'.Sound kept ∧
      Effect w kind container call reply w' := by
  -- the calls from inside come first; those of foreign code reduce to them and translate
  -- the result
  cases h with
  | set _ r index item =>
    obtain ⟨result, w', hrun, hsound', heffect⟩ :=
      set_spec ((Multiset.singleton_add item kept) ▸ hsound) kind r index
    exact ⟨result, _, w', hrun, rfl, hsound', heffect⟩
  | append r item =>
    obtain ⟨result, w', hrun, hsound', heffect⟩ :=
      appendItem_spec ((Multiset.singleton_add item kept) ▸ hsound) r
    exact ⟨result, _, w', hrun, rfl, hsound', heffect⟩
  | item _ r index =>
    have hsound := sound_of_noItem hsound
    exact ⟨_, _, w, rfl, rfl, hsound, effect_item hsound kind r index⟩
  | length _ r =>
    have hsound := sound_of_noItem hsound
    exact ⟨_, _, w, rfl, rfl, hsound, effect_length hsound kind r⟩
  | capacity r =>
    have hsound := sound_of_noItem hsound
    exact ⟨_, _, w, rfl, rfl, hsound, effect_capacity w r⟩
  | tupleSetItem _ index item =>
    obtain ⟨result, w', hrun, hsound', heffect⟩ := setItem_spec hsound .tuple container index
    exact status_effect _ hrun hsound' heffect
  | listSetItem _ index item =>
    obtain ⟨result, w', hrun, hsound', heffect⟩ := setItem_spec hsound .list container index
    exact status_effect _ hrun hsound' heffect
  | listAppend _ item =>
    obtain ⟨result, w', hrun, hsound', heffect⟩ := listAppend_spec hsound container
    exact status_effect _ hrun hsound' heffect
  | tupleGetItem _ index =>
    have hsound := sound_of_noItem hsound
    obtain ⟨result, hrun, heffect⟩ := getItem_spec hsound .tuple container index
    exact pointer_effect _ hrun hsound heffect
  | listGetItem _ index =>
    have hsound := sound_of_noItem hsound
    obtain ⟨result, hrun, heffect⟩ := getItem_spec hsound .list container index
    exact pointer_effect _ hrun hsound heffect
  | tupleSize =>
    have hsound := sound_of_noItem hsound
    obtain ⟨result, hrun, heffect⟩ := size_spec hsound .tuple container
    exact number_effect _ hrun hsound heffect
  | listSize =>
    have hsound := sound_of_noItem hsound
    obtain ⟨result, hrun, heffect⟩ := size_spec hsound .list container
    exact number_effect _ hrun hsound heffect

/-! ### Making containers -/

/-- A new container with empty slots only, and nothing else that has changed. -/
structure MadeEmpty (w : World) (kind : ContainerKind) (length : Nat) (r : Ref) (w' : World) :
    Prop where
  fresh : w.object? r = none
  grows : w.Grows [] w'
  view : kind.view w' r = .ok ⟨List.replicate length none, length⟩

/-- A new tuple shows as many empty slots as were asked for, and no other container changes. -/
theorem newTupleOf_spec {type : TypeObject} (htype : MakesTuples type)
    (hsub : type.isSubtypeOf .tuple = true) (length : Nat) (h : w.Sound owned) :
    ∃ result w', (newTupleOf type length).run w = .ok result w' ∧
      w'.Sound (gained result + owned) ∧ w.Spares w' ∧
      ∀ r, result = .ok r → MadeEmpty w .tuple length r w' := by
  obtain ⟨result, w', hrun, hsound, hgrows, hmade⟩ := creates_newTupleOf htype length w owned h
  refine ⟨result, w', hrun, hsound, hgrows.spares, fun r hr => ?_⟩
  obtain ⟨hfresh, ⟨home, hobject⟩, hempty⟩ := hmade r hr
  obtain ⟨hlength, hview⟩ := length_of_tuple (tupleObject_eq_ok.2 ⟨hobject, hsub, rfl⟩)
  rw [List.eq_replicate_iff.2 ⟨hlength, hempty⟩] at hview
  exact ⟨hfresh, hgrows, hview⟩

/-- A new list shows as many empty slots as were asked for, and no other container changes. -/
theorem newListOf_empty {type : TypeObject} (hroutine : type.routine = .list)
    (hsub : type.isSubtypeOf .list = true) (length : Nat) (h : w.Sound owned) :
    ∃ result w', (newListOf type length).run w = .ok result w' ∧
      w'.Sound (gained result + owned) ∧ w.Spares w' ∧
      ∀ r, result = .ok r → MadeEmpty w .list length r w' := by
  obtain ⟨result, w', hrun, hsound, hspares, hmade⟩ := newListOf_spec hroutine length h
  refine ⟨result, w', hrun, hsound, hspares, fun r hr => ?_⟩
  obtain ⟨hfresh, hgrows, ⟨object, buffer, hobject, rfl, hbody⟩, hslots⟩ := hmade r hr
  refine ⟨hfresh, hgrows, ?_⟩
  rw [← hslots]
  exact ContainerKind.view_list_eq_ok.2 ⟨object, length, length, buffer, hobject, hsub, hbody, rfl⟩

/-- The ways to make a container of a length: the operation, and the container
that comes with an answer. -/
inductive Builds : ContainerKind → Int → {α : Type} → Host α → (α → Option Ref) → Prop
  | newTuple {type : TypeObject} (htype : MakesTuples type)
      (hsub : type.isSubtypeOf .tuple = true) (length : Nat) :
      Builds .tuple length (newTupleOf type length).run Except.toOption
  | newList {type : TypeObject} (hroutine : type.routine = .list)
      (hsub : type.isSubtypeOf .list = true) (length : Nat) :
      Builds .list length (newListOf type length).run Except.toOption
  | tupleNew (length : Int) : Builds .tuple length (tupleNew length) id
  | listNew (length : Int) : Builds .list length (listNew length) id

variable {length : Int} {made : α → Option Ref}

/-- What becomes of an attempt to make a container. -/
def BuildsIn (kind : ContainerKind) (length : Int) (operation : Host α) (made : α → Option Ref)
    (w : World) (owned : Multiset Ref) : Prop :=
  ∃ answer w', operation w = .ok answer w' ∧ w'.Sound (handed (made answer) + owned) ∧
    w.Spares w' ∧ ∀ r, made answer = some r → 0 ≤ length ∧ MadeEmpty w kind length.toNat r w'

/-- An attempt that makes an empty container builds one. -/
theorem buildsIn_attempt {attempt : Attempt Ref} {n : Nat}
    (h : ∃ result w', attempt.run w = .ok result w' ∧ w'.Sound (gained result + owned) ∧
      w.Spares w' ∧ ∀ r, result = .ok r → MadeEmpty w kind n r w') :
    BuildsIn kind n attempt.run Except.toOption w owned := by
  obtain ⟨result, w', hrun, hsound, hspares, hmade⟩ := h
  cases result with
  | error e => exact ⟨.error e, w', hrun, hsound, hspares, nofun⟩
  | ok r =>
    refine ⟨.ok r, w', hrun, hsound, hspares, fun found hfound => ⟨Int.natCast_nonneg n, ?_⟩⟩
    cases hfound
    exact hmade r rfl

/-- A length that comes from foreign code is checked first. -/
theorem run_checkedLength {make : Nat → Attempt Ref} (length : Int) (hsound : w.Sound owned)
    (h : ∀ n, ∃ result w', (make n).run w = .ok result w' ∧ w'.Sound (gained result + owned) ∧
      w.Spares w' ∧ ∀ r, result = .ok r → MadeEmpty w kind n r w') :
    ∃ result w', (do make (← Attempt.ofExcept (containerLength length)) : Attempt Ref).run w =
        .ok result w' ∧ w'.Sound (gained result + owned) ∧ w.Spares w' ∧
      ∀ r, result = .ok r → 0 ≤ length ∧ MadeEmpty w kind length.toNat r w' := by
  by_cases hlength : 0 ≤ length
  · obtain ⟨result, w', hrun, hsound', hspares, hmade⟩ := h length.toNat
    refine ⟨result, w', ?_, hsound', hspares, fun r hr => ⟨hlength, hmade r hr⟩⟩
    rw [containerLength, if_pos hlength]
    exact hrun
  · refine ⟨.error (.overflow "container size"), w, ?_, hsound.refused _,
      (World.Unchanged.refl w).remains.spares, nofun⟩
    rw [containerLength, if_neg hlength]
    rfl

/-- A function of the boundary that makes an empty container builds one. -/
theorem buildsIn_newReference {attempt : Attempt Ref} {length : Int} (entry : String)
    (h : ∃ result w', attempt.run w = .ok result w' ∧ w'.Sound (gained result + owned) ∧
      w.Spares w' ∧ ∀ r, result = .ok r → 0 ≤ length ∧ MadeEmpty w kind length.toNat r w') :
    BuildsIn kind length (newReference entry attempt) id w owned := by
  obtain ⟨result, w', hrun, hsound, hspares, hmade⟩ := h
  have hreporting := run_reporting entry none (do return some (← attempt)) w
  cases result with
  | error e =>
    rw [Attempt.run_bind_error hrun] at hreporting
    have hunchanged := unchanged_report w' (.entryFailed entry e)
    exact ⟨none, _, hreporting, hsound.report _, hspares.then hunchanged.remains, nofun⟩
  | ok r =>
    rw [Attempt.run_bind_ok hrun] at hreporting
    refine ⟨some r, w', hreporting, hsound, hspares, fun found hfound => ?_⟩
    cases hfound
    exact hmade r rfl

/-- A container is made with empty slots, whatever its storage was used for
before, or it is not made. -/
theorem Builds.spec (h : Builds kind length operation made) (hsound : w.Sound owned) :
    BuildsIn kind length operation made w owned := by
  cases h with
  | newTuple htype hsub n => exact buildsIn_attempt (newTupleOf_spec htype hsub n hsound)
  | newList hroutine hsub n => exact buildsIn_attempt (newListOf_empty hroutine hsub n hsound)
  | tupleNew =>
    refine buildsIn_newReference _ (run_checkedLength length hsound fun n => ?_)
    exact newTupleOf_spec ⟨rfl, Nat.le_refl _, Nat.le_refl _⟩ rfl n hsound
  | listNew =>
    refine buildsIn_newReference _ (run_checkedLength length hsound fun n => ?_)
    exact newListOf_empty rfl rfl n hsound

/-! ### Runs -/

/-- What a caller does who keeps a reference to a container: calls on it, calls
on other containers, new containers and other boxes, and references that are
given up. Every call on the container is recorded with the replies that go
with its answer. -/
inductive Run (kind : ContainerKind) (r : Ref) (w : World) (owned : Multiset Ref) :
    List (Call × (Except ApiError Reply → Prop)) → World → Multiset Ref → Prop
  | start : Run kind r w owned [] w owned
  | call {seen : List (Call × (Except ApiError Reply → Prop))} {w₁ w₂ : World}
      {kept : Multiset Ref} {call : Call} {α : Type} {operation : Host α}
      {answers : α → Except ApiError Reply → Prop} {a : α}
      (h : Run kind r w owned seen w₁ (handed call.item + kept)) (hkept : r ∈ kept)
      (hperforms : Performs kind (some r) call operation answers)
      (hrun : operation w₁ = .ok a w₂) : Run kind r w owned (seen ++ [(call, answers a)]) w₂ kept
  | other {seen : List (Call × (Except ApiError Reply → Prop))} {w₁ w₂ : World}
      {kept : Multiset Ref} {other : ContainerKind} {container : Pointer} {call : Call} {α : Type}
      {operation : Host α} {answers : α → Except ApiError Reply → Prop} {a : α}
      (h : Run kind r w owned seen w₁ (handed call.item + kept)) (hkept : r ∈ kept)
      (hother : ¬ (container = some r ∧ other = kind))
      (hperforms : Performs other container call operation answers)
      (hrun : operation w₁ = .ok a w₂) : Run kind r w owned seen w₂ kept
  | build {seen : List (Call × (Except ApiError Reply → Prop))} {w₁ w₂ : World}
      {kept : Multiset Ref} {other : ContainerKind} {length : Int} {α : Type} {operation : Host α}
      {made : α → Option Ref} {a : α} (h : Run kind r w owned seen w₁ kept) (hkept : r ∈ kept)
      (hbuilds : Builds other length operation made) (hrun : operation w₁ = .ok a w₂) :
      Run kind r w owned seen w₂ (handed (made a) + kept)
  | box {seen : List (Call × (Except ApiError Reply → Prop))} {w₁ w₂ : World}
      {kept : Multiset Ref} {borrowed : List Ref} {attempt : Attempt Ref}
      {result : Except ApiError Ref} (h : Run kind r w owned seen w₁ kept) (hkept : r ∈ kept)
      (hgives : Gives borrowed attempt) (halive : ∀ s ∈ borrowed, (w₁.object? s).isSome)
      (hrun : attempt.run w₁ = .ok result w₂) : Run kind r w owned seen w₂ (gained result + kept)
  | release {seen : List (Call × (Except ApiError Reply → Prop))} {w₁ w₂ : World}
      {kept : Multiset Ref} {s : Ref} (h : Run kind r w owned seen w₁ (s ::ₘ kept))
      (hkept : r ∈ kept) (hrun : Host.release s w₁ = .ok () w₂) : Run kind r w owned seen w₂ kept

/-- The replies go with what was seen. -/
def Explains (seen : List (Call × (Except ApiError Reply → Prop)))
    (replies : List (Call × Except ApiError Reply)) : Prop :=
  List.Forall₂ (fun seen reply => reply.1 = seen.1 ∧ seen.2 reply.2) seen replies

/-- Whoever keeps a reference to a container finds in it what the calls on it
make of the sequence. -/
theorem view_of_run {r : Ref} {sequence : Sequence}
    {seen : List (Call × (Except ApiError Reply → Prop))} (hsound : w.Sound owned)
    (hview : kind.view w r = .ok sequence) (h : Run kind r w owned seen w' kept) :
    w'.Sound kept ∧ ∃ replies next, Explains seen replies ∧
      Sequence.Steps sequence replies next ∧ kind.view w' r = .ok next := by
  -- by induction on the run: only a call on the container itself is a step of the sequence
  induction h with
  | start => exact ⟨hsound, [], sequence, .nil, .none, hview⟩
  | call h hkept hperforms hrun ih =>
    obtain ⟨hsound₁, replies, next, hexplains, hsteps, hview₁⟩ := ih
    obtain ⟨answer, reply, w₂, hrun', hanswers, hsound₂, heffect⟩ := hperforms.effect hsound₁
    rw [hrun] at hrun'
    cases hrun'
    obtain ⟨last, released, hstep, hview₂⟩ :=
      heffect.view_self hview₁ (hsound₂.alive hkept)
    -- what was explained before stays explained, and this call adds its own reply
    refine ⟨hsound₂, replies ++ [(_, reply)], last, ?_, hsteps.next hstep, hview₂⟩
    exact List.rel_append hexplains (.cons ⟨rfl, hanswers⟩ .nil)
  | other h hkept hother hperforms hrun ih =>
    obtain ⟨hsound₁, replies, next, hexplains, hsteps, hview₁⟩ := ih
    obtain ⟨answer, reply, w₂, hrun', hanswers, hsound₂, heffect⟩ := hperforms.effect hsound₁
    rw [hrun] at hrun'
    cases hrun'
    -- another container may be changed, but this one is alive and keeps its sequence
    exact ⟨hsound₂, replies, next, hexplains, hsteps,
      heffect.view_other hother hview₁ (hsound₂.alive hkept)⟩
  | build h hkept hbuilds hrun ih =>
    obtain ⟨hsound₁, replies, next, hexplains, hsteps, hview₁⟩ := ih
    obtain ⟨answer, w₂, hrun', hsound₂, hspares, -⟩ := hbuilds.spec hsound₁
    rw [hrun] at hrun'
    cases hrun'
    have halive := hsound₂.alive (Multiset.mem_add.2 (.inr hkept))
    exact ⟨hsound₂, replies, next, hexplains, hsteps, view_spares hspares hview₁ halive⟩
  | box h hkept hgives halive hrun ih =>
    obtain ⟨hsound₁, replies, next, hexplains, hsteps, hview₁⟩ := ih
    obtain ⟨result, w₂, hrun', hsound₂, hgrows⟩ := hgives _ _ hsound₁ halive
    rw [hrun] at hrun'
    cases hrun'
    have halive := hsound₂.alive (Multiset.mem_add.2 (.inr hkept))
    exact ⟨hsound₂, replies, next, hexplains, hsteps, view_spares hgrows.spares hview₁ halive⟩
  | release h hkept hrun ih =>
    obtain ⟨hsound₁, replies, next, hexplains, hsteps, hview₁⟩ := ih
    obtain ⟨ended, w₂, hrun', hsound₂, hleaves⟩ := hsound₁.release
    rw [show World.release _ _ = _ from hrun] at hrun'
    cases hrun'
    exact ⟨hsound₂, replies, next, hexplains, hsteps,
      view_spares hleaves.remains.spares hview₁ (hsound₂.alive hkept)⟩

end Boundary

open Boundary in
/-- Containers behave as sequences. One that is made has empty slots, whatever
its storage was used for before. A call replies and leaves what a step of the
sequence does; it is refused without a trace on the container, and either way
each reference that it does not store is released once, after the container has
been changed. A container that a caller keeps through a run has become what its
calls make of the sequence. -/
theorem containers_refine {w : World} {owned : Multiset Ref} (h : Reachable w owned) :
    (∀ {kind : ContainerKind} {length : Int} {α : Type} {operation : Host α}
      {made : α → Option Ref}, Builds kind length operation made →
      ∃ answer w', operation w = .ok answer w' ∧ ∀ r, made answer = some r →
        0 ≤ length ∧ w.object? r = none ∧ w.Grows [] w' ∧
          kind.view w' r = .ok ⟨List.replicate length.toNat none, length.toNat⟩) ∧
    (∀ {kind : ContainerKind} {container : Pointer} {call : Sequence.Call} {α : Type}
      {operation : Host α} {answers : α → Except ApiError Sequence.Reply → Prop}
      {kept : Multiset Ref}, Performs kind container call operation answers →
      owned = handed call.item + kept →
      ∃ answer reply w', operation w = .ok answer w' ∧ answers answer reply ∧
        Effect w kind container call reply w') ∧
    ∀ {kind : ContainerKind} {r : Ref} {sequence : Sequence}
      {seen : List (Sequence.Call × (Except ApiError Sequence.Reply → Prop))} {w' : World}
      {kept : Multiset Ref}, kind.view w r = .ok sequence → Run kind r w owned seen w' kept →
      ∃ replies next, Explains seen replies ∧ Sequence.Steps sequence replies next ∧
        kind.view w' r = .ok next := by
  have hsound := sound_of_reachable h
  refine ⟨fun hbuilds => ?_, fun hperforms howned => ?_, fun hview hrun => ?_⟩
  · obtain ⟨answer, w', hrun, -, -, hmade⟩ := hbuilds.spec hsound
    refine ⟨answer, w', hrun, fun r hr => ?_⟩
    obtain ⟨hlength, hempty⟩ := hmade r hr
    exact ⟨hlength, hempty.fresh, hempty.grows, hempty.view⟩
  · obtain ⟨answer, reply, w', hrun, hanswers, -, heffect⟩ := hperforms.effect (howned ▸ hsound)
    exact ⟨answer, reply, w', hrun, hanswers, heffect⟩
  · exact (view_of_run hsound hview hrun).2

open Boundary in
/-- The one slot of a tuple that holds itself is set again, and what is read from it is
the tuple. -/
theorem containers_refine_withLoop :
    Reachable withLoop {3} ∧ ContainerKind.tuple.view withLoop 3 = .ok ⟨[some 3], 1⟩ ∧
      (∃ answer reply w', (setTupleItem 3 0 3).run withLoop = .ok answer w' ∧
        (reply = answer.map fun _ => .done) ∧
        Effect withLoop .tuple (some 3) (.setItem 0 (Size.signed 0) (some 3)) reply w') ∧
      ∃ replies next,
        Explains [(.getItem 0 0, fun reply => some 3 = pointerFor reply)] replies ∧
          Sequence.Steps ⟨[some 3], 1⟩ replies next ∧
          ContainerKind.tuple.view withLoop 3 = .ok next := by
  have hview : ContainerKind.tuple.view withLoop 3 = .ok ⟨[some 3], 1⟩ := rfl
  obtain ⟨-, hcalls, hruns⟩ := containers_refine reachable_withLoop
  have hread : tupleGetItem (some 3) 0 withLoop = .ok (some 3) withLoop := rfl
  have hstart : Run .tuple 3 withLoop {3} [] withLoop
      (handed (Sequence.Call.getItem 0 0).item + {3}) := by
    show Run .tuple 3 withLoop {3} [] withLoop (0 + {3})
    rw [zero_add]
    exact .start
  have hrun := hstart.call (Multiset.mem_singleton_self 3) (.tupleGetItem (some 3) 0) hread
  refine ⟨reachable_withLoop, hview, ?_, hruns hview hrun⟩
  exact hcalls (.set .tuple 3 0 3) (add_zero {3}).symm

end ExtensionHost
