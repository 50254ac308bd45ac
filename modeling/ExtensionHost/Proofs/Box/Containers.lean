import ExtensionHost.Box.GrowList
import ExtensionHost.Box.Tuple
import ExtensionHost.Proofs.Object.Accounts

/-!
# `ExtensionHost.Proofs.Box.Containers`: containers as sequences

A tuple or a list stands for a sequence of slots, each with a reference to an
object or empty (`Sequence`). A list also has a capacity; that of a tuple is
its length. `Sequence.Step` is what one call does to the sequence, what it
replies, and which reference is released in the course of it: the one to the
old occupant of a slot that is filled, or the one to an item that the
container does not take.

`Effect` says what a call does to the world. First the container is made to
hold what the step leaves and nothing else changes (`Becomes`); then the
reference is released, once, and the release may end objects, the container
among them if nobody else has a reference to it. What is still there
afterwards is what it was before the release (`World.Remains`).
-/

set_option autoImplicit false

namespace ExtensionHost

namespace World

variable {w w' w'' : World} {r s : Ref} {object : Object} {ended : List Ref}

/-- Every object is what it was, and so is what it holds. -/
structure Unchanged (w w' : World) : Prop where
  object : ∀ r, w'.object? r = w.object? r
  slots : ∀ r, w'.slots r = w.slots r

/-- Doing nothing changes no container. -/
theorem Unchanged.refl (w : World) : w.Unchanged w := ⟨fun _ => rfl, fun _ => rfl⟩

/-- Two operations that change no container change none together. -/
theorem Unchanged.trans (h : w.Unchanged w') (h' : w'.Unchanged w'') : w.Unchanged w'' :=
  ⟨fun r => (h'.object r).trans (h.object r), fun r => (h'.slots r).trans (h.slots r)⟩

/-- Events are no containers. -/
theorem unchanged_report (w : World) (event : Event) : w.Unchanged (w.report event) :=
  ⟨fun _ => rfl, fun _ => rfl⟩

/-- The storage changes, but no block of an object. -/
theorem unchanged_withMemory {m : Memory}
    (hsame : ∀ s other, w.object? s = some other → ∀ a ∈ other.blocks,
      m.process.blocks[a]? = w.memory.process.blocks[a]?) : w.Unchanged (w.withMemory m) where
  object _ := rfl
  slots s := by
    cases hs : w.object? s with
    | none => rw [slots_of_none hs, slots_of_none (show (w.withMemory m).object? s = _ from hs)]
    | some other =>
      rw [slots_of_object? hs, slots_of_object? (show (w.withMemory m).object? s = _ from hs)]
      exact slotsOf_congr fun a ha => Process.payload_congr (hsame s other hs a ha)

/-- An object that is still there is what it was, but for its count, and holds
what it held. -/
def Remains (w w' : World) : Prop :=
  ∀ r, w'.object? r = none ∨ ∃ object count, w.object? r = some object ∧
    w'.object? r = some { object with count } ∧ w'.slots r = w.slots r

/-- Where no container changed, those that are there remain. -/
theorem Unchanged.remains (h : w.Unchanged w') : w.Remains w' := by
  intro r
  cases hr : w.object? r with
  | none => exact .inl ((h.object r).trans hr)
  | some object => exact .inr ⟨object, object.count, rfl, (h.object r).trans hr, h.slots r⟩

/-- What remains twice remains. -/
theorem Remains.trans (h : w.Remains w') (h' : w'.Remains w'') : w.Remains w'' := by
  intro r
  rcases h' r with hnone | ⟨middle, count', hmiddle, hlast, hslots'⟩
  · exact .inl hnone
  · rcases h r with hnone | ⟨object, count, hobject, hmiddle', hslots⟩
    · rw [hnone] at hmiddle
      cases hmiddle
    · rw [hmiddle'] at hmiddle
      cases hmiddle
      exact .inr ⟨object, count', hobject, hlast, hslots'.trans hslots⟩

/-- Objects that are left alone show the same sequences. -/
theorem Leaves.remains (h : w.Leaves ended w') : w.Remains w' := by
  intro r
  by_cases hmem : r ∈ ended
  · exact .inl (h.gone r hmem)
  · cases hr : w.object? r with
    | none => exact .inl (h.absent r hr)
    | some object =>
      obtain ⟨count, hr', -⟩ := h.stays r object hr hmem
      exact .inr ⟨object, count, rfl, hr', h.slots r hmem⟩

/-- What was there before and still is holds what it held. There may be other
objects besides. -/
def Spares (w w' : World) : Prop :=
  ∀ r object, w.object? r = some object → w'.object? r = none ∨
    ∃ count, w'.object? r = some { object with count } ∧ w'.slots r = w.slots r

/-- If everything that is there remains, containers that were there are spared. -/
theorem Remains.spares (h : w.Remains w') : w.Spares w' := by
  intro r object hr
  rcases h r with hnone | ⟨found, count, hfound, hr', hslots⟩
  · exact .inl hnone
  · rw [hr] at hfound
    cases hfound
    exact .inr ⟨count, hr', hslots⟩

/-- New objects spare the containers that were there. -/
theorem Grows.spares (h : w.Grows [] w') : w.Spares w' := by
  intro r object hr
  obtain ⟨count, hr'⟩ := h.stays r object hr
  exact .inr ⟨count, hr', h.slots r object hr List.not_mem_nil⟩

/-- What was spared and then remains was spared. -/
theorem Spares.then (h : w.Spares w') (h' : w'.Remains w'') : w.Spares w'' := by
  intro r object hr
  rcases h' r with hnone | ⟨middle, count', hmiddle, hr'', hslots'⟩
  · exact .inl hnone
  · rcases h r object hr with hnone | ⟨count, hr', hslots⟩
    · rw [hnone] at hmiddle
      cases hmiddle
    · rw [hr'] at hmiddle
      cases hmiddle
      exact .inr ⟨count', hr'', hslots'.trans hslots⟩

/-- A reference, if there is one, is released, and that is all that happens to
objects. -/
inductive Released (w : World) : Option Ref → World → Prop
  | nothing {w' : World} (h : w.Unchanged w') : Released w none w'
  | once {r : Ref} {w₁ w' : World} (hrun : Host.release r w = .ok () w₁) (hleft : w.Remains w₁)
      (h : w₁.Unchanged w') : Released w (some r) w'

/-- Releasing one reference leaves the containers that are still there. -/
theorem Released.remains {released : Option Ref} (h : w.Released released w') : w.Remains w' := by
  cases h with
  | nothing h => exact h.remains
  | once hrun hleft h => exact hleft.trans h.remains

/-- More may be reported afterwards. -/
theorem Released.unchanged {released : Option Ref} (h : w.Released released w')
    (h' : w'.Unchanged w'') : w.Released released w'' := by
  cases h with
  | nothing h => exact .nothing (h.trans h')
  | once hrun hleft h => exact .once hrun hleft (h.trans h')

end World

namespace Box

open World

/-! ### Sequences -/

/-- What a container holds: its slots, and how many of them there is room
for. -/
structure Sequence where
  slots : List (Option Ref)
  capacity : Nat

namespace Sequence

/-- A call on a container. An index that is out of range is reported as
`shown`; an item that is passed by pointer may be null. -/
inductive Call
  | append (item : Option Ref)
  | setItem (index shown : Int) (item : Option Ref)
  | getItem (index shown : Int)
  | length
  | capacity

/-- The reference that a call takes over. -/
def Call.item : Call → Option Ref
  | append item => item
  | setItem _ _ item => item
  | _ => none

/-- A call that is passed a null pointer for an item. -/
def Call.LacksItem : Call → Prop
  | append item => item = none
  | setItem _ _ item => item = none
  | _ => False

/-- What a call replies when it is not refused. -/
inductive Reply
  | done
  | item (r : Ref)
  | number (n : Nat)

/-- The slots that there is room for when there must be room for one more. -/
def roomier (s : Sequence) : Nat :=
  if s.slots.length < s.capacity then s.capacity
  else if s.capacity = 0 then firstCapacity else s.capacity * 2

/-- What a call does to a sequence: its reply, the sequence afterwards, and the
reference that is released in the course of it. -/
inductive Step : Call → Sequence → Except ApiError Reply → Sequence → Option Ref → Prop
  | append {s : Sequence} {item : Ref} :
      Step (.append (some item)) s (.ok .done) ⟨s.slots ++ [some item], s.roomier⟩ none
  -- there was no room, and no storage for more
  | noRoom {s : Sequence} {item : Ref} {bytes : Nat} (hfull : s.slots.length = s.capacity) :
      Step (.append (some item)) s (.error (.allocationFailed bytes)) s (some item)
  | setItem {s : Sequence} {i : Nat} {shown : Int} {item : Ref} {old : Option Ref}
      (hold : s.slots[i]? = some old) :
      Step (.setItem i shown (some item)) s (.ok .done)
        ⟨s.slots.set i (some item), s.capacity⟩ old
  | setOutside {s : Sequence} {index shown : Int} {item : Ref}
      (hindex : ¬ (0 ≤ index ∧ index < s.slots.length)) :
      Step (.setItem index shown (some item)) s
        (.error (.indexOutOfRange shown (Size.signed s.slots.length))) s (some item)
  | getItem {s : Sequence} {i : Nat} {shown : Int} {r : Ref} (hslot : s.slots[i]? = some (some r)) :
      Step (.getItem i shown) s (.ok (.item r)) s none
  | getEmpty {s : Sequence} {i : Nat} {shown : Int} (hslot : s.slots[i]? = some none) :
      Step (.getItem i shown) s (.error (.uninitializedSlot (Size.signed i))) s none
  | getOutside {s : Sequence} {index shown : Int}
      (hindex : ¬ (0 ≤ index ∧ index < s.slots.length)) :
      Step (.getItem index shown) s
        (.error (.indexOutOfRange shown (Size.signed s.slots.length))) s none
  | length {s : Sequence} : Step .length s (.ok (.number s.slots.length)) s none
  | capacity {s : Sequence} : Step .capacity s (.ok (.number s.capacity)) s none
  -- a null pointer is no item, and is told from one first of all
  | noItem {call : Call} {s : Sequence} (hitem : call.LacksItem) :
      Step call s (.error .nullReference) s none

/-- What a sequence becomes under calls one after the other, with what they
reply. -/
inductive Steps : Sequence → List (Call × Except ApiError Reply) → Sequence → Prop
  | none {s : Sequence} : Steps s [] s
  | next {s s' s'' : Sequence} {calls : List (Call × Except ApiError Reply)} {call : Call}
      {reply : Except ApiError Reply} {released : Option Ref} (h : Steps s calls s')
      (hstep : Step call s' reply s'' released) : Steps s (calls ++ [(call, reply)]) s''

end Sequence

/-! ### Containers -/

inductive ContainerKind
  | tuple
  | list

variable {w w' w₁ : World} {r s : Ref} {object : Object} {kind : ContainerKind}
  {sequence next : Sequence} {owned : Multiset Ref}

/-- What a container holds, or why the object is no such container. -/
def ContainerKind.view (w : World) (r : Ref) : ContainerKind → Except ApiError Sequence
  | .tuple => (tupleObject w r).map fun (_, length) => ⟨w.slots r, length⟩
  | .list => (listObject w r).map fun (_, _, capacity, _) => ⟨w.slots r, capacity⟩

/-- The same for an object that is passed by pointer. -/
def ContainerKind.viewAt (kind : ContainerKind) (w : World) : Option Ref → Except ApiError Sequence
  | some r => kind.view w r
  | none => .error .nullReference

/-- The container holds what it is said to, and everything else is what it was. -/
structure Becomes (w : World) (kind : ContainerKind) (r : Ref) (next : Sequence) (w' : World) :
    Prop where
  view : kind.view w' r = .ok next
  itself : ∃ object body, w.object? r = some object ∧ w'.object? r = some { object with body }
  others : ∀ s, s ≠ r → w'.object? s = w.object? s ∧ w'.slots s = w.slots s

/-- What a call on a container does to the world. -/
inductive Effect (w : World) (kind : ContainerKind) (container : Option Ref)
    (call : Sequence.Call) : Except ApiError Sequence.Reply → World → Prop
  | noItem {w' : World} (hitem : call.LacksItem) (h : w.Unchanged w') :
      Effect w kind container call (.error .nullReference) w'
  | noContainer {e : ApiError} {w' : World} (hitem : ¬ call.LacksItem)
      (hview : kind.viewAt w container = .error e) (h : w.Released call.item w') :
      Effect w kind container call (.error e) w'
  | step {r : Ref} {sequence next : Sequence} {reply : Except ApiError Sequence.Reply}
      {released : Option Ref} {w₁ w' : World} (hcontainer : container = some r)
      (hview : kind.view w r = .ok sequence)
      (hstep : Sequence.Step call sequence reply next released)
      (hbecomes : Becomes w kind r next w₁) (h : w₁.Released released w') :
      Effect w kind container call reply w'

/-! ### Views -/

/-- An instance of a type is an object of it or of a type derived from it. -/
theorem instanceOf_eq_ok {type : TypeObject} :
    w.instanceOf r type = .ok object ↔
      w.object? r = some object ∧ object.type.isSubtypeOf type = true := by
  unfold World.instanceOf World.object
  cases w.object? r with
  | none => simp
  | some found =>
    cases hsub : found.type.isSubtypeOf type with
    | false =>
      refine ⟨fun h => by simp [hsub] at h, fun ⟨h, hobject⟩ => ?_⟩
      obtain rfl : found = object := Option.some.inj h
      rw [hsub] at hobject
      cases hobject
    | true =>
      refine ⟨fun h => ?_, fun ⟨h, _⟩ => ?_⟩
      · simp only [hsub, if_true, Except.ok.injEq] at h
        exact ⟨congrArg some h, h ▸ hsub⟩
      · simp only [hsub, if_true]
        exact congrArg _ (Option.some.inj h)

/-- A tuple is an instance of the type of tuples with the body of one. -/
theorem tupleObject_eq_ok {length : Nat} :
    tupleObject w r = .ok (object, length) ↔
      w.object? r = some object ∧ object.type.isSubtypeOf .tuple = true ∧
        object.body = .tuple length := by
  unfold tupleObject
  cases hinstance : w.instanceOf r .tuple with
  | error e =>
    refine ⟨nofun, fun ⟨hobject, hsub, _⟩ => ?_⟩
    rw [instanceOf_eq_ok.2 ⟨hobject, hsub⟩] at hinstance
    cases hinstance
  | ok found =>
    obtain ⟨hfound, hsub⟩ := instanceOf_eq_ok.1 hinstance
    constructor
    · intro h
      cases hbody : found.body <;> simp [hbody] at h
      obtain ⟨rfl, rfl⟩ := h
      exact ⟨hfound, hsub, hbody⟩
    · rintro ⟨hobject, -, hbody⟩
      rw [hfound] at hobject
      obtain rfl : found = object := Option.some.inj hobject
      simp only [hbody]

/-- A list is an instance of the type of lists with the body of one. -/
theorem listObject_eq_ok {length capacity : Nat} {buffer : Option Address} :
    listObject w r = .ok (object, length, capacity, buffer) ↔
      w.object? r = some object ∧ object.type.isSubtypeOf .list = true ∧
        object.body = .list length capacity buffer := by
  unfold listObject
  cases hinstance : w.instanceOf r .list with
  | error e =>
    refine ⟨nofun, fun ⟨hobject, hsub, _⟩ => ?_⟩
    rw [instanceOf_eq_ok.2 ⟨hobject, hsub⟩] at hinstance
    cases hinstance
  | ok found =>
    obtain ⟨hfound, hsub⟩ := instanceOf_eq_ok.1 hinstance
    constructor
    · intro h
      cases hbody : found.body <;> simp [hbody] at h
      obtain ⟨rfl, rfl, rfl, rfl⟩ := h
      exact ⟨hfound, hsub, hbody⟩
    · rintro ⟨hobject, -, hbody⟩
      rw [hfound] at hobject
      obtain rfl : found = object := Option.some.inj hobject
      simp only [hbody]

/-- What shows as a tuple is one, and its sequence has its slots and no room to spare. -/
theorem ContainerKind.view_tuple_eq_ok :
    ContainerKind.tuple.view w r = .ok sequence ↔
      ∃ object length, w.object? r = some object ∧ object.type.isSubtypeOf .tuple = true ∧
        object.body = .tuple length ∧ sequence = ⟨w.slots r, length⟩ := by
  show (tupleObject w r).map _ = _ ↔ _
  constructor
  · intro h
    cases htuple : tupleObject w r with
    | error e =>
      rw [htuple] at h
      cases h
    | ok found =>
      rw [htuple] at h
      cases h
      obtain ⟨hobject, hsub, hbody⟩ := tupleObject_eq_ok.1 htuple
      exact ⟨_, _, hobject, hsub, hbody, rfl⟩
  · rintro ⟨object, length, hobject, hsub, hbody, rfl⟩
    rw [tupleObject_eq_ok.2 ⟨hobject, hsub, hbody⟩]
    rfl

/-- What shows as a list is one, and its sequence has its slots and its capacity. -/
theorem ContainerKind.view_list_eq_ok :
    ContainerKind.list.view w r = .ok sequence ↔
      ∃ object length capacity buffer, w.object? r = some object ∧
        object.type.isSubtypeOf .list = true ∧ object.body = .list length capacity buffer ∧
        sequence = ⟨w.slots r, capacity⟩ := by
  show (listObject w r).map _ = _ ↔ _
  constructor
  · intro h
    cases hlist : listObject w r with
    | error e =>
      rw [hlist] at h
      cases h
    | ok found =>
      rw [hlist] at h
      cases h
      obtain ⟨hobject, hsub, hbody⟩ := listObject_eq_ok.1 hlist
      exact ⟨_, _, _, _, hobject, hsub, hbody, rfl⟩
  · rintro ⟨object, length, capacity, buffer, hobject, hsub, hbody, rfl⟩
    rw [listObject_eq_ok.2 ⟨hobject, hsub, hbody⟩]
    rfl

/-- The sequence that a container shows consists of its slots. -/
theorem slots_of_view (h : kind.view w r = .ok sequence) : sequence.slots = w.slots r := by
  cases kind with
  | tuple =>
    obtain ⟨_, _, -, -, -, rfl⟩ := ContainerKind.view_tuple_eq_ok.1 h
    rfl
  | list =>
    obtain ⟨_, _, _, _, -, -, -, rfl⟩ := ContainerKind.view_list_eq_ok.1 h
    rfl

/-- What shows a sequence is there. -/
theorem object_of_view (h : kind.view w r = .ok sequence) :
    ∃ object, w.object? r = some object := by
  cases kind with
  | tuple =>
    obtain ⟨object, _, hobject, -⟩ := ContainerKind.view_tuple_eq_ok.1 h
    exact ⟨object, hobject⟩
  | list =>
    obtain ⟨object, _, _, _, hobject, -⟩ := ContainerKind.view_list_eq_ok.1 h
    exact ⟨object, hobject⟩

/-- A container of which at most the count has changed holds what stands in
its slots. -/
theorem view_of_object? (count : Int) (h : kind.view w r = .ok sequence)
    (hobject : w.object? r = some object) (hobject' : w'.object? r = some { object with count }) :
    kind.view w' r = .ok ⟨w'.slots r, sequence.capacity⟩ := by
  cases kind with
  | tuple =>
    obtain ⟨found, length, hfound, hsub, hbody, rfl⟩ := ContainerKind.view_tuple_eq_ok.1 h
    rw [hobject] at hfound
    cases hfound
    exact ContainerKind.view_tuple_eq_ok.2 ⟨_, length, hobject', hsub, hbody, rfl⟩
  | list =>
    obtain ⟨found, length, capacity, buffer, hfound, hsub, hbody, rfl⟩ :=
      ContainerKind.view_list_eq_ok.1 h
    rw [hobject] at hfound
    cases hfound
    exact ContainerKind.view_list_eq_ok.2 ⟨_, length, capacity, buffer, hobject', hsub, hbody, rfl⟩

/-- What a container shows depends on its object and its slots. -/
theorem view_of_slots (h : kind.view w r = .ok sequence) (hobject : w'.object? r = w.object? r) :
    kind.view w' r = .ok ⟨w'.slots r, sequence.capacity⟩ := by
  obtain ⟨object, hfound⟩ := object_of_view h
  exact view_of_object? object.count h hfound (hobject.trans hfound)

/-- A container is a tuple or a list and not both. -/
theorem kind_unique {other : ContainerKind} {sequence' : Sequence}
    (h : kind.view w r = .ok sequence) (h' : other.view w r = .ok sequence') : kind = other := by
  have hdiffer : ∀ {s s' : Sequence}, ContainerKind.tuple.view w r = .ok s →
      ¬ ContainerKind.list.view w r = .ok s' := by
    intro s s' htuple hlist
    obtain ⟨_, _, hobject, -, hbody, -⟩ := ContainerKind.view_tuple_eq_ok.1 htuple
    obtain ⟨_, _, _, _, hobject', -, hbody', -⟩ := ContainerKind.view_list_eq_ok.1 hlist
    rw [hobject] at hobject'
    cases hobject'
    rw [hbody] at hbody'
    cases hbody'
  cases kind <;> cases other
  · rfl
  · exact absurd h' (hdiffer h)
  · exact absurd h (hdiffer h')
  · rfl

/-! ### What a call leaves -/

/-- Where no container changed, each shows the same sequence. -/
theorem view_unchanged (h : w.Unchanged w') (hview : kind.view w r = .ok sequence) :
    kind.view w' r = .ok sequence := by
  rw [view_of_slots hview (h.object r), h.slots r, ← slots_of_view hview]

/-- A container that is still there holds what it held. -/
theorem view_spares (h : w.Spares w') (hview : kind.view w r = .ok sequence)
    (halive : (w'.object? r).isSome) : kind.view w' r = .ok sequence := by
  obtain ⟨object, hobject⟩ := object_of_view hview
  rcases h r object hobject with hnone | ⟨count, hobject', hslots⟩
  · rw [hnone] at halive
    cases halive
  · rw [view_of_object? count hview hobject hobject', hslots, ← slots_of_view hview]

/-- A container that has not changed becomes what it was. -/
theorem becomes_of_unchanged (hview : kind.view w r = .ok sequence) (h : w.Unchanged w') :
    Becomes w kind r sequence w' := by
  obtain ⟨object, hobject⟩ := object_of_view hview
  exact ⟨view_unchanged h hview, ⟨object, object.body, hobject, (h.object r).trans hobject⟩,
    fun s _ => ⟨h.object s, h.slots s⟩⟩

/-- Only what stands in the slots of the container has changed. -/
theorem becomes_of_slots (hview : kind.view w r = .ok sequence)
    (hobject : ∀ s, w'.object? s = w.object? s) (hothers : ∀ s, s ≠ r → w'.slots s = w.slots s) :
    Becomes w kind r ⟨w'.slots r, sequence.capacity⟩ w' := by
  obtain ⟨object, hfound⟩ := object_of_view hview
  exact ⟨view_of_slots hview (hobject r), ⟨object, object.body, hfound, (hobject r).trans hfound⟩,
    fun s hs => ⟨hobject s, hothers s hs⟩⟩

/-- What a container becomes in two steps is what it becomes in the second. -/
theorem Becomes.trans {last : Sequence} (h : Becomes w kind r next w₁)
    (h' : Becomes w₁ kind r last w') : Becomes w kind r last w' := by
  obtain ⟨object, body, hobject, hmiddle⟩ := h.itself
  obtain ⟨middle, body', hmiddle', hlast⟩ := h'.itself
  rw [hmiddle] at hmiddle'
  cases hmiddle'
  refine ⟨h'.view, ⟨object, body', hobject, hlast⟩, fun s hs => ?_⟩
  obtain ⟨hobject', hslots'⟩ := h'.others s hs
  exact ⟨hobject'.trans (h.others s hs).1, hslots'.trans (h.others s hs).2⟩

/-- A container stays what it became while no container changes. -/
theorem Becomes.unchanged (h : Becomes w kind r next w₁) (h' : w₁.Unchanged w') :
    Becomes w kind r next w' :=
  h.trans (becomes_of_unchanged h.view h')

namespace Effect

variable {container : Option Ref} {call : Sequence.Call} {reply : Except ApiError Sequence.Reply}

/-- More may be reported afterwards. -/
theorem unchanged {w'' : World} (h : Effect w kind container call reply w')
    (h' : w'.Unchanged w'') : Effect w kind container call reply w'' := by
  cases h with
  | noItem hitem hsame => exact .noItem hitem (hsame.trans h')
  | noContainer hitem hview hreleased => exact .noContainer hitem hview (hreleased.unchanged h')
  | step hcontainer hview hstep hbecomes hreleased =>
    exact .step hcontainer hview hstep hbecomes (hreleased.unchanged h')

/-- A container that is still there after a call on it holds what the step
leaves. -/
theorem view_self (h : Effect w kind (some r) call reply w')
    (hview : kind.view w r = .ok sequence) (halive : (w'.object? r).isSome) :
    ∃ next released, Sequence.Step call sequence reply next released ∧
      kind.view w' r = .ok next := by
  cases h with
  | noItem hitem hsame => exact ⟨sequence, none, .noItem hitem, view_unchanged hsame hview⟩
  | noContainer hitem hnone =>
    rw [ContainerKind.viewAt, hview] at hnone
    cases hnone
  | @step r' sequence' next reply released w₁ w' hcontainer hview' hstep hbecomes hreleased =>
    cases hcontainer
    rw [hview] at hview'
    cases hview'
    exact ⟨next, released, hstep, view_spares hreleased.remains.spares hbecomes.view halive⟩

/-- A call on another container leaves a container as it is. -/
theorem view_other {other : ContainerKind} (h : Effect w kind container call reply w')
    (hother : ¬ (container = some r ∧ kind = other)) (hview : other.view w r = .ok sequence)
    (halive : (w'.object? r).isSome) : other.view w' r = .ok sequence := by
  cases h with
  | noItem hitem hsame => exact view_unchanged hsame hview
  | noContainer hitem hnone hreleased => exact view_spares hreleased.remains.spares hview halive
  | @step r' sequence' next reply released w₁ w' hcontainer hview' hstep hbecomes hreleased =>
    have hne : r ≠ r' := by
      rintro rfl
      exact hother ⟨hcontainer, kind_unique hview' hview⟩
    obtain ⟨hobject, hslots⟩ := hbecomes.others r hne
    have hview₁ : other.view w₁ r = .ok sequence := by
      rw [view_of_slots hview hobject, hslots, ← slots_of_view hview]
    exact view_spares hreleased.remains.spares hview₁ halive

end Effect

end Box

end ExtensionHost
