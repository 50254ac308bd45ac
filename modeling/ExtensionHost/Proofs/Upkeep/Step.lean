import ExtensionHost.Proofs.Box.GrowList
import ExtensionHost.Proofs.Storage.Answers

/-!
# `ExtensionHost.Proofs.Upkeep.Step`: what an operation can do to objects and their storage

An operation of the interface is a sequence of small steps, and there are only
eight kinds of them: counts change, something is reported, a request for storage
is refused, an object is made in a block that was handed out for it, a slot is
filled, a list gets another buffer, a list counts one more slot as being in use,
an object ends and its blocks are freed. `World.Step` lists them with all that
is true when they are taken, so that what holds of a world whatever is done to
it can be proved step by step, without the code (`Upkeep.Provision`). That the
code takes no other steps is shown once, for each operation (`Upkeep.Traces`).
-/

set_option autoImplicit false

namespace ExtensionHost

namespace Body

/-- The bytes that an object with this body needs in its own block: the slots
of a tuple follow its header, and so do the bytes of a text and the NUL behind
them. -/
def bytes : Body → Nat
  | text length => World.contentStart + length + 1
  | tuple length => World.contentStart + World.slotSize * length
  | _ => 0

end Body

/-- The body is one of those that the type stands for: boxes of a built-in type, and of
types derived from it, all hold the same kind of thing. -/
structure TypeObject.Suits (type : TypeObject) (body : Body) : Prop where
  integer : type.isSubtypeOf .int = true → ∃ v, body = .integer v
  real : type.isSubtypeOf .float = true → ∃ x, body = .real x
  text : type.isSubtypeOf .str = true → ∃ length, body = .text length
  tuple : type.isSubtypeOf .tuple = true → ∃ length, body = .tuple length
  list : type.isSubtypeOf .list = true →
    ∃ length capacity buffer, body = .list length capacity buffer

namespace World

variable {w w' w'' : World} {r s : Ref} {object other : Object} {m : Memory} {a : Address}

/-! ### Counts -/

/-- Only the queue and counts of objects that may go have changed. -/
structure Recounted (w w' : World) : Prop where
  same : w' = { w with objects := w'.objects, pending := w'.pending, draining := w'.draining }
  objects : ∀ r, w'.objects[r]? = w.objects[r]? ∨
    3 ≤ r ∧ ∃ count, w'.objects[r]? = (w.objects[r]?).map fun object => { object with count }

/-- Nothing is recounted when nothing happens. -/
theorem Recounted.refl (w : World) : w.Recounted w := ⟨rfl, fun _ => .inl rfl⟩

/-- Counts that change twice have changed. -/
theorem Recounted.trans (h : w.Recounted w') (h' : w'.Recounted w'') : w.Recounted w'' where
  same := by
    have hsame := h'.same
    rw [h.same] at hsame
    exact hsame
  objects r := by
    rcases h.objects r with hr | ⟨hle, count, hr⟩ <;>
      rcases h'.objects r with hr' | ⟨hle', count', hr'⟩
    · exact .inl (hr'.trans hr)
    · exact .inr ⟨hle', count', by rw [hr', hr]⟩
    · exact .inr ⟨hle, count, by rw [hr', hr]⟩
    · refine .inr ⟨hle, count', ?_⟩
      rw [hr', hr, Option.map_map]
      rfl

/-- The count of one object. -/
theorem recounted_modify (hle : 3 ≤ r) (f : Object → Int) :
    w.Recounted (w.modify r fun object => { object with count := f object }) := by
  refine ⟨rfl, fun s => ?_⟩
  rw [World.modify, Array.getElem?_modify]
  by_cases hrs : r = s
  · rw [if_pos hrs]
    cases hs : w.objects[s]? with
    | none => exact .inl rfl
    | some object => exact .inr ⟨hrs ▸ hle, f object, rfl⟩
  · rw [if_neg hrs]
    exact .inl rfl

/-- The queue. -/
theorem recounted_queue (w : World) (pending : List Ref) (draining : Bool) :
    w.Recounted { w with pending, draining } := ⟨rfl, fun _ => .inl rfl⟩

/-- Counts that change change no storage. -/
theorem Recounted.memory (h : w.Recounted w') : w'.memory = w.memory := by rw [h.same]

/-- Who is there stays there. -/
theorem Recounted.object?_eq (h : w.Recounted w') (r : Ref) :
    ∃ count : Int → Int, w'.object? r = (w.object? r).map fun object =>
      { object with count := count object.count } := by
  rcases h.objects r with hr | ⟨-, count, hr⟩
  · refine ⟨id, ?_⟩
    rw [object?, object?, hr]
    cases w.objects[r]? with
    | none => rfl
    | some object => rcases object with ⟨_, _, _, _, _ | _⟩ <;> rfl
  · refine ⟨fun _ => count, ?_⟩
    rw [object?, object?, hr]
    cases w.objects[r]? with
    | none => rfl
    | some object => rcases object with ⟨_, _, _, _, _ | _⟩ <;> rfl

/-- An object is still there, with some count, when counts have changed. -/
theorem Recounted.stays (h : w.Recounted w') (hobject : w.object? r = some object) :
    ∃ count, w'.object? r = some { object with count } := by
  obtain ⟨count, hr⟩ := h.object?_eq r
  exact ⟨count object.count, by rw [hr, hobject]; rfl⟩

/-- An object was there before, with some count, when counts have changed. -/
theorem Recounted.origin (h : w.Recounted w') (hobject : w'.object? r = some object) :
    ∃ count, w.object? r = some { object with count } := by
  obtain ⟨count, hr⟩ := h.object?_eq r
  rw [hr] at hobject
  obtain ⟨before, hbefore, rfl⟩ := Option.map_eq_some_iff.1 hobject
  exact ⟨before.count, hbefore⟩

/-- Objects are where they belong when counts have changed. -/
theorem Housed.recounted (h : w.Housed) (hcounts : w.Recounted w') : w'.Housed where
  memory := by rw [hcounts.memory]; exact h.memory
  singleton r hr := by
    rcases hcounts.objects r with hsame | ⟨hle, -⟩
    · exact hsame.trans (h.singleton r hr)
    · exact absurd hr (Nat.not_lt.2 hle)
  fits r object hobject hle := by
    obtain ⟨count, hbefore⟩ := hcounts.origin hobject
    exact (h.fits r _ hbefore hle).setCount object.count
  housed r object hobject := by
    obtain ⟨count, hbefore⟩ := hcounts.origin hobject
    rw [hcounts.memory]
    exact (h.housed r _ hbefore).setCount object.count
  apart r s object other hobject hother := by
    obtain ⟨count, hbefore⟩ := hcounts.origin hobject
    obtain ⟨count', hbefore'⟩ := hcounts.origin hother
    exact h.apart r s { object with count } { other with count := count' } hbefore hbefore'

/-! ### Steps -/

/-- An object holds what its type stands for, and the bytes of a text are there. -/
structure Fitted (type : TypeObject) (body : Body) (payload : Payload) : Prop where
  suits : type.Suits body
  text : ∀ length, body = .text length →
    ∃ text : String, text.toUTF8.size = length ∧ payload.read contentStart length = text.toUTF8

/-- What can be done to a world. When it is `strict`, every object that is made holds
what its type stands for. -/
inductive Step (strict : Bool) (w : World) : World → Prop
  | recounted {w' : World} (h : w.Recounted w') : Step strict w w'
  | noticed {event : Event} (hevent : event.released? = none) : Step strict w (w.report event)
  | refused {size : Nat} {m : Memory} (h : w.memory.Answers size none none m) :
      Step strict w (w.withMemory m)
  | made {type : TypeObject} {size : Nat} {body : Body} {home : Address} {m : Memory}
      (hmakes : Makes type size body) (hroom : body.bytes ≤ size)
      (h : w.memory.Answers size none (some home) m)
      (hfitted : strict = true → Fitted type body (m.process.payload home)) :
      Step strict w (w.made m type body home)
  | filled {r : Ref} {object : Object} {a : Address} {start length index : Nat}
      (hobject : w.object? r = some object) (hat : SlotsAt object a start length)
      (hindex : index < length) (item : Ref) :
      Step strict w (w.written a (·.setWord (start + slotSize * index) (some item)))
  /-- The buffer may have been another one before, which ended, or none. -/
  | rebuffered {r : Ref} {object : Object} {old before length capacity : Nat}
      {buffer : Option Address} {b : Address} {m : Memory} (hobject : w.object? r = some object)
      (hbody : object.body = .list old before buffer) (hcapacity : capacity ≠ 0)
      (hlength : length ≤ capacity)
      (hunused : ∀ i, length ≤ i → i < capacity →
        (m.process.payload b).word? (slotSize * i) = none)
      (h : w.memory.Answers (slotSize * capacity) buffer (some b) m) :
      Step strict w (w.reshaped r (.list length capacity (some b)) m)
  | lengthened {r : Ref} {object : Object} {length capacity : Nat} {b : Address}
      (hobject : w.object? r = some object) (hbody : object.body = .list length capacity (some b))
      (hlt : length < capacity) :
      Step strict w (w.reshaped r (.list (length + 1) capacity (some b)) w.memory)
  /-- What the object holds is released in between. -/
  | ended {r : Ref} {object : Object} {w₁ : World} {m : Memory}
      (hobject : w.object? r = some object) (hle : 3 ≤ r)
      (hcounts : (w.opened object).Recounted w₁) (h : w₁.memory.Clears object.blocks m) :
      Step strict w ((w₁.without r).withMemory m)

/-- What can be done one after the other. -/
abbrev Steps (strict : Bool) : World → World → Prop := Relation.ReflTransGen (Step strict)

/-- What a release does to a world: counts change, and objects end. -/
inductive Wanes (w : World) : World → Prop
  | recounted {w' : World} (h : w.Recounted w') : Wanes w w'
  | ended {r : Ref} {object : Object} {w₁ : World} {m : Memory}
      (hobject : w.object? r = some object) (hle : 3 ≤ r)
      (hcounts : (w.opened object).Recounted w₁) (h : w₁.memory.Clears object.blocks m) :
      Wanes w ((w₁.without r).withMemory m)

/-- Nothing is made, so this is a step of either kind. -/
theorem Wanes.step {strict : Bool} (h : w.Wanes w') : w.Step strict w' := by
  cases h with
  | recounted h => exact .recounted h
  | ended hobject hle hcounts h => exact .ended hobject hle hcounts h

/-- What releases do one after the other. -/
abbrev Declines : World → World → Prop := Relation.ReflTransGen Wanes

/-- What releases do is done by steps. -/
theorem Declines.steps {strict : Bool} (h : w.Declines w') : w.Steps strict w' := by
  induction h with
  | refl => exact .refl
  | tail _ hwanes ih => exact ih.tail hwanes.step

/-- The names of the types of all objects that were made, whether they are there
or gone. The first objects were there from the start. -/
def madeTypes (w : World) : List String := (w.objects.toList.drop 3).map (·.type.name)

/-- What is read off every object is the same when it is the same of each. -/
theorem map_objects_congr {α : Type} {f : Object → α}
    (h : ∀ r : Ref, (w'.objects[r]?).map f = (w.objects[r]?).map f) :
    w'.objects.toList.map f = w.objects.toList.map f := by
  apply List.ext_getElem?
  intro r
  rw [List.getElem?_map, List.getElem?_map, Array.getElem?_toList, Array.getElem?_toList, h]

/-- The types that objects were made of depend on these types only. -/
theorem madeTypes_congr
    (h : ∀ r : Ref, (w'.objects[r]?).map (·.type) = (w.objects[r]?).map (·.type)) :
    w'.madeTypes = w.madeTypes := by
  have hnames : ∀ objects : List Object, (objects.drop 3).map (·.type.name) =
      ((objects.map (·.type)).drop 3).map TypeObject.name := fun objects => by
    rw [← List.map_drop, List.map_map]
    rfl
  rw [madeTypes, madeTypes, hnames, hnames, map_objects_congr h]

/-- Counts leave it as it is what objects were made of. -/
theorem Recounted.madeTypes (h : w.Recounted w') : w'.madeTypes = w.madeTypes := by
  refine madeTypes_congr fun r => ?_
  rcases h.objects r with hr | ⟨-, count, hr⟩
  · rw [hr]
  · rw [hr, Option.map_map]
    rfl

/-- The end of an object leaves it as it is what objects were made of. -/
theorem madeTypes_without (w : World) (r : Ref) : (w.without r).madeTypes = w.madeTypes := by
  refine madeTypes_congr fun s => ?_
  rw [without, modify, Array.getElem?_modify]
  split
  · rw [Option.map_map]
    rfl
  · rfl

/-- Nothing is made while references are released. -/
theorem Wanes.madeTypes (h : w.Wanes w') : w'.madeTypes = w.madeTypes := by
  cases h with
  | recounted h => exact h.madeTypes
  | @ended r object w₁ m _ _ hcounts _ =>
    have hopened : w₁.madeTypes = (w.opened object).madeTypes := hcounts.madeTypes
    exact (madeTypes_without w₁ r).trans hopened

/-- Releases leave it as it is what objects were made of. -/
theorem Declines.madeTypes (h : w.Declines w') : w'.madeTypes = w.madeTypes := by
  induction h with
  | refl => rfl
  | tail _ hwanes ih => exact hwanes.madeTypes.trans ih

end World

end ExtensionHost
