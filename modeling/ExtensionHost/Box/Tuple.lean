import ExtensionHost.Box.Slots

/-!
# `ExtensionHost.Box.Tuple`: tuples

A tuple has its slots in its own block. It is made with all of them empty,
and its length never changes.
-/

set_option autoImplicit false

namespace ExtensionHost.Box

/-- A tuple of a type derived from `tuple`, with empty slots. -/
def newTupleOf (type : TypeObject) (length : Nat) : Attempt Ref :=
  Object.newSized type length (.tuple length)

/-- A tuple with empty slots. -/
def newTuple (length : Nat) : Attempt Ref := newTupleOf .tuple length

/-- The object of a tuple, and its length. -/
def tupleObject (w : World) (r : Ref) : Except ApiError (Object × Nat) :=
  match w.instanceOf r .tuple with
  | .error e => .error e
  | .ok object =>
    match object.body with
    | .tuple length => .ok (object, length)
    | _ => .error (.typeMismatch TypeObject.tuple.name object.type.name)

/-- The length of a tuple. -/
def tupleLength (w : World) (r : Ref) : Except ApiError Nat :=
  (tupleObject w r).map (·.2)

/-- The slots of a tuple. -/
def tupleSlots (w : World) (r : Ref) : Except ApiError (List (Option Ref)) :=
  (tupleObject w r).map fun (object, _) => w.slotsOf object

/-- The occupant of a slot of a tuple. -/
def tupleItem (w : World) (r : Ref) (index : Nat) : Except ApiError Ref := do
  let (object, length) ← tupleObject w r
  occupant w object length index

/-- Fills a slot of a tuple. The reference to the item is used up. -/
def setTupleItem (r : Ref) (index : Nat) (item : Ref) : Attempt Unit := do
  let (object, length) ← Attempt.consuming item <| Attempt.read (tupleObject · r)
  if index < length then
    match object.home with
    | some block => fillSlot block (World.contentStart + World.slotSize * index) item
    | none => Host.release item
  else Attempt.consuming item (throw (outOfRange index length))

/-- Fills the slots of a tuple from `index` on. -/
def fillTuple (r : Ref) : (index : Nat) → List Ref → Attempt Unit
  | _, [] => pure ()
  | index, item :: rest => do
    setTupleItem r index item
    fillTuple r (index + 1) rest

/-- A tuple of items, the references to which are used up. -/
def tupleOf (items : List Ref) : Attempt Ref := do
  match ← (newTuple items.length).run with
  | .error e =>
    Host.releaseAll items
    throw e
  | .ok r =>
    fillTuple r 0 items
    return r

end ExtensionHost.Box
