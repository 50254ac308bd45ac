import ExtensionHost.Box.Slots

/-!
# `ExtensionHost.Box.GrowList`: lists

A list has its slots in a buffer, which may have room for more than are in
use. When it is full the buffer is resized to twice its capacity, so that
appending costs little on average; the first buffer of a list that was
made empty has room for four. Every slot in use stands in the first part
of the buffer.
-/

set_option autoImplicit false

namespace ExtensionHost.Box

/-- The capacity that an empty list gets with its first item. -/
def firstCapacity : Nat := 4

/-- A list of a type derived from `list`, with empty slots. -/
def newListOf (type : TypeObject) (length : Nat) : Attempt Ref := do
  let r ← Object.new type (.list 0 0 none)
  if length = 0 then return r
  match ← modifyGet (World.onMemory (·.calloc length World.slotSize)) with
  | some buffer =>
    modify (·.modify r fun object => { object with body := .list length length (some buffer) })
    return r
  | none =>
    Host.release r
    throw (.allocationFailed (min (length * World.slotSize) Size.greatest))

/-- A list with empty slots. -/
def newList (length : Nat) : Attempt Ref := newListOf .list length

/-- The object of a list, its length, its capacity and its buffer. -/
def listObject (w : World) (r : Ref) :
    Except ApiError (Object × Nat × Nat × Option Address) :=
  match w.instanceOf r .list with
  | .error e => .error e
  | .ok object =>
    match object.body with
    | .list length capacity buffer => .ok (object, length, capacity, buffer)
    | _ => .error (.typeMismatch TypeObject.list.name object.type.name)

/-- The length of a list. -/
def listLength (w : World) (r : Ref) : Except ApiError Nat :=
  (listObject w r).map fun (_, length, _, _) => length

/-- The number of slots in the buffer of a list. -/
def listCapacity (w : World) (r : Ref) : Except ApiError Nat :=
  (listObject w r).map fun (_, _, capacity, _) => capacity

/-- The slots of a list. -/
def listSlots (w : World) (r : Ref) : Except ApiError (List (Option Ref)) :=
  (listObject w r).map fun (object, _, _, _) => w.slotsOf object

/-- The occupant of a slot of a list. -/
def listItem (w : World) (r : Ref) (index : Nat) : Except ApiError Ref := do
  let (object, length, _) ← listObject w r
  occupant w object length index

/-- Fills a slot of a list. The reference to the item is used up. -/
def setListItem (r : Ref) (index : Nat) (item : Ref) : Attempt Unit := do
  let (_, length, _, buffer) ← Attempt.consuming item <| Attempt.read (listObject · r)
  if index < length then
    match buffer with
    | some block => fillSlot block (World.slotSize * index) item
    | none => Host.release item
  else Attempt.consuming item (throw (outOfRange index length))

/-- The capacity after the next growth, and the bytes of a buffer with that
capacity, unless there are too many of them. -/
def grownCapacity? (capacity : Nat) : Option (Nat × Nat) := do
  let grown ← if capacity = 0 then some firstCapacity else Size.mul? capacity 2
  let bytes ← Size.mul? grown World.slotSize
  if Size.addressable < bytes then none else some (grown, bytes)

/-- Resizes the buffer of a list whose `length` slots are all in use. The
new slots are empty. -/
def growList (r : Ref) (length capacity : Nat) (buffer : Option Address) : Attempt Unit := do
  match grownCapacity? capacity with
  | none => throw (.allocationFailed Size.greatest)
  | some (grown, bytes) =>
    match ← Host.runMemory (Memory.realloc buffer bytes) with
    | none => throw (.allocationFailed bytes)
    | some buffer =>
      modify (·.modifyPayload buffer
        (·.fill (World.slotSize * length) (World.slotSize * (grown - length)) 0))
      modify (·.modify r fun object => { object with body := .list length grown (some buffer) })
      Host.report (.bufferGrown capacity grown)

/-- Adds an item at the end of a list. The reference to the item is used
up. -/
def appendItem (r : Ref) (item : Ref) : Attempt Unit := do
  let (_, length, capacity, buffer) ←
    Attempt.consuming item do
      let (_, length, capacity, buffer) ← Attempt.read (listObject · r)
      if length = capacity then growList r length capacity buffer
      Attempt.read (listObject · r)
  modify (·.modify r fun object => { object with body := .list (length + 1) capacity buffer })
  match buffer with
  | some block => fillSlot block (World.slotSize * length) item
  | none => Host.release item

end ExtensionHost.Box
