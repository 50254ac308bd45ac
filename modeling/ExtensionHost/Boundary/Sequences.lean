import ExtensionHost.Boundary.Report
import ExtensionHost.Box.GrowList
import ExtensionHost.Box.Tuple

/-!
# `ExtensionHost.Boundary.Sequences`: tuples and lists at the boundary

Lengths and indices come as signed 64-bit words. A function that puts an
item into a container takes over the reference to the item whatever
happens, so a refused item is released. A function that reads a slot gives
a pointer without a reference.
-/

set_option autoImplicit false

namespace ExtensionHost.Boundary

/-- The length of a container that is asked for. -/
def containerLength (length : Int) : Except ApiError Nat :=
  if 0 ≤ length then .ok length.toNat else .error (.overflow "container size")

/-- An index into a container. -/
def containerIndex (index : Int) (length : Nat) : Except ApiError Nat :=
  if 0 ≤ index ∧ index < length then .ok index.toNat
  else .error (.indexOutOfRange index (Size.signed length))

/-- Puts an item into a container whose length and setter are given. -/
def setItem (length : World → Ref → Except ApiError Nat)
    (set : Ref → Nat → Ref → Attempt Unit) (container : Pointer) (index : Int)
    (item : Pointer) : Attempt Unit := do
  let item ← Attempt.ofExcept (deref item)
  let (container, index) ← Attempt.consuming item do
    let container ← Attempt.ofExcept (deref container)
    let length ← Attempt.read (length · container)
    let index ← Attempt.ofExcept (containerIndex index length)
    return (container, index)
  set container index item

/-- The occupant of a slot of a container whose length and reader are
given. -/
def getItem (length : World → Ref → Except ApiError Nat)
    (item : World → Ref → Nat → Except ApiError Ref) (container : Pointer) (index : Int) :
    Attempt Ref :=
  readFrom container fun w r => do
    let index ← containerIndex index (← length w r)
    item w r index

/-! ### Tuples -/

/-- A tuple with empty slots. -/
def tupleNew (length : Int) : Host Pointer :=
  newReference "PyTuple_New" do
    let length ← Attempt.ofExcept (containerLength length)
    Box.newTuple length

/-- The length of a tuple, or minus one. -/
def tupleSize (pointer : Pointer) : Host Int :=
  reporting "PyTuple_Size" (-1) do
    let length ← readFrom pointer Box.tupleLength
    return Size.signed length

/-- The occupant of a slot of a tuple, or null. -/
def tupleGetItem (pointer : Pointer) (index : Int) : Host Pointer :=
  newReference "PyTuple_GetItem" (getItem Box.tupleLength Box.tupleItem pointer index)

/-- Fills a slot of a tuple. -/
def tupleSetItem (pointer : Pointer) (index : Int) (item : Pointer) : Host Int :=
  status "PyTuple_SetItem" (setItem Box.tupleLength Box.setTupleItem pointer index item)

/-- Whether there is a tuple. -/
def tupleCheck (pointer : Pointer) : Host Bool := test pointer (·.isInstance · .tuple)

/-! ### Lists -/

/-- A list with empty slots. -/
def listNew (length : Int) : Host Pointer :=
  newReference "PyList_New" do
    let length ← Attempt.ofExcept (containerLength length)
    Box.newList length

/-- The length of a list, or minus one. -/
def listSize (pointer : Pointer) : Host Int :=
  reporting "PyList_Size" (-1) do
    let length ← readFrom pointer Box.listLength
    return Size.signed length

/-- The occupant of a slot of a list, or null. -/
def listGetItem (pointer : Pointer) (index : Int) : Host Pointer :=
  newReference "PyList_GetItem" (getItem Box.listLength Box.listItem pointer index)

/-- Fills a slot of a list. -/
def listSetItem (pointer : Pointer) (index : Int) (item : Pointer) : Host Int :=
  status "PyList_SetItem" (setItem Box.listLength Box.setListItem pointer index item)

/-- Adds an item at the end of a list. -/
def listAppend (pointer : Pointer) (item : Pointer) : Host Int :=
  status "PyList_Append" do
    let item ← Attempt.ofExcept (deref item)
    let list ← Attempt.consuming item (Attempt.ofExcept (deref pointer))
    Box.appendItem list item

/-- Whether there is a list. -/
def listCheck (pointer : Pointer) : Host Bool := test pointer (·.isInstance · .list)

end ExtensionHost.Boundary
