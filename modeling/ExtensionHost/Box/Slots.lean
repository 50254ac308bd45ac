import ExtensionHost.Object.Create

/-!
# `ExtensionHost.Box.Slots`: reading and filling the slots of a container

A slot is empty until it is filled, and an empty slot has no occupant to
read. Filling a slot takes over the reference to the new occupant and
releases the one to the old, after the new one is in place.
-/

set_option autoImplicit false

namespace ExtensionHost.Box

/-- The refusal of an index outside a container. -/
def outOfRange (index length : Nat) : ApiError :=
  .indexOutOfRange (Size.signed index) (Size.signed length)

/-- The occupant of a slot of an object with `length` slots. -/
def occupant (w : World) (object : Object) (length index : Nat) : Except ApiError Ref :=
  match w.slot? object index with
  | none => .error (outOfRange index length)
  | some none => .error (.uninitializedSlot (Size.signed index))
  | some (some r) => .ok r

/-- Puts an object into the slot at an offset of a block and releases what
was there. -/
def fillSlot (block : Address) (offset : Nat) (item : Ref) : Host Unit := do
  let old := ((← get).memory.process.payload block).word? offset
  modify (·.modifyPayload block (·.setWord offset (some item)))
  match old with
  | some r => Host.release r
  | none => pure ()

end ExtensionHost.Box
