import ExtensionHost.Box.GrowList
import ExtensionHost.Box.Tuple

/-!
# `ExtensionHost.Box.Sequence`: tuples and lists alike
-/

set_option autoImplicit false

namespace ExtensionHost.Box

/-- The slots of a tuple or a list. -/
def sequenceSlots (w : World) (r : Ref) : Except ApiError (List (Option Ref)) :=
  if w.isInstance r .tuple then tupleSlots w r
  else if w.isInstance r .list then listSlots w r
  else
    match w.object r with
    | .error e => .error e
    | .ok object => .error (.typeMismatch "sequence" object.type.name)

/-- The occupants of the slots of a tuple or a list, or why a slot has
none. -/
def sequenceItems (w : World) (r : Ref) : Except ApiError (List (Except ApiError Ref)) :=
  (sequenceSlots w r).map fun slots =>
    slots.mapIdx fun index slot =>
      match slot with
      | some item => .ok item
      | none => .error (.uninitializedSlot index)

end ExtensionHost.Box
