import ExtensionHost.Box.GrowList
import ExtensionHost.Box.Scalar
import ExtensionHost.Box.Tuple

/-!
# `ExtensionHost.Box.Growth`: long lists and deep nesting
-/

set_option autoImplicit false

namespace ExtensionHost.Box

/-- Appends `count` integers to a list, the first of which is `v`. The
answer adds to the given capacities those that the list went through, the
last one first. -/
def appendIntegers (list : Ref) :
    (count : Nat) → (v : Nat) → (capacities : List Nat) → Attempt (List Nat)
  | 0, _, capacities => return capacities
  | count + 1, v, capacities => do
    let item ← newInteger v
    appendItem list item
    let capacity ← Attempt.read (listCapacity · list)
    appendIntegers list count (v + 1)
      (if capacities.head? = some capacity then capacities else capacity :: capacities)

/-- Appends the integers from zero on to a list. The answer is the length
of the list and the capacities that it went through. -/
def growBy (list : Ref) (count : Nat) : Attempt (Nat × List Nat) := do
  let capacity ← Attempt.read (listCapacity · list)
  let capacities ← appendIntegers list count 0 [capacity]
  return (← Attempt.read (listLength · list), capacities.reverse)

/-- A list of one item, the reference to which is used up. -/
def singletonList (item : Ref) : Attempt Ref := do
  let list ← Attempt.consuming item (newList 0)
  Attempt.consuming list (appendItem list item)
  return list

/-- Wraps an object `depth` times, in a tuple or in a list as `inTuple` says
for each level. The reference to the object is used up. -/
def wrapTimes (inTuple : Nat → Bool) : (depth : Nat) → (level : Nat) → Ref → Attempt Ref
  | 0, _, r => return r
  | depth + 1, level, r => do
    let outer ← if inTuple level then tupleOf [r] else singletonList r
    wrapTimes inTuple depth (level + 1) outer

end ExtensionHost.Box
