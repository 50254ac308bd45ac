import ExtensionHost.Boundary.Arguments
import ExtensionHost.Boundary.Objects
import ExtensionHost.Boundary.Scalars
import ExtensionHost.Boundary.Sequences
import ExtensionHost.Method.Dispatch

/-!
# `ExtensionHost.Extension.Sample`: functions of a sample extension

The functions see pointers, as foreign code does, and a call that fails
answers a null pointer. What they convert goes through the boundary, which
reports its refusals; containers and texts that they fail to make for
themselves are not reported.
-/

set_option autoImplicit false

namespace ExtensionHost.Extension

/-- The pointer to what an attempt makes, or null when it is refused. -/
def made (attempt : Attempt Ref) : Host Pointer := do
  return (← attempt.run).toOption

/-- A new reference to what a pointer points to, or the text `NULL` for a
null pointer. -/
def shown (pointer : Pointer) : Host Pointer := do
  match pointer with
  | some r =>
    Boundary.retain r
    return some r
  | none => made (Box.newText "NULL")

/-- What pointers show, from the first on. Once one of them cannot be shown
the others are not looked at, and the references in `shownBefore`, those
got last first, are released. -/
def shownEach (shownBefore : List Ref) : List Pointer → Host (Option (List Ref))
  | [] => return some shownBefore.reverse
  | pointer :: rest => do
    match ← shown pointer with
    | some r => shownEach (r :: shownBefore) rest
    | none =>
      Host.releaseAll shownBefore.reverse
      return none

/-- Gives back what it was called with: a tuple of the receiver, the
arguments and those given by name. -/
def probe : NativeFunction := fun receiver arguments keywords => do
  match ← shownEach [] [receiver, arguments, keywords] with
  | some items => made (Box.tupleOf items)
  | none => return none

/-- Fails. -/
def fail : NativeFunction := fun _ _ _ => pure none

/-- What stands in the outputs after a parse that succeeded, and nothing
after one that failed. -/
def contents (success : Int) (outputs : List Output) : List Native :=
  if success = 0 then [] else outputs.filterMap (·.content)

/-- The sum of two integers. -/
def add : NativeFunction := fun _ arguments _ => do
  let format := RawText.ofBytes "ll:add".toUTF8
  let (success, outputs) ←
    Boundary.parseTuple arguments format (.slots [.ofNative (.long 0), .ofNative (.long 0)])
  match contents success outputs with
  | [.long a, .long b] => Boundary.longFromLong (NativeInt.long.wrap (a + b))
  | _ => return none

/-- The product of a float and an integer, which is one unless given. -/
def scaled : NativeFunction := fun _ arguments keywords => do
  let format := RawText.ofBytes "d|l;need a number".toUTF8
  let (success, outputs) ←
    Boundary.parseTupleAndKeywords arguments keywords format
      (some ["x".toUTF8, "scale".toUTF8])
      (.slots [.ofNative (.double (.ofInt 0)), .ofNative (.long 1)])
  match contents success outputs with
  | [.double x, .long scale] => Boundary.floatFromDouble (x.mul (.ofInt scale))
  | _ => return none

/-- Adds the integers among the items of a list from `index` on to
`total`. -/
def sumItems (list : Pointer) : (count : Nat) → (index : Nat) → (total : Int) → Host Pointer
  | 0, _, total => Boundary.longFromLong total
  | count + 1, index, total => do
    match ← Boundary.listGetItem list index with
    | none => return none
    | some item =>
      let total ←
        if ← Boundary.longCheck item then do
          let v ← Boundary.longAsLong item
          pure (NativeInt.long.wrap (total + v))
        else pure total
      sumItems list count (index + 1) total

/-- The sum of the integers in a list. -/
def sumList : NativeFunction := fun _ argument _ => do
  if ← Boundary.listCheck argument then
    let size ← Boundary.listSize argument
    sumItems argument size.toNat 0 0
  else return none

/-- A list of the argument alone. -/
def wrap : NativeFunction := fun _ argument _ => do
  match ← made (Box.newList 0) with
  | none => return none
  | some list =>
    Boundary.retain argument
    if (← Boundary.listAppend list argument) = 0 then return some list
    else
      Boundary.release list
      return none

/-- The functions by name. -/
def functions : List (String × NativeFunction) :=
  [("probe", probe), ("fail", fail), ("add", add), ("scaled", scaled), ("sum_list", sumList),
    ("wrap", wrap)]

end ExtensionHost.Extension
