import ExtensionHost.Box.GrowList
import ExtensionHost.Box.Scalar
import ExtensionHost.Box.Text
import ExtensionHost.Box.Tuple
import ExtensionHost.Session.Basic

/-!
# `ExtensionHost.Session.Recipe`: building values from descriptions

A recipe describes a value. What is in the slots of a container is built
first, then the container, then the slots are filled; only a list of the
extension's variant is made empty before its items are built, which are
added to it when all of them are there. When something cannot be built, what
was built before it is released.
-/

set_option autoImplicit false

namespace ExtensionHost

/-- A description of a value. A derived one is of the extension's variant
of its type. -/
inductive Recipe
  /-- A slot that is not filled. -/
  | empty
  | nothing
  | truth (value : Bool)
  | integer (derived : Bool) (value : Int)
  /-- A truth value of the extension's variant, which is not one of the two
  objects that are never to go. -/
  | derivedTruth (value : Bool)
  | real (derived : Bool) (value : Double)
  | text (derived : Bool) (bytes : ByteArray)
  | tuple (slots : List Recipe) (derived : Bool)
  | list (slots : List Recipe) (derived : Bool)
  | labelled (label : Int)
  /-- The object of a handle. -/
  | handle (name : String)
deriving Inhabited

namespace Session

/-- Fills slots from `index` on. The references that are not used up are
released when a slot cannot be filled. -/
def fillSlots (set : Nat → Ref → Attempt Unit) :
    (index : Nat) → List (Option Ref) → Inquiry Unit
  | _, [] => pure ()
  | index, none :: rest => fillSlots set (index + 1) rest
  | index, some r :: rest => do
    guarding (rest.filterMap id) (attempt (set index r))
    fillSlots set (index + 1) rest

/-- Makes a container and fills its slots. -/
def container (make : Attempt Ref) (set : Ref → Nat → Ref → Attempt Unit)
    (slots : List (Option Ref)) : Inquiry Ref := do
  let r ← guarding (slots.filterMap id) (attempt make)
  guarding [r] (fillSlots (set r) 0 slots)
  return r

mutual

/-- A new reference to the value of a recipe. -/
def build : Recipe → Inquiry Ref
  | .empty => throw .unbound
  | .nothing => host Box.newNone
  | .truth b => host (Box.newBool b)
  | .integer derived v => attempt (Box.newIntegerOf (if derived then .myInt else .int) v)
  | .derivedTruth b => attempt (Box.newIntegerOf .myBool (if b then 1 else 0))
  | .real derived x => attempt (Box.newRealOf (if derived then .myFloat else .float) x)
  | .text derived bytes =>
    attempt (Box.newTextOfBytes (if derived then .myStr else .str) bytes)
  | .tuple recipes derived => do
    let slots ← buildSlots [] recipes
    container (Box.newTupleOf (if derived then .myTuple else .tuple) slots.length)
      Box.setTupleItem slots
  | .list recipes false => do
    let slots ← buildSlots [] recipes
    container (Box.newList slots.length) Box.setListItem slots
  | .list recipes true => do
    let r ← attempt (Box.newListOf .myList 0)
    let slots ← guarding [r] (buildSlots [] recipes)
    guarding [r] (fillSlots (fun _ item => Box.appendItem r item) 0 slots)
    return r
  | .labelled label => attempt (Object.new .counted (.labelled label))
  | .handle name => do
    let (_, handle) ← find name
    host (Host.retain handle.ref)
    return handle.ref

/-- The occupants of slots, those in front of them having been built. -/
def buildSlots (built : List (Option Ref)) : List Recipe → Inquiry (List (Option Ref))
  | [] => return built.reverse
  | .empty :: rest => buildSlots (none :: built) rest
  | recipe :: rest => do
    let r ← guarding (built.reverse.filterMap id) (build recipe)
    buildSlots (some r :: built) rest

end

/-- An object to work on, which is released with the group that was started
last unless a handle keeps it. -/
def useInGroup : Recipe → Inquiry Ref
  | .handle name => do return (← find name).2.ref
  | recipe => do
    let r ← build recipe
    addToGroup r
    return r

/-- An object to work on, which is released when the operation ends unless
a handle keeps it. -/
def use (recipe : Recipe) : Inquiry Ref := do
  newGroup
  useInGroup recipe

/-- A reference to give away. -/
def give : Recipe → Inquiry Ref
  | .handle name => take name
  | recipe => build recipe

/-- References to give away. -/
def giveAll (given : List Ref) : List Recipe → Inquiry (List Ref)
  | [] => return given.reverse
  | recipe :: rest => do
    let r ← guarding given.reverse (give recipe)
    giveAll (r :: given) rest

end Session

end ExtensionHost
