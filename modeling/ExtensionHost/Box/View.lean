import ExtensionHost.Box.Sequence
import ExtensionHost.Box.Text

/-!
# `ExtensionHost.Box.View`: a box and all that it contains, as a tree

A view shows what a box is, how many references to it there are, and the
views of what is in its slots. A container that contains itself is not
entered again: the view tells how many containers further out it stands.
Containers that are being entered never repeat, so there are at most as
many of them as objects, and the number of objects bounds the depth of a
view.
-/

set_option autoImplicit false

namespace ExtensionHost

/-- What a box is, apart from what is in its slots. -/
inductive Face
  | nothing
  | truth (value : Bool)
  | integer (value : Int)
  | real (value : Double)
  | text (value : String)
  | tuple
  | list
  | labelled (label : Int)
deriving DecidableEq, Repr

/-- A box and all that it contains. -/
inductive View
  /-- A slot that was never filled. -/
  | empty
  /-- The container `distance` levels further out. -/
  | enclosing (distance : Nat)
  /-- A box. An immortal one shows no count, and `derived` says whether its
  type is an extension's variant of the type that its face belongs to. -/
  | box (count : Option Int) (derived : Bool) (face : Face) (slots : List View)
deriving Repr

namespace Box

/-- What a box is. -/
def face (w : World) (r : Ref) (object : Object) : Face :=
  match object.body with
  | .nothing => .nothing
  | .integer v => if object.type.isSubtypeOf .bool then .truth (v ≠ 0) else .integer v
  | .real x => .real x
  | .text _ => .text ((text w r).toOption.getD "")
  | .tuple _ => .tuple
  | .list _ _ _ => .list
  | .labelled label => .labelled label

/-- Whether a type is an extension's variant of a built-in type. -/
def isDerived (type : TypeObject) : Bool := !type.isBuiltin && type.base.isSome

/-- The view of a box inside the containers `around`, the innermost of
them first, when at most `depth` levels can be entered. -/
def viewWithin (w : World) : (depth : Nat) → (around : List Ref) → Ref → View
  | 0, _, _ => .empty
  | depth + 1, around, r =>
    match around.idxOf? r with
    | some distance => .enclosing (distance + 1)
    | none =>
      match w.object? r with
      | none => .empty
      | some object =>
        let count := if object.isImmortal then none else some object.count
        let slots := (w.slotsOf object).map fun slot =>
          match slot with
          | some item => viewWithin w depth (r :: around) item
          | none => .empty
        .box count (isDerived object.type) (face w r object) slots

/-- The view of a box. -/
def view (w : World) (r : Ref) : View := viewWithin w (w.objects.size + 1) [] r

end Box

end ExtensionHost
