import ExtensionHost.Size
import ExtensionHost.Text.Quoted

/-!
# `ExtensionHost.Object.TypeObject`: the types of boxed objects

A type says how large its objects are, what it is derived from, and what
is done when an object of it goes. Types are told apart by identity: two
types may agree in everything they say, even in their tag, and still be
different types.
-/

set_option autoImplicit false

namespace ExtensionHost

/-- What is done when the last reference to an object is gone. -/
inductive ReleaseRoutine
  /-- The object must not go: the process stops. -/
  | forbidden
  /-- The storage of the object is freed. -/
  | plain
  /-- The occupants of the slots are released, then as for `plain`. -/
  | tuple
  /-- The occupants of the slots are released, the buffer is freed, then as
  for `plain`. -/
  | list
  /-- The label of the object is reported, then as for `plain`. -/
  | reporting
deriving DecidableEq, Repr, Inhabited

/-- A type of boxed objects. -/
inductive TypeObject
  | mk (identity : Nat) (name : String) (tag basicSize itemSize : Nat) (varSized : Bool)
    (base : Option TypeObject) (routine : ReleaseRoutine)
deriving Repr

namespace TypeObject

/-- Tags below this one are those of built-in types. -/
def firstUserTag : Nat := 0x100

/-- What types are told apart by. -/
def identity : TypeObject → Nat
  | mk identity _ _ _ _ _ _ _ => identity

/-- The name shown in errors and events. -/
def name : TypeObject → String
  | mk _ name _ _ _ _ _ _ => name

/-- The number under which the type can be registered. -/
def tag : TypeObject → Nat
  | mk _ _ tag _ _ _ _ _ => tag

/-- The bytes of an object without items. -/
def basicSize : TypeObject → Nat
  | mk _ _ _ basicSize _ _ _ _ => basicSize

/-- The bytes of each item that is stored in the object itself. -/
def itemSize : TypeObject → Nat
  | mk _ _ _ _ itemSize _ _ _ => itemSize

/-- Whether objects of the type record a number of items. -/
def varSized : TypeObject → Bool
  | mk _ _ _ _ _ varSized _ _ => varSized

/-- The type this one is derived from. -/
def base : TypeObject → Option TypeObject
  | mk _ _ _ _ _ _ base _ => base

/-- What is done when an object of the type goes. -/
def routine : TypeObject → ReleaseRoutine
  | mk _ _ _ _ _ _ _ routine => routine

/-- A type that is derived from none. Objects whose items have a size
record their number. -/
def new (identity : Nat) (name : String) (tag basicSize itemSize : Nat)
    (routine : ReleaseRoutine) : TypeObject :=
  mk identity name tag basicSize itemSize (0 < itemSize) none routine

/-- The type, with a number of items recorded in its objects. -/
def withVarSize : TypeObject → TypeObject
  | mk identity name tag basicSize itemSize _ base routine =>
    mk identity name tag basicSize itemSize true base routine

/-- The type, derived from another. -/
def withBase : (type parent : TypeObject) → TypeObject
  | mk identity name tag basicSize itemSize varSized _ routine, parent =>
    mk identity name tag basicSize itemSize varSized (some parent) routine

/-- Whether the tag is one of a built-in type. -/
def isBuiltin (type : TypeObject) : Bool := type.tag < firstUserTag

/-- The bytes of an object with `items` items, if that is a size. -/
def instanceSize? (type : TypeObject) (items : Nat) : Option Nat :=
  (Size.mul? type.itemSize items).bind (Size.add? · type.basicSize)

/-- Whether a type is another one or derived from it, directly or through
others. -/
def isSubtypeOf : TypeObject → TypeObject → Bool
  | mk identity _ _ _ _ _ base _, other =>
    identity = other.identity ||
      match base with
      | none => false
      | some parent => isSubtypeOf parent other

/-- All that a type says, in one line. -/
def describe (type : TypeObject) : String :=
  "TypeObject \x7b name: " ++ Text.quote type.name
    ++ ", tag: TypeTag(" ++ toString type.tag
    ++ "), basic_size: " ++ toString type.basicSize
    ++ ", item_size: " ++ toString type.itemSize
    ++ ", var_sized: " ++ toString type.varSized
    ++ ", base: " ++ (match type.base with
      | none => "None"
      | some parent => "Some(" ++ Text.quote parent.name ++ ")")
    ++ " \x7d"

/-! ## The built-in types -/

/-- The type of the object that stands for nothing. -/
def none : TypeObject := new 0 "NoneType" 0 16 0 .forbidden

/-- The type of integers. -/
def int : TypeObject := new 2 "int" 2 32 0 .plain

/-- The type of the two truth values, which are integers. -/
def bool : TypeObject := (new 1 "bool" 1 32 0 .forbidden).withBase int

/-- The type of floating-point numbers. -/
def float : TypeObject := new 3 "float" 3 24 0 .plain

/-- The type of texts. One byte of the basic size is for the NUL after
the text. -/
def str : TypeObject := new 4 "str" 4 25 1 .plain

/-- The type of tuples. -/
def tuple : TypeObject := new 5 "tuple" 5 24 8 .tuple

/-- The type of lists, whose slots lie in a buffer of their own. -/
def list : TypeObject := (new 6 "list" 6 40 0 .list).withVarSize

/-- The built-in types. -/
def builtins : List TypeObject := [none, bool, int, float, str, tuple, list]

/-! ## Types of an extension -/

/-- An extension type whose objects report a label when they go. -/
def counted : TypeObject := new 0x200 "counted" 0x200 24 0 .reporting

/-- An extension type derived from `int`. -/
def myInt : TypeObject := (new 0x201 "myint" 0x201 32 0 .plain).withBase int

/-- An extension type derived from `bool`, whose objects may go. -/
def myBool : TypeObject := (new 0x202 "mybool" 0x202 32 0 .plain).withBase bool

/-- An extension type derived from `float`. -/
def myFloat : TypeObject := (new 0x203 "myfloat" 0x203 24 0 .plain).withBase float

/-- An extension type derived from `str`. -/
def myStr : TypeObject := (new 0x204 "mystr" 0x204 25 1 .plain).withBase str

/-- An extension type derived from `tuple`. -/
def myTuple : TypeObject := (new 0x205 "mytuple" 0x205 24 8 .tuple).withBase tuple

/-- An extension type derived from `list`. -/
def myList : TypeObject :=
  ((new 0x206 "mylist" 0x206 40 0 .list).withVarSize).withBase list

/-- The types of the extension. -/
def extension : List TypeObject :=
  [counted, myInt, myBool, myFloat, myStr, myTuple, myList]

end TypeObject

end ExtensionHost
