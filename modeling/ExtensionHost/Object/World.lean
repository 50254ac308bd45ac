import ExtensionHost.Config.Settings
import ExtensionHost.Number.Binary
import ExtensionHost.Object.TypeObject
import ExtensionHost.Storage.Memory

/-!
# `ExtensionHost.Object.World`: the objects of a thread and all they depend on

Objects are kept in the order in which they were made and are named by
their place in that order. An object that is gone stays in the table,
marked as gone, so a name never comes to mean another object. The first
three objects are the one that stands for nothing and the two truth
values; they do not lie in a block and are meant to stay for ever.

What an object holds beyond its count and type lies partly in the object
and partly in blocks: the bytes of a text and the slots of a tuple stand
in the object's own block, the slots of a list in a buffer.
-/

set_option autoImplicit false

namespace ExtensionHost

/-- The name of an object: its place in the table of objects. -/
abbrev Ref := Nat

namespace Ref

/-- The object that stands for nothing. -/
def none : Ref := 0

/-- The truth value true. -/
def yes : Ref := 1

/-- The truth value false. -/
def no : Ref := 2

/-- The object of a truth value. -/
def ofBool (b : Bool) : Ref := if b then yes else no

end Ref

/-- What an object holds. -/
inductive Body
  | nothing
  | integer (value : Int)
  | real (value : Double)
  /-- `length` bytes of text in the object's block. -/
  | text (length : Nat)
  /-- `length` slots in the object's block. -/
  | tuple (length : Nat)
  /-- The first `length` of the `capacity` slots in the buffer. -/
  | list (length capacity : Nat) (buffer : Option Address)
  /-- The label of an extension object. -/
  | labelled (label : Int)
deriving DecidableEq, Repr, Inhabited

/-- A boxed object. -/
structure Object where
  type : TypeObject
  /-- How many references to the object there are. -/
  count : Int
  body : Body
  /-- The block the object lies in. -/
  home : Option Address
  /-- Whether the object is still there. -/
  live : Bool := true

/-- From this count on an object is immortal: its count stays as it is. -/
def immortalCount : Int := 0x4000000000000000

namespace Object

/-- Whether counting references leaves the object alone. -/
def isImmortal (object : Object) : Bool := immortalCount ≤ object.count

/-- The number of items that the object records, if its type says that it
records one. -/
def recordedSize (object : Object) : Option Nat :=
  if object.type.varSized then
    match object.body with
    | .text length | .tuple length | .list length _ _ => some length
    | _ => some 0
  else none

/-- The object of a type that is never to go. -/
def immortal (type : TypeObject) (body : Body) : Object :=
  { type, count := immortalCount, body, home := none }

end Object

/-- The objects of a thread and all that they depend on. -/
structure World where
  memory : Memory
  objects : Array Object := #[
    .immortal .none .nothing, .immortal .bool (.integer 1), .immortal .bool (.integer 0)]
  /-- Objects whose count is zero and whose routine has yet to run, the one
  to be taken next first. -/
  pending : List Ref := []
  /-- Whether a release routine is running. -/
  draining : Bool := false
  /-- The labels reported by extension objects that went. -/
  reports : Array Int := #[]
  /-- The types that can be looked up by their tag. -/
  registry : List TypeObject := TypeObject.builtins
  logging : LoggingSettings := {}
  /-- Whether the runtime was started. -/
  started : Bool := false

/-- An operation on the world that may stop the process. -/
abbrev Host := EStateM Fault World

/-- An operation on the world that may also be refused. What it changed
before the refusal stays changed. -/
structure Attempt (α : Type) where
  /-- The operation, with its refusal as a value. -/
  run : Host (Except ApiError α)

namespace World

/-- The world of a thread that has not done anything. -/
def new (system : System) (settings : AllocatorSettings) : World :=
  { memory := .new system settings }

/-- The object of a name, if it is still there. -/
def object? (w : World) (r : Ref) : Option Object :=
  match w.objects[r]? with
  | some object => if object.live then some object else none
  | none => none

/-- The object of a name; a name without an object is refused. -/
def object (w : World) (r : Ref) : Except ApiError Object :=
  match w.object? r with
  | some object => .ok object
  | none => .error .nullReference

/-- How many references to an object there are; zero when it is gone. -/
def count (w : World) (r : Ref) : Int :=
  match w.object? r with
  | some object => object.count
  | none => 0

/-- Whether an object is an instance of a type. -/
def isInstance (w : World) (r : Ref) (type : TypeObject) : Bool :=
  match w.object? r with
  | some object => object.type.isSubtypeOf type
  | none => false

/-- Whether a type is an object's own type. -/
def isExact (w : World) (r : Ref) (type : TypeObject) : Bool :=
  match w.object? r with
  | some object => object.type.identity = type.identity
  | none => false

/-- An object that is known to be an instance of a type. -/
def instanceOf (w : World) (r : Ref) (type : TypeObject) : Except ApiError Object :=
  match w.object r with
  | .error e => .error e
  | .ok object =>
    if object.type.isSubtypeOf type then .ok object
    else .error (.typeMismatch type.name object.type.name)

/-- Refuses an object that is no instance of a type. -/
def ensureInstance (w : World) (r : Ref) (type : TypeObject) : Except ApiError Unit :=
  (w.instanceOf r type).map fun _ => ()

/-- Refuses an object whose own type is another one. -/
def ensureExact (w : World) (r : Ref) (type : TypeObject) : Except ApiError Unit :=
  match w.object r with
  | .error e => .error e
  | .ok object =>
    if object.type.identity = type.identity then .ok ()
    else .error (.typeMismatch type.name object.type.name)

/-- What the object's block holds. -/
def payloadOf (w : World) (object : Object) : Payload :=
  match object.home with
  | some a => w.memory.process.payload a
  | none => .blank

/-- The offset of the bytes of a text and of the slots of a tuple in the
block of the object. -/
def contentStart : Nat := 24

/-- The bytes of a slot. -/
def slotSize : Nat := 8

/-- The number of slots of an object, the payload that they stand in and
the offset of the first. -/
def slotTable (w : World) (object : Object) : Nat × Payload × Nat :=
  match object.body with
  | .tuple length => (length, w.payloadOf object, contentStart)
  | .list length _ (some buffer) => (length, w.memory.process.payload buffer, 0)
  | _ => (0, .blank, 0)

/-- The occupants of the slots of an object. -/
def slotsOf (w : World) (object : Object) : List (Option Ref) :=
  let (length, payload, start) := w.slotTable object
  (List.range length).map fun i => payload.word? (start + slotSize * i)

/-- The occupant of one slot of an object, if there is such a slot. -/
def slot? (w : World) (object : Object) (index : Nat) : Option (Option Ref) :=
  let (length, payload, start) := w.slotTable object
  if index < length then some (payload.word? (start + slotSize * index)) else none

/-- Looking into one slot is looking it up among all slots. -/
theorem slot?_eq_getElem?_slotsOf (w : World) (object : Object) (index : Nat) :
    w.slot? object index = (w.slotsOf object)[index]? := by
  by_cases h : index < (w.slotTable object).1 <;> simp [slot?, slotsOf, h]

/-- Adds an event. -/
def report (w : World) (event : Event) : World :=
  { w with memory := w.memory.report event }

/-- Changes an object. -/
def modify (w : World) (r : Ref) (f : Object → Object) : World :=
  { w with objects := w.objects.modify r f }

/-- Runs a function on the storage of the thread. -/
def onMemory {α : Type} (f : Memory → α × Memory) (w : World) : α × World :=
  let m := w.memory
  -- The world lets go of its storage, so that the tables have one owner and
  -- are changed in place.
  let w := { w with memory := default }
  let (a, m) := f m
  (a, { w with memory := m })

/-- The configuration in force. -/
def configuration (w : World) : Configuration :=
  { allocator := w.memory.installed, logging := w.logging }

end World

namespace Host

/-- Adds an event. -/
def report (event : Event) : Host Unit := modify (·.report event)

/-- Runs an operation on the storage of the thread. -/
def runMemory {α : Type} (operation : Operation Memory α) : Host α := fun w =>
  let m := w.memory
  let w := { w with memory := default }
  match operation m with
  | .ok a m => .ok a { w with memory := m }
  | .error fault m => .error fault { w with memory := m }

end Host

namespace Attempt

variable {α : Type}

instance : Monad Attempt where
  pure a := ⟨pure (.ok a)⟩
  bind attempt next := ⟨do
    match ← attempt.run with
    | .ok a => (next a).run
    | .error e => pure (.error e)⟩

instance : MonadExceptOf ApiError Attempt where
  throw e := ⟨pure (.error e)⟩
  tryCatch attempt handle := ⟨do
    match ← attempt.run with
    | .ok a => pure (.ok a)
    | .error e => (handle e).run⟩

instance : MonadLift Host Attempt where
  monadLift operation := ⟨do return .ok (← operation)⟩

/-- An answer that is there already. -/
def ofExcept : Except ApiError α → Attempt α
  | .ok a => pure a
  | .error e => throw e

/-- Something that is read off the world without changing it. -/
def read (f : World → Except ApiError α) : Attempt α := ⟨fun w => .ok (f w) w⟩

end Attempt

end ExtensionHost
