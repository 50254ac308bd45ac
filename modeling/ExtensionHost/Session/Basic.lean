import ExtensionHost.Config.Error
import ExtensionHost.Object.Create

/-!
# `ExtensionHost.Session.Basic`: a caller at work

A caller keeps objects under names and knows how many references to each
of them it owns. Once it owns none it may not use the object any more. The
references that an operation gets along the way are released when the
operation ends, those that were got last first.
-/

set_option autoImplicit false

namespace ExtensionHost

/-- Why an operation of a caller has no answer. -/
inductive Refusal
  | api (error : ApiError)
  | config (error : ConfigError)
  /-- The caller owns no reference under the name. -/
  | released
  /-- Nothing has the name. -/
  | unbound
  /-- There is no method table. -/
  | noTable
deriving DecidableEq, Repr

/-- An object that a caller keeps under a name. -/
structure Handle where
  name : String
  ref : Ref
  /-- How many references the caller owns. -/
  owned : Nat
  /-- Whether the caller never lets go of the object. -/
  pinned : Bool := false
  /-- Where the object lay when it got the name. -/
  home : Option Address

/-- A caller, and the world it works on. -/
structure Session where
  world : World
  handles : Array Handle := #[]
  /-- What is released when the operation ends: the group that was started
  last comes first, and in a group what was got first. -/
  scope : List (List Ref) := []

/-- A step of a caller. -/
abbrev Step := EStateM Fault Session

/-- A step of a caller that may have no answer. -/
structure Inquiry (α : Type) where
  /-- The step, with its refusal as a value. -/
  run : Step (Except Refusal α)

namespace Inquiry

variable {α : Type}

instance : Monad Inquiry where
  pure a := ⟨pure (.ok a)⟩
  bind inquiry next := ⟨do
    match ← inquiry.run with
    | .ok a => (next a).run
    | .error e => pure (.error e)⟩

instance : MonadExceptOf Refusal Inquiry where
  throw e := ⟨pure (.error e)⟩
  tryCatch inquiry handle := ⟨do
    match ← inquiry.run with
    | .ok a => pure (.ok a)
    | .error e => (handle e).run⟩

instance : MonadLift Step Inquiry where
  monadLift step := ⟨do return .ok (← step)⟩

end Inquiry

namespace Session

/-- A world that stands in for one that is being worked on. -/
def noWorld : World := .new (.bounded 0) {}

variable {α : Type}

/-- Runs an operation on the world. -/
def host (operation : Host α) : Step α := fun s =>
  let w := s.world
  -- The session lets go of its world, so that the tables have one owner and
  -- are changed in place.
  let s := { s with world := noWorld }
  match operation w with
  | .ok a w => .ok a { s with world := w }
  | .error fault w => .error fault { s with world := w }

/-- Reads something off the world. -/
def look (f : World → α) : Step α := fun s => .ok (f s.world) s

/-- An answer that is there already. -/
def ofApi : Except ApiError α → Inquiry α
  | .ok a => pure a
  | .error e => throw (.api e)

/-- Makes an attempt. -/
def attempt (operation : Attempt α) : Inquiry α := do ofApi (← host operation.run)

/-- Asks something of the world. -/
def query (f : World → Except ApiError α) : Inquiry α := do ofApi (← look f)

/-- Makes an inquiry while references are held, which are released when it
has no answer. They are listed only then. -/
def guarding (held : Thunk (List Ref)) (inquiry : Inquiry α) : Inquiry α :=
  try inquiry
  catch e => do
    host (Host.releaseAll held.get)
    throw e

/-! ### Handles -/

/-- The place and the handle of a name under which the caller owns a
reference. Under a name that was never given it owns none. -/
def find (name : String) : Inquiry (Nat × Handle) := do
  let handles := (← getThe Session).handles
  match handles.zipIdx.find? fun (handle, _) => handle.name = name with
  | some (handle, i) => if handle.owned = 0 then throw .released else return (i, handle)
  | none => throw .released

/-- Changes a handle. -/
def modifyHandle (i : Nat) (f : Handle → Handle) : Step Unit := modify fun s =>
  { s with handles := s.handles.modify i f }

/-- Keeps a reference under a name. -/
def bind (name : String) (r : Ref) : Step Unit := modify fun s =>
  let home := (s.world.object? r).bind (·.home)
  { s with handles := s.handles.push { name, ref := r, owned := 1, home } }

/-- Takes one of the references under a name. -/
def take (name : String) : Inquiry Ref := do
  let (i, handle) ← find name
  modifyHandle i fun handle => { handle with owned := handle.owned - 1 }
  return handle.ref

/-- Gets another reference under a name. -/
def retain (name : String) : Inquiry Ref := do
  let (i, handle) ← find name
  host (Host.retain handle.ref)
  modifyHandle i fun handle => { handle with owned := handle.owned + 1 }
  return handle.ref

/-- Keeps another reference to a named object under a name of its own. -/
def clone (name other : String) : Inquiry Unit := do
  let (_, handle) ← find name
  host (Host.retain handle.ref)
  bind other handle.ref

/-- How many references the caller owns under the name of an object that it
never lets go of: more than it can give away. -/
def pinnedShare : Nat := 0x10000000000

/-- Writes the count of an object, which the caller never lets go of from
then on. -/
def pin (name : String) (count : Int) : Inquiry Unit := do
  let (i, handle) ← find name
  host (modify (·.modify handle.ref fun object => { object with count }))
  modifyHandle i fun handle => { handle with owned := pinnedShare, pinned := true }

/-- The names of the other handles whose objects lay where the object of a
handle lies, if that is in a small block and may go. -/
def neighbours (s : Session) (handle : Handle) : Option (List String) := do
  let object ← s.world.object? handle.ref
  let home ← object.home
  match object.isImmortal, s.world.memory.process.kind home with
  | false, .pool _ =>
    some ((s.handles.toList.filter fun other =>
      other.name ≠ handle.name ∧ other.home = some home).map (·.name))
  | _, _ => none

/-! ### The end of an operation -/

/-- Starts a group of references that are released when the operation
ends. -/
def newGroup : Step Unit := modify fun s => { s with scope := [] :: s.scope }

/-- Adds a reference to the group that was started last. -/
def addToGroup (r : Ref) : Step Unit := modify fun s =>
  { s with scope := match s.scope with
      | group :: rest => (group ++ [r]) :: rest
      | [] => [[r]] }

/-- Leaves a reference to the end of the operation. -/
def leave (r : Ref) : Step Unit := do
  newGroup
  addToGroup r

/-- Ends an operation. -/
def endOperation : Step Unit := do
  let groups ← modifyGet fun s => (s.scope, { s with scope := [] })
  host (Host.releaseAll groups.flatten)

/-- Releases everything that the caller owns, the names in the order in
which they were given. -/
def close : Step Unit := do
  let handles ← modifyGet fun s => (s.handles, { s with handles := #[] })
  let owned := handles.toList.flatMap fun handle =>
    if handle.pinned then [] else List.replicate handle.owned handle.ref
  host (Host.releaseAll owned)

/-- Takes the events and the labels that were reported. -/
def takeNotices : Step (Array Event × Array Int) := fun s =>
  let w := s.world
  let s := { s with world := noWorld }
  let m := w.memory
  let p := m.process
  let notices := (p.events, w.reports)
  let w := { w with memory := default, reports := #[] }
  let m := { m with process := default }
  .ok notices
    { s with world := { w with memory := { m with process := { p with events := #[] } } } }

end Session

end ExtensionHost
