import ExtensionHost.Storage.Memory

/-!
# `ExtensionHost.Storage.Machine`: requests for storage by several threads

A machine runs one thread at a time. A thread that starts another one waits
until that one has ended. Besides the allocators of the threads there is
one that belongs to no thread, and any block may be handed to any of them.
Events belong to the thread that reports them, and only those of the first
thread are recorded.
-/

set_option autoImplicit false

namespace ExtensionHost

/-- Whom a request is made to. -/
inductive Server
  /-- The allocator that belongs to no thread. -/
  | own
  /-- The entry points that go through the allocator of the thread. -/
  | thread
  /-- The entry points for regions of their own. -/
  | raw
deriving DecidableEq, Repr

/-- A request. -/
inductive Request
  | malloc (size : Nat)
  /-- The allocator that belongs to no thread takes the size alone. -/
  | calloc (count size : Nat)
  | realloc (block : Option Address) (size : Nat)
  | free (block : Address)
deriving DecidableEq, Repr

/-- Whose arenas a block lies in. Threads are numbered in the order in
which they start, the first one being zero. -/
inductive Owner
  | own
  | thread (number : Nat)
deriving DecidableEq, Repr

/-- A thread that waits for another one. -/
structure WaitingThread where
  number : Nat
  allocator : Option Allocator
  lent : Bool
  events : Array Event

/-- Several threads and the memory they share. -/
structure Machine where
  /-- The storage that the running thread sees. -/
  memory : Memory
  /-- The allocator that belongs to no thread. -/
  own : Allocator
  /-- The number of the running thread. -/
  running : Nat := 0
  /-- The greatest number of a thread. -/
  started : Nat := 0
  /-- The threads that wait, the one that goes on next first. -/
  waiting : List WaitingThread := []
  /-- The arenas of the threads that have ended. -/
  ended : List (Nat × Array Arena) := []

namespace Machine

/-- A machine whose first thread has not done anything. -/
def new (system : System) (settings : AllocatorSettings) : Machine :=
  { memory := .new system settings, own := .new settings }

/-! ### Requests -/

/-- Runs a function on the storage of the running thread. -/
def onMemory {α : Type} (f : Memory → α × Memory) (m : Machine) : α × Machine :=
  let memory := m.memory
  let m := { m with memory := default }
  let (a, memory) := f memory
  (a, { m with memory })

/-- Runs an operation on the storage of the running thread. -/
def runMemory {α : Type} (operation : Operation Memory α) : Operation Machine α := fun m =>
  let memory := m.memory
  let m := { m with memory := default }
  match operation memory with
  | .ok a memory => .ok a { m with memory }
  | .error fault memory => .error fault { m with memory }

/-- Runs an operation of the allocator that belongs to no thread. -/
def runOwn {α : Type} (operation : Operation Storage α) : Operation Machine α := fun m =>
  let { own, memory, .. } := m
  let m := { m with own := default, memory := default }
  let process := memory.process
  let memory := { memory with process := default }
  match operation ⟨own, process⟩ with
  | .ok a s => .ok a { m with own := s.allocator, memory := { memory with process := s.process } }
  | .error fault s =>
    .error fault { m with own := s.allocator, memory := { memory with process := s.process } }

/-- Makes a request. -/
def request (server : Server) (request : Request) : Operation Machine (Option Address) :=
  match server, request with
  | .own, .malloc size => runOwn fun s => let (a, s) := s.alloc size; .ok a s
  | .own, .calloc _ size => runOwn fun s => let (a, s) := s.allocZeroed size; .ok a s
  | .own, .realloc none size => runOwn fun s => let (a, s) := s.alloc size; .ok a s
  | .own, .realloc (some block) size => runOwn (Storage.realloc block size)
  | .own, .free block => do runOwn (Storage.free block); return none
  | .thread, .malloc size => modifyGet (onMemory (·.malloc size))
  | .thread, .calloc count size => modifyGet (onMemory (·.calloc count size))
  | .thread, .realloc block size => runMemory (Memory.realloc block size)
  | .thread, .free block => do runMemory (Memory.free block); return none
  | .raw, .malloc size => modifyGet (onMemory (·.rawMalloc size))
  | .raw, .calloc count size => modifyGet (onMemory (·.rawCalloc count size))
  | .raw, .realloc block size => runMemory (Memory.rawRealloc block size)
  | .raw, .free block => do runMemory (Memory.rawFree block); return none

/-! ### Threads -/

/-- Lends the allocator of the running thread out, which cannot be done a
second time. -/
def lend? (m : Machine) : Option Machine :=
  if m.memory.lent then none
  else some { m with memory := { m.memory.touch with lent := true } }

/-- Gives the allocator of the running thread back. -/
def giveBack (m : Machine) : Machine := { m with memory := { m.memory with lent := false } }

/-- Starts a thread. -/
def startThread (m : Machine) : Machine :=
  { m with
    running := m.started + 1
    started := m.started + 1
    waiting :=
      ⟨m.running, m.memory.allocator, m.memory.lent, m.memory.process.events⟩ :: m.waiting
    memory :=
      { process := { m.memory.process with events := #[] }, installed := m.memory.installed } }

/-- The arenas of an allocator, which has none when it has not been used. -/
def arenasOf (allocator : Option Allocator) : Array Arena :=
  (allocator.map (·.arenas.arenas)).getD #[]

/-- Ends the running thread, and lets the one that waits for it go on. -/
def endThread (m : Machine) : Machine :=
  match m.waiting with
  | [] => m
  | next :: waiting =>
    let memory := m.memory.endThread
    { m with
      running := next.number
      waiting
      ended := (m.running, arenasOf m.memory.allocator) :: m.ended
      memory :=
        { memory with
          allocator := next.allocator
          lent := next.lent
          process := { memory.process with events := next.events } } }

/-- Takes the events that the running thread has reported, which are none
unless it is the first. -/
def takeEvents (m : Machine) : Array Event × Machine :=
  let (events, m) := m.onMemory fun memory => memory.onProcess fun p =>
    (p.events, { p with events := #[] })
  (if m.running = 0 then events else #[], m)

/-! ### Places -/

/-- All arenas, by owner. -/
def owners (m : Machine) : List (Owner × Array Arena) :=
  (.own, m.own.arenas.arenas)
    :: (.thread m.running, arenasOf m.memory.allocator)
    :: m.waiting.map (fun waiting => (.thread waiting.number, arenasOf waiting.allocator))
    ++ m.ended.map fun (number, arenas) => (.thread number, arenas)

/-- Where a block lies that was cut from an arena: the owner of the arena,
its place among the arenas of that owner, and the offset in it. -/
def place? (m : Machine) (a : Address) : Option (Owner × Nat × Nat) :=
  match m.memory.process.site a with
  | .carved region offset =>
    m.owners.findSome? fun (owner, arenas) =>
      (arenas.findIdx? fun arena => arena.region = region).map fun i => (owner, i, offset)
  | _ => none

end Machine

end ExtensionHost
