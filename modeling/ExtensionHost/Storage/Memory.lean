import ExtensionHost.Storage.Allocator

/-!
# `ExtensionHost.Storage.Memory`: the entry points for storage

Each thread has one allocator. It comes into being when it is first used,
with the settings installed at that moment. While it is lent out, a
request that needs it again must do without: such requests are served by
regions of their own, and small blocks that are released meanwhile are
marked freed and retired, since no list may be touched.

There are two families of entry points. The first goes through the
thread's allocator; the raw family makes large blocks only and never
counts them against the allocator's limit. Either may free and resize
blocks of the other.
-/

set_option autoImplicit false

namespace ExtensionHost

/-- The storage that one thread sees. -/
structure Memory where
  process : Process
  /-- What an allocator made from now on is set up with. -/
  installed : AllocatorSettings := {}
  /-- The thread's allocator, if it has been used. -/
  allocator : Option Allocator := none
  /-- Whether the allocator is lent out. -/
  lent : Bool := false
deriving Inhabited

/-- What an allocator holds, and the large blocks of the process. -/
structure StorageStats where
  arenaBytes : Nat := 0
  arenaCount : Nat := 0
  inUse : Nat := 0
  carved : Nat := 0
  hits : Nat := 0
  heapBlocks : Int
  heapBytes : Int
deriving DecidableEq, Repr

namespace Storage

/-- What an allocator holds. -/
def stats (allocator : Allocator) (process : Process) : StorageStats where
  arenaBytes := allocator.arenas.total
  arenaCount := allocator.arenas.arenas.size
  inUse := allocator.inUse
  carved := allocator.carved
  hits := allocator.hits
  heapBlocks := process.heapBlocks
  heapBytes := process.heapBytes

end Storage

namespace Memory

/-- The memory of a thread that has not used its allocator. -/
def new (system : System) (installed : AllocatorSettings) : Memory :=
  { process := { system }, installed }

/-- The thread's allocator, made now if it has not been used. -/
def theAllocator (m : Memory) : Allocator :=
  m.allocator.getD (.new m.installed)

/-- Makes the thread's allocator if it has not been used. -/
def touch (m : Memory) : Memory :=
  { m with allocator := some m.theAllocator }

/-- The thread's allocator at work. -/
def storage (m : Memory) : Storage := ⟨m.theAllocator, m.process⟩

/-- The memory after the thread's allocator has worked. -/
def withStorage (m : Memory) (s : Storage) : Memory :=
  { m with allocator := some s.allocator, process := s.process }

/-- Runs an operation of the thread's allocator. -/
def onStorage {α : Type} (operation : Operation Storage α) : Operation Memory α := fun m =>
  let s := m.storage
  -- The memory lets go of what the operation works on, so that the tables
  -- have one owner and are changed in place.
  let m := { m with allocator := none, process := default }
  match operation s with
  | .ok a s => .ok a (m.withStorage s)
  | .error fault s => .error fault (m.withStorage s)

/-- Adds an event. -/
def report (m : Memory) (event : Event) : Memory :=
  { m with process := m.process.report event }

/-- Runs a function on the memory of the process. -/
def onProcess {α : Type} (m : Memory) (f : Process → α × Process) : α × Memory :=
  let p := m.process
  let m := { m with process := default }
  let (a, p) := f p
  (a, { m with process := p })

/-- Serves a request, without reporting it. -/
def serve (m : Memory) (size : Nat) : Option Address × Memory :=
  if m.lent then m.onProcess (·.heapAlloc size)
  else
    let s := m.storage
    let m := { m with allocator := none, process := default }
    let (a, s) := s.alloc size
    (a, m.withStorage s)

/-- Serves a request with a block whose first `size` bytes are zero,
without reporting it. -/
def serveZeroed (m : Memory) (size : Nat) : Option Address × Memory :=
  match m.serve size with
  | (none, m) => (none, m)
  | (some a, m) =>
    (some a, { m with process := m.process.modifyPayload a (·.zero size) })

/-- Asks for `size` bytes. -/
def malloc (m : Memory) (size : Nat) : Option Address × Memory :=
  match m.serve size with
  | (none, m) => (none, m)
  | (some a, m) => (some a, m.report (.blockAllocated size))

/-- Asks for `count` times `size` bytes, all zero. -/
def calloc (m : Memory) (count size : Nat) : Option Address × Memory :=
  match Size.mul? count size with
  | none => (none, m)
  | some size =>
    match m.serveZeroed size with
    | (none, m) => (none, m)
    | (some a, m) => (some a, m.report (.blockAllocated size))

/-- Resizes a block without the thread's allocator. A small block moves to
a region of its own, and its old place is retired. -/
def reallocUnpooled (a : Address) (size : Nat) : Operation Memory (Option Address) := fun m =>
  match m.process.kind a with
  | .heap old =>
    let (b, m) := m.onProcess (·.heapRealloc a old size)
    .ok b m
  | .pool cls =>
    match m.onProcess (·.heapAlloc size) with
    | (none, m) => .ok none m
    | (some b, m) =>
      let payload := m.process.payload a
      let process := m.process.modifyPayload b (·.copyFrom payload (min cls.bytes size))
      .ok (some b) { m with process := process.setKind a (.freed cls) }
  | .freed _ => .error .freedBlock m
  | .foreign => .error .foreignBlock m

/-- Resizes a block; without one, asks for a new block. -/
def realloc (a : Option Address) (size : Nat) : Operation Memory (Option Address) := fun m =>
  match a with
  | none =>
    let (b, m) := m.malloc size
    .ok b m
  | some a =>
    if m.lent then reallocUnpooled a size m
    else onStorage (Storage.realloc a size) m

/-- Frees a block without the thread's allocator. A small block is
retired: it is never handed out again. -/
def freeUnpooled (a : Address) : Operation Memory Unit := fun m =>
  match m.process.kind a with
  | .heap size => .ok () { m with process := m.process.heapFree a size }
  | .pool cls => .ok () { m with process := m.process.setKind a (.freed cls) }
  | .freed _ => .error .freedBlock m
  | .foreign => .error .foreignBlock m

/-- Frees a block. -/
def free (a : Address) : Operation Memory Unit := fun m =>
  let m := m.report .blockFreed
  if m.lent then freeUnpooled a m else onStorage (Storage.free a) m

/-- Asks for `size` bytes in a region of their own. -/
def rawMalloc (m : Memory) (size : Nat) : Option Address × Memory :=
  m.onProcess (·.heapAlloc size)

/-- Asks for `count` times `size` bytes in a region of their own, all
zero. -/
def rawCalloc (m : Memory) (count size : Nat) : Option Address × Memory :=
  match Size.mul? count size with
  | none => (none, m)
  | some size =>
    match m.onProcess (·.heapAlloc size) with
    | (none, m) => (none, m)
    | (some a, m) =>
      (some a, { m with process := m.process.modifyPayload a (·.zero size) })

/-- Resizes a block, by the system if it is a large one. -/
def rawRealloc (a : Option Address) (size : Nat) : Operation Memory (Option Address) := fun m =>
  match a with
  | none =>
    let (b, m) := m.rawMalloc size
    .ok b m
  | some a =>
    match m.process.kind a with
    | .heap old =>
      let (b, m) := m.onProcess (·.heapRealloc a old size)
      .ok b m
    | _ => realloc (some a) size m

/-- Frees a block, by the system if it is a large one. -/
def rawFree (a : Address) : Operation Memory Unit := fun m =>
  match m.process.kind a with
  | .heap size => .ok () { m with process := m.process.heapFree a size }
  | _ => free a m

/-- What the thread's allocator holds; nothing while it is lent out. -/
def stats (m : Memory) : StorageStats × Memory :=
  if m.lent then
    ({ heapBlocks := m.process.heapBlocks, heapBytes := m.process.heapBytes }, m)
  else (Storage.stats m.theAllocator m.process, m.touch)

/-- The settings of the thread's allocator, unless it is lent out. -/
def settings? (m : Memory) : Option AllocatorSettings × Memory :=
  if m.lent then (none, m) else (some m.theAllocator.settings, m.touch)

/-- The bytes that count against the limit of the thread's allocator,
unless it is lent out. -/
def heapLive? (m : Memory) : Option Nat × Memory :=
  if m.lent then (none, m) else (some m.theAllocator.heapLive, m.touch)

/-- Ends the thread: its allocator goes, and the arenas of the allocator
stay with the process. -/
def endThread (m : Memory) : Memory :=
  match m.allocator with
  | none => m
  | some allocator =>
    { m with
      allocator := none
      process := { m.process with
        orphans := m.process.orphans ++ allocator.arenas.arenas.toList } }

end Memory

end ExtensionHost
