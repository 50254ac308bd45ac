import ExtensionHost.Storage.ArenaPool

/-!
# `ExtensionHost.Storage.Allocator`: small blocks from arenas, large ones from the system

An allocator serves small requests from free lists, one for each size
class, and cuts a block from its arenas when the list is empty. The block
that was freed last is handed out first. Large requests get a region of
their own. What stands in front of a block tells the two apart, so a block
can be freed through an allocator that did not make it.

`Storage` is one allocator at work on the memory of the process; all
operations are functions on it.
-/

set_option autoImplicit false

namespace ExtensionHost

/-- An allocator. -/
structure Allocator where
  settings : AllocatorSettings
  arenas : ArenaPool
  /-- For each class the freed blocks, the last freed one first. -/
  freeLists : PerClass (List Address) := .replicate []
  /-- Small blocks in use. -/
  inUse : Nat := 0
  /-- Small blocks ever cut from an arena. -/
  carved : Nat := 0
  /-- Small requests that a free list served. -/
  hits : Nat := 0
  /-- The bytes of large blocks that count against the limit. -/
  heapLive : Nat := 0
deriving Repr, Inhabited

namespace Allocator

/-- An allocator that holds nothing yet. -/
def new (settings : AllocatorSettings) : Allocator :=
  { settings,
    arenas := .new settings.arenaSize settings.maxArenaSize settings.memoryLimit }

/-- How many freed blocks of a class wait to be used again. -/
def freeCount (allocator : Allocator) (cls : SizeClass) : Nat :=
  allocator.freeLists[cls].length

/-- Sets the bytes of large blocks, which the arenas take into account. -/
def setHeapLive (allocator : Allocator) (bytes : Nat) : Allocator :=
  { allocator with
    heapLive := bytes
    arenas := { allocator.arenas with reserved := bytes } }

/-- Whether the limit allows large blocks of another `extra` bytes. -/
def withinLimit (allocator : Allocator) (extra : Nat) : Bool :=
  match allocator.settings.memoryLimit with
  | none => true
  | some limit =>
    match (Size.add? allocator.arenas.total allocator.heapLive).bind (Size.add? · extra) with
    | none => false
    | some total => total ≤ limit

end Allocator

/-- An operation on `σ` that answers an `α` unless it stops the process. -/
abbrev Operation (σ α : Type) := EStateM Fault σ α

/-- One allocator at work on the memory of the process. -/
structure Storage where
  allocator : Allocator
  process : Process
deriving Inhabited

namespace Storage

/-- Takes the block of a class that was freed last, or cuts one. -/
def allocPooled (s : Storage) (cls : SizeClass) : Option Address × Storage :=
  let { allocator, process } := s
  match allocator.freeLists[cls] with
  | a :: rest =>
    (some a,
      { allocator := { allocator with
          freeLists := allocator.freeLists.set cls rest
          hits := allocator.hits + 1
          inUse := allocator.inUse + 1 }
        process := process.setKind a (.pool cls) })
  | [] =>
    match allocator.arenas.carve process (blockPrefixSize + cls.bytes) with
    | (none, arenas, process) => (none, { allocator := { allocator with arenas }, process })
    | (some (region, start), arenas, process) =>
      let offset := start + blockPrefixSize
      let (a, process) :=
        process.addBlock ⟨.carved region offset, .pool cls, process.system.fresh region offset⟩
      (some a,
        { allocator := { allocator with
            arenas
            carved := allocator.carved + 1
            inUse := allocator.inUse + 1 }
          process })

/-- Makes a large block if the limit allows it. -/
def allocHeap (s : Storage) (size : Nat) : Option Address × Storage :=
  let { allocator, process } := s
  if allocator.withinLimit size then
    match process.heapAlloc size with
    | (none, process) => (none, { allocator, process })
    | (some a, process) =>
      (some a,
        { allocator := allocator.setHeapLive (allocator.heapLive + max size 1), process })
  else (none, { allocator, process := process.report (.limitExceeded size) })

/-- Serves a request. -/
def alloc (s : Storage) (size : Nat) : Option Address × Storage :=
  match SizeClass.ofSize? size with
  | some cls => s.allocPooled cls
  | none => s.allocHeap size

/-- Serves a request with a block whose first `size` bytes are zero. -/
def allocZeroed (s : Storage) (size : Nat) : Option Address × Storage :=
  match s.alloc size with
  | (none, s) => (none, s)
  | (some a, s) => (some a, { s with process := s.process.modifyPayload a (·.zero size) })

/-- Frees a block. A small block goes to the front of this allocator's
list for its class, and a large one back to the system. -/
def free (a : Address) : Operation Storage Unit := fun s =>
  match s.process.kind a with
  | .pool cls =>
    let { allocator, process } := s
    .ok () {
      allocator := { allocator with
        freeLists := allocator.freeLists.set cls (a :: allocator.freeLists[cls])
        inUse := allocator.inUse - 1 }
      process := process.setKind a (.freed cls) }
  | .heap size =>
    let { allocator, process } := s
    .ok () {
      allocator := allocator.setHeapLive (allocator.heapLive - size)
      process := process.heapFree a size }
  | .freed _ => .error .freedBlock s
  | .foreign => .error .foreignBlock s

/-- Serves a request of `size` bytes with what the block at `a`, of `old`
usable bytes, holds, and frees that block. -/
def move (a : Address) (old size : Nat) : Operation Storage (Option Address) := fun s =>
  match s.alloc size with
  | (none, s) => .ok none s
  | (some b, s) =>
    let process := s.process.modifyPayload b (·.copyFrom (s.process.payload a) (min old size))
    match free a { s with process } with
    | .ok () s => .ok (some b) s
    | .error fault s => .error fault s

/-- Resizes a block. A small block stays where it is when its class serves
the new size too, and moves otherwise; a large one moves when the new size
is small and is resized by the system when it is not. -/
def realloc (a : Address) (size : Nat) : Operation Storage (Option Address) := fun s =>
  match s.process.kind a with
  | .pool cls =>
    if SizeClass.ofSize? size = some cls then .ok (some a) s
    else move a cls.bytes size s
  | .heap old =>
    match SizeClass.ofSize? size with
    | some _ => move a old size s
    | none =>
      if s.allocator.withinLimit (max size 1 - old) then
        let { allocator, process } := s
        match process.heapRealloc a old size with
        | (none, process) => .ok none { allocator, process }
        | (some b, process) =>
          .ok (some b) {
            allocator := allocator.setHeapLive (allocator.heapLive - old + max size 1)
            process }
      else .ok none s
  | .freed _ => .error .freedBlock s
  | .foreign => .error .foreignBlock s

end Storage

end ExtensionHost
