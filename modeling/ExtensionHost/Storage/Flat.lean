import ExtensionHost.Storage.Allocator

/-!
# `ExtensionHost.Storage.Flat`: storage as it lies in memory

`Storage` keeps a table of blocks and lists of freed ones. In memory there is
neither. There are bytes, in regions that the system gave, and what an allocator
knows of a block is what stands in the sixteen bytes in front of it: its class or
its size, and, once it is freed, where the prefix of the block is that was freed
before it. Of each list an allocator has the head alone and finds the rest by
these links.

Nothing keeps a write inside a block here. A write goes to as many bytes as it
says, wherever they lie, so one that is too long runs into the next prefix. That
none is, and that the links are those lists, is proved in
`ExtensionHost.Proofs.Storage.Image`.
-/

set_option autoImplicit false

namespace ExtensionHost

/-- A byte of memory: the request that its region was given for, and how far it is
from the start of that region. -/
structure Place where
  region : Nat
  offset : Nat
deriving DecidableEq, Repr

namespace Place

/-- The place so many bytes on. -/
def shift (q : Place) (count : Nat) : Place := ⟨q.region, q.offset + count⟩

/-- Where a block starts that has its prefix at a place. -/
def payload (front : Place) : Place := front.shift blockPrefixSize

/-- Where the prefix of a block is that starts at a place. -/
def front (payload : Place) : Place := ⟨payload.region, payload.offset - blockPrefixSize⟩

/-- A place is itself when it is moved on by nothing. -/
@[simp] theorem shift_zero (q : Place) : q.shift 0 = q := rfl

/-- The prefix of the bytes behind a prefix is that prefix. -/
@[simp] theorem front_payload (front : Place) : front.payload.front = front := by
  simp [payload, Place.front, shift]

/-- A place is one of the `count` bytes from `q` on. -/
def Within (x q : Place) (count : Nat) : Prop :=
  x.region = q.region ∧ q.offset ≤ x.offset ∧ x.offset < q.offset + count

instance (x q : Place) (count : Nat) : Decidable (x.Within q count) :=
  inferInstanceAs (Decidable (_ ∧ _ ∧ _))

end Place

/-- What is written in front of a block. -/
inductive BlockPrefix
  | pool (cls : SizeClass)
  | heap (size : Nat)
  /-- A small block that was freed, and the prefix of the next one in its list. -/
  | freed (cls : SizeClass) (next : Option Place)
  /-- A large block that goes back to the system. -/
  | poisoned
deriving DecidableEq, Repr

namespace BlockPrefix

/-- What a prefix says about its block. -/
def kind : BlockPrefix → BlockKind
  | pool cls => .pool cls
  | heap size => .heap size
  | freed cls _ => .freed cls
  | poisoned => .foreign

/-- The link in a prefix. -/
def next : BlockPrefix → Option Place
  | freed _ next => next
  | pool _ | heap _ | poisoned => none

end BlockPrefix

/-- What stands at a place: what the user of a block has there, or the first byte of
a prefix, or one of its other bytes. -/
inductive Spot
  | cell (cell : Cell)
  | start (front : BlockPrefix)
  | inside
deriving DecidableEq, Repr

/-- What stands at each place. -/
abbrev FlatMemory := Place → Spot

namespace FlatMemory

/-- Memory as the system gives it, whenever it gives it. -/
def given (system : System) : FlatMemory := fun q =>
  .cell (.byte (system.content q.region q.offset))

/-- Writes to `count` bytes from `q` on. -/
def overwrite (m : FlatMemory) (q : Place) (count : Nat) (spot : Nat → Spot) :
    FlatMemory := fun x =>
  if x.Within q count then spot (x.offset - q.offset) else m x

/-- Writes a prefix. -/
def writePrefix (m : FlatMemory) (front : Place) (block : BlockPrefix) : FlatMemory :=
  m.overwrite front blockPrefixSize fun i => if i = 0 then .start block else .inside

/-- Writes zero into `count` bytes. -/
def zero (m : FlatMemory) (q : Place) (count : Nat) : FlatMemory :=
  m.overwrite q count fun _ => .cell (.byte 0)

/-- Copies `count` bytes, whatever they are. -/
def copy (m : FlatMemory) (source target : Place) (count : Nat) : FlatMemory :=
  m.overwrite target count fun i => m (source.shift i)

/-- Writes what the user of a block has at a place. -/
def put (m : FlatMemory) (q : Place) (cell : Cell) : FlatMemory :=
  m.overwrite q 1 fun _ => .cell cell

/-- Bytes that are not written to stay as they are. -/
theorem overwrite_of_not {m : FlatMemory} {x q : Place} {count : Nat} (h : ¬ x.Within q count)
    (spot : Nat → Spot) : m.overwrite q count spot x = m x := if_neg h

/-- Only bytes that are written to change. -/
theorem within_of_overwrite {m : FlatMemory} {x q : Place} {count : Nat} {spot : Nat → Spot}
    (h : m.overwrite q count spot x ≠ m x) : x.Within q count :=
  Decidable.byContradiction fun hout => h (overwrite_of_not hout spot)

/-- The bytes that were written are there. -/
theorem overwrite_shift {q : Place} {count i : Nat} (h : i < count) (m : FlatMemory)
    (spot : Nat → Spot) : m.overwrite q count spot (q.shift i) = spot i := by
  have hwithin : (q.shift i).Within q count :=
    ⟨rfl, Nat.le_add_right _ _, Nat.add_lt_add_left h _⟩
  rw [overwrite, if_pos hwithin, Place.shift, Nat.add_sub_cancel_left]

/-- A prefix that was written is at its front. -/
@[simp] theorem writePrefix_self (m : FlatMemory) (front : Place) (block : BlockPrefix) :
    m.writePrefix front block front = .start block :=
  overwrite_shift (q := front) (i := 0) (by decide) m _

/-- The prefix that starts at a place. Other bytes are none that an allocator
wrote. -/
def prefixAt (m : FlatMemory) (front : Place) : BlockPrefix :=
  match m front with
  | .start block => block
  | .cell _ | .inside => .poisoned

end FlatMemory

/-- The memory that all allocators share. -/
structure FlatProcess where
  system : System
  memory : FlatMemory
  requests : Nat := 0
  heapBlocks : Int := 0
  heapBytes : Int := 0
  orphans : List Arena := []
  timing : Bool := false
  events : Array Event := #[]

/-- The memory of a process that has a table of blocks. -/
def Process.flat (p : Process) (memory : FlatMemory) : FlatProcess :=
  { system := p.system, memory, requests := p.requests, heapBlocks := p.heapBlocks,
    heapBytes := p.heapBytes, orphans := p.orphans, timing := p.timing, events := p.events }

namespace FlatProcess

/-- What is asked for arenas: the process without its memory. -/
def books (p : FlatProcess) : Process :=
  { system := p.system, requests := p.requests, heapBlocks := p.heapBlocks,
    heapBytes := p.heapBytes, orphans := p.orphans, timing := p.timing, events := p.events }

/-- Writes to the memory. -/
def write (p : FlatProcess) (f : FlatMemory → FlatMemory) : FlatProcess :=
  { p with memory := f p.memory }

/-- What is written in front of a block that starts at a place. -/
def prefixOf (p : FlatProcess) (q : Place) : BlockPrefix := p.memory.prefixAt q.front

/-- Asks the system for a region. -/
def request (p : FlatProcess) (bytes : Nat) : Option Nat × FlatProcess :=
  (if p.system.serves p.requests bytes then some p.requests else none,
    { p with requests := p.requests + 1 })

/-- Makes a large block. -/
def heapAlloc (p : FlatProcess) (size : Nat) : Option Place × FlatProcess :=
  let size := max size 1
  match Process.regionSize? size with
  | none => (none, p)
  | some total =>
    match p.request total with
    | (none, p) => (none, p)
    | (some region, p) =>
      let front : Place := ⟨region, 0⟩
      let p := { p with heapBlocks := p.heapBlocks + 1, heapBytes := p.heapBytes + size }
      (some front.payload, p.write (·.writePrefix front (.heap size)))

/-- The system resizes the region that starts at `front` from `old` to `total` bytes.
If it stays where it is, its new bytes are what the system gave for this request; if
not, what both sizes reach is copied to the region of the request. -/
def resizeRegion (p : FlatProcess) (front : Place) (old total region : Nat) (stays : Bool) :
    Place × FlatProcess :=
  if stays then
    (front, p.write fun memory => memory.overwrite (front.shift (min old total)) (total - old)
      fun i => FlatMemory.given p.system ⟨region, min old total + i⟩)
  else
    (⟨region, 0⟩, p.write fun memory => memory.copy front ⟨region, 0⟩ (min old total))

/-- Resizes a large block that starts at `q` and has `old` usable bytes. -/
def heapRealloc (p : FlatProcess) (q : Place) (old size : Nat) : Option Place × FlatProcess :=
  let size := max size 1
  match Process.regionSize? size with
  | none => (none, p)
  | some total =>
    let stays := p.system.keepsPlace p.requests
    match p.request total with
    | (none, p) => (none, p)
    | (some region, p) =>
      let p := { p with heapBytes := p.heapBytes + size - old }
      let (front, p) := p.resizeRegion q.front (old + blockPrefixSize) total region stays
      (some front.payload, p.write (·.writePrefix front (.heap size)))

/-- Gives a large block of `size` usable bytes back to the system. -/
def heapFree (p : FlatProcess) (q : Place) (size : Nat) : FlatProcess :=
  let p := p.write (·.writePrefix q.front .poisoned)
  { p with heapBlocks := p.heapBlocks - 1, heapBytes := p.heapBytes - size }

end FlatProcess

/-- An allocator, as it lies in memory. -/
structure FlatAllocator where
  settings : AllocatorSettings
  arenas : ArenaPool
  /-- For each class the prefix of the block that was freed last. -/
  heads : PerClass (Option Place) := .replicate none
  inUse : Nat := 0
  carved : Nat := 0
  hits : Nat := 0
  heapLive : Nat := 0

/-- An allocator that has lists, given where the prefixes of blocks are. -/
def Allocator.flat (allocator : Allocator) (front : Address → Place) : FlatAllocator where
  settings := allocator.settings
  arenas := allocator.arenas
  heads := allocator.freeLists.map (·.head?.map front)
  inUse := allocator.inUse
  carved := allocator.carved
  hits := allocator.hits
  heapLive := allocator.heapLive

namespace FlatAllocator

/-- An allocator that holds nothing yet. -/
def new (settings : AllocatorSettings) : FlatAllocator :=
  { settings,
    arenas := .new settings.arenaSize settings.maxArenaSize settings.memoryLimit }

/-- What is compared with the limit: the allocator without its lists. -/
def books (allocator : FlatAllocator) : Allocator :=
  { settings := allocator.settings, arenas := allocator.arenas, inUse := allocator.inUse,
    carved := allocator.carved, hits := allocator.hits, heapLive := allocator.heapLive }

/-- Sets the bytes of large blocks, which the arenas take into account. -/
def setHeapLive (allocator : FlatAllocator) (bytes : Nat) : FlatAllocator :=
  { allocator with
    heapLive := bytes
    arenas := { allocator.arenas with reserved := bytes } }

end FlatAllocator

/-- One allocator at work on memory. -/
structure FlatStorage where
  allocator : FlatAllocator
  process : FlatProcess

namespace FlatStorage

/-- Takes the block at the head of the list of a class, whose link becomes the head,
or cuts one. -/
def allocPooled (s : FlatStorage) (cls : SizeClass) : Option Place × FlatStorage :=
  let { allocator, process } := s
  match allocator.heads[cls] with
  | some front =>
    (some front.payload,
      { allocator := { allocator with
          heads := allocator.heads.set cls (process.memory.prefixAt front).next
          hits := allocator.hits + 1
          inUse := allocator.inUse + 1 }
        process := process.write (·.writePrefix front (.pool cls)) })
  | none =>
    match allocator.arenas.carve process.books (blockPrefixSize + cls.bytes) with
    | (none, arenas, books) =>
      (none, { allocator := { allocator with arenas }, process := books.flat process.memory })
    | (some (region, start), arenas, books) =>
      let front : Place := ⟨region, start⟩
      (some front.payload,
        { allocator := { allocator with
            arenas
            carved := allocator.carved + 1
            inUse := allocator.inUse + 1 }
          process := (books.flat process.memory).write (·.writePrefix front (.pool cls)) })

/-- Makes a large block if the limit allows it. -/
def allocHeap (s : FlatStorage) (size : Nat) : Option Place × FlatStorage :=
  let { allocator, process } := s
  if allocator.books.withinLimit size then
    match process.heapAlloc size with
    | (none, process) => (none, { allocator, process })
    | (some q, process) =>
      (some q, { allocator := allocator.setHeapLive (allocator.heapLive + max size 1), process })
  else
    (none, { allocator, process := { process with
      events := process.events.push (.limitExceeded size) } })

/-- Serves a request. -/
def alloc (s : FlatStorage) (size : Nat) : Option Place × FlatStorage :=
  match SizeClass.ofSize? size with
  | some cls => s.allocPooled cls
  | none => s.allocHeap size

/-- Serves a request with a block whose first `size` bytes are zero. -/
def allocZeroed (s : FlatStorage) (size : Nat) : Option Place × FlatStorage :=
  match s.alloc size with
  | (none, s) => (none, s)
  | (some q, s) => (some q, { s with process := s.process.write (·.zero q size) })

/-- Frees a block. A small block becomes the head of the list of its class, with a
link to what was the head. -/
def free (q : Place) : Operation FlatStorage Unit := fun s =>
  match s.process.prefixOf q with
  | .pool cls =>
    let { allocator, process } := s
    .ok () {
      allocator := { allocator with
        heads := allocator.heads.set cls (some q.front)
        inUse := allocator.inUse - 1 }
      process := process.write (·.writePrefix q.front (.freed cls allocator.heads[cls])) }
  | .heap size =>
    let { allocator, process } := s
    .ok () {
      allocator := allocator.setHeapLive (allocator.heapLive - size)
      process := process.heapFree q size }
  | .freed _ _ => .error .freedBlock s
  | .poisoned => .error .foreignBlock s

/-- Serves a request of `size` bytes with what the block at `q`, of `old` usable
bytes, holds, and frees that block. -/
def move (q : Place) (old size : Nat) : Operation FlatStorage (Option Place) := fun s =>
  match s.alloc size with
  | (none, s) => .ok none s
  | (some target, s) =>
    match free q { s with process := s.process.write (·.copy q target (min old size)) } with
    | .ok () s => .ok (some target) s
    | .error fault s => .error fault s

/-- Resizes a block. -/
def realloc (q : Place) (size : Nat) : Operation FlatStorage (Option Place) := fun s =>
  match s.process.prefixOf q with
  | .pool cls =>
    if SizeClass.ofSize? size = some cls then .ok (some q) s
    else move q cls.bytes size s
  | .heap old =>
    match SizeClass.ofSize? size with
    | some _ => move q old size s
    | none =>
      if s.allocator.books.withinLimit (max size 1 - old) then
        let { allocator, process } := s
        match process.heapRealloc q old size with
        | (none, process) => .ok none { allocator, process }
        | (some moved, process) =>
          .ok (some moved) {
            allocator := allocator.setHeapLive (allocator.heapLive - old + max size 1)
            process }
      else .ok none s
  | .freed _ _ => .error .freedBlock s
  | .poisoned => .error .foreignBlock s

end FlatStorage

end ExtensionHost
