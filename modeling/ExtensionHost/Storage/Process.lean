import ExtensionHost.Event
import ExtensionHost.Storage.Arena
import ExtensionHost.Storage.Payload
import ExtensionHost.Storage.SizeClass

/-!
# `ExtensionHost.Storage.Process`: the memory that all allocators share

A process has blocks. A block never leaves the table once it is in it: a
small block that is freed waits to be handed out again, and a large one
that went back to the system stays as a block nobody answers for. So the
place of a block in the table is its address, and it names the block for
the whole run.

The system behind the process is a parameter. It may refuse any request,
it decides whether a region that is resized stays where it is, and what a
new region holds is up to it.

The large blocks, one region each, are the same for all allocators and are
counted here.
-/

set_option autoImplicit false

namespace ExtensionHost

/-- What the system that memory comes from decides. Its requests are
numbered from zero. -/
structure System where
  /-- Whether request `n`, for `bytes` bytes, is served. -/
  serves : (n bytes : Nat) → Bool
  /-- Whether request `n`, to resize a region, leaves it where it is. -/
  keepsPlace : (n : Nat) → Bool
  /-- What stands at an offset of the region that request `n` gave. -/
  content : (n offset : Nat) → UInt8

namespace System

/-- A system that serves every request for fewer than `bytes` bytes. -/
def bounded (bytes : Nat) : System :=
  ⟨fun _ size => size < bytes, fun _ => false, fun _ _ => 0⟩

instance : Inhabited System := ⟨bounded 0⟩

/-- What the region of a request holds from `start` on when it is given. -/
def fresh (system : System) (region start : Nat) : Payload :=
  { base := fun i => .byte (system.content region (start + i)) }

end System

/-- A block's place in the table of blocks. -/
abbrev Address := Nat

/-- What is written in front of a block about it. -/
inductive BlockKind
  /-- A small block that is in use. -/
  | pool (cls : SizeClass)
  /-- A region of its own with `size` usable bytes. -/
  | heap (size : Nat)
  /-- A small block that was freed and is not yet in use again. -/
  | freed (cls : SizeClass)
  /-- Nothing that an allocator wrote: it did not make the block, or the
  block went back to the system. -/
  | foreign
deriving DecidableEq, Repr, Inhabited

namespace BlockKind

/-- Whether the block is in use. -/
def isLive : BlockKind → Bool
  | pool _ | heap _ => true
  | freed _ | foreign => false

/-- The bytes that the user of the block may use. -/
def usable : BlockKind → Nat
  | pool cls => cls.bytes
  | heap size => size
  | freed _ | foreign => 0

end BlockKind

/-- Where a block lies. -/
inductive Site
  /-- The payload starts at `offset` in the arena of region `region`. -/
  | carved (region offset : Nat)
  /-- The block fills the region of request `region`. -/
  | region (region : Nat)
  /-- Memory that the runtime did not get from the system. -/
  | outside
deriving DecidableEq, Repr, Inhabited

/-- A block: where it lies, what is written in front of it, and what it
holds. -/
structure Block where
  site : Site
  kind : BlockKind
  payload : Payload
deriving Inhabited

/-- The bytes written in front of every block. -/
def blockPrefixSize : Nat := 16

/-- The memory that all allocators share, with the events reported so
far. -/
structure Process where
  system : System
  /-- How many requests the system has had. -/
  requests : Nat := 0
  blocks : Array Block := #[]
  /-- How many large blocks are in use. -/
  heapBlocks : Int := 0
  /-- The usable bytes of the large blocks in use. -/
  heapBytes : Int := 0
  /-- Arenas whose allocator is gone. Their blocks may still be in use. -/
  orphans : List Arena := []
  /-- Whether acquiring an arena is timed. -/
  timing : Bool := false
  events : Array Event := #[]
deriving Inhabited

namespace Process

/-- Adds an event. -/
def report (p : Process) (event : Event) : Process :=
  { p with events := p.events.push event }

/-- What is written in front of the block at an address. -/
def kind (p : Process) (a : Address) : BlockKind :=
  match p.blocks[a]? with
  | some block => block.kind
  | none => .foreign

/-- What the block at an address holds. -/
def payload (p : Process) (a : Address) : Payload :=
  match p.blocks[a]? with
  | some block => block.payload
  | none => .blank

/-- Where the block at an address lies. -/
def site (p : Process) (a : Address) : Site :=
  match p.blocks[a]? with
  | some block => block.site
  | none => .outside

/-- The bytes of the arenas whose allocator is gone. -/
def orphanedBytes (p : Process) : Nat := Arena.totalSize p.orphans

/-- Adds a block, whose address is the number of blocks before it. -/
def addBlock (p : Process) (block : Block) : Address × Process :=
  (p.blocks.size, { p with blocks := p.blocks.push block })

/-- Changes what stands in front of a block. -/
def setKind (p : Process) (a : Address) (kind : BlockKind) : Process :=
  { p with blocks := p.blocks.modify a fun block => { block with kind } }

/-- Changes what a block holds. -/
def modifyPayload (p : Process) (a : Address) (f : Payload → Payload) : Process :=
  { p with blocks := p.blocks.modify a fun block => { block with payload := f block.payload } }

/-- Asks the system for a region; the answer is the number of the request
if it is served. -/
def request (p : Process) (bytes : Nat) : Option Nat × Process :=
  (if p.system.serves p.requests bytes then some p.requests else none,
    { p with requests := p.requests + 1 })

/-- Asks the system for an arena. One of no bytes, or of more than a
region can have when its end is rounded up, is not asked for. -/
def acquireArena (p : Process) (size : Nat) : Option Arena × Process :=
  if size = 0 ∨ Size.addressable - (Size.alignment - 1) < size then (none, p)
  else
    match p.request size with
    | (none, p) => (none, p)
    | (some region, p) => (some { region, size }, p)

/-- The bytes of a region for a large block of `size` usable bytes, if a
region can have so many. -/
def regionSize? (size : Nat) : Option Nat :=
  match Size.add? size blockPrefixSize with
  | none => none
  | some total => if Size.addressable < total then none else some total

/-- Makes a large block. It has at least one usable byte. -/
def heapAlloc (p : Process) (size : Nat) : Option Address × Process :=
  let size := max size 1
  match regionSize? size with
  | none => (none, p)
  | some total =>
    match p.request total with
    | (none, p) => (none, p)
    | (some region, p) =>
      let payload := p.system.fresh region blockPrefixSize
      let p := { p with heapBlocks := p.heapBlocks + 1, heapBytes := p.heapBytes + size }
      let (a, p) := p.addBlock ⟨.region region, .heap size, payload⟩
      (some a, p)

/-- Resizes a large block that has `old` usable bytes. What the old and
the new size have in common is kept; a block that moves leaves nothing
behind at its old address. On failure nothing changes. -/
def heapRealloc (p : Process) (a : Address) (old size : Nat) : Option Address × Process :=
  let size := max size 1
  match regionSize? size with
  | none => (none, p)
  | some total =>
    let stays := p.system.keepsPlace p.requests
    match p.request total with
    | (none, p) => (none, p)
    | (some region, p) =>
      let payload := (p.system.fresh region blockPrefixSize).copyFrom (p.payload a) (min old size)
      let p := { p with heapBytes := p.heapBytes + size - old }
      if stays then
        (some a, (p.setKind a (.heap size)).modifyPayload a fun _ => payload)
      else
        let (b, p) := (p.setKind a .foreign).addBlock ⟨.region region, .heap size, payload⟩
        (some b, p)

/-- Gives a large block of `size` usable bytes back to the system. -/
def heapFree (p : Process) (a : Address) (size : Nat) : Process :=
  let p := p.setKind a .foreign
  { p with heapBlocks := p.heapBlocks - 1, heapBytes := p.heapBytes - size }

/-- Adds a zeroed block that no allocator made. -/
def addForeign (p : Process) : Address × Process :=
  p.addBlock ⟨.outside, .foreign, .blank⟩

end Process

end ExtensionHost
