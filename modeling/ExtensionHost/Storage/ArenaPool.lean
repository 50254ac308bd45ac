import ExtensionHost.Storage.Process

/-!
# `ExtensionHost.Storage.ArenaPool`: arenas acquired as they are needed

A pool cuts from its newest arena and acquires another when that one is
full. The default size doubles with every arena up to a maximum, and a
request that is larger than the default gets an arena of its own size. A
limit counts the arenas together with the bytes that are reserved
elsewhere.
-/

set_option autoImplicit false

namespace ExtensionHost

/-- The arenas of one allocator, oldest first. -/
structure ArenaPool where
  arenas : Array Arena := #[]
  /-- The size of the next arena. -/
  currentSize : Nat
  maxSize : Nat
  limit : Option Nat
  /-- Bytes that count against the limit besides the arenas. -/
  reserved : Nat := 0
deriving Repr, Inhabited

namespace ArenaPool

/-- A pool without arenas. The size of arenas never shrinks, so a maximum
below the initial size is taken for the initial size. -/
def new (initial maxSize : Nat) (limit : Option Nat) : ArenaPool :=
  { currentSize := initial, maxSize := max maxSize initial, limit }

/-- The bytes of all arenas. -/
def total (pool : ArenaPool) : Nat := Arena.totalSize pool.arenas.toList

/-- Whether the limit allows another `size` bytes. -/
def admits (pool : ArenaPool) (size : Nat) : Bool :=
  match pool.limit with
  | none => true
  | some limit =>
    match (Size.add? pool.total pool.reserved).bind (Size.add? · size) with
    | none => false
    | some total => total ≤ limit

/-- Acquires an arena with room for `least` bytes. The answer says whether
there is a new arena. -/
def grow (pool : ArenaPool) (process : Process) (least : Nat) : Bool × ArenaPool × Process :=
  match Size.align? least with
  | none => (false, pool, process)
  | some least =>
    let size := max pool.currentSize least
    if pool.admits size then
      let timed (p : Process) : Process :=
        if p.timing then p.report (.timed "arena_acquire") else p
      match process.acquireArena size with
      | (none, process) => (false, pool, timed process)
      | (some arena, process) =>
        let arenas := pool.arenas.push arena
        (true,
          { pool with arenas, currentSize := min (pool.currentSize * 2) pool.maxSize },
          timed (process.report (.arenaAcquired size arenas.size)))
    else (false, pool, process)

/-- Cuts a piece from the newest arena: the region and the offset. -/
def carveNewest? (pool : ArenaPool) (size : Nat) : Option ((Nat × Nat) × ArenaPool) := do
  let arena ← pool.arenas.back?
  let (offset, cut) ← arena.carve? size
  some ((arena.region, offset), { pool with arenas := pool.arenas.set! (pool.arenas.size - 1) cut })

/-- Cuts a piece, from another arena if the newest has no room. -/
def carve (pool : ArenaPool) (process : Process) (size : Nat) :
    Option (Nat × Nat) × ArenaPool × Process :=
  match pool.carveNewest? size with
  | some (place, pool) => (some place, pool, process)
  | none =>
    match pool.grow process size with
    | (false, pool, process) => (none, pool, process)
    | (true, pool, process) =>
      match pool.carveNewest? size with
      | some (place, pool) => (some place, pool, process)
      | none => (none, pool, process)

/-- Whether an offset of a region lies in an arena of the pool. -/
def owns (pool : ArenaPool) (region : Nat) (offset : Int) : Bool :=
  pool.arenas.any fun arena => arena.region = region && arena.contains offset

end ArenaPool

/-- A pool at work on a process of its own. -/
structure PoolRun where
  pool : ArenaPool
  process : Process

namespace PoolRun

/-- A pool without arenas on a process without blocks. -/
def new (system : System) (initial maxSize : Nat) (limit : Option Nat) : PoolRun :=
  ⟨.new initial maxSize limit, { system }⟩

/-- Cuts a piece: the place of its arena among the arenas, and the
offset. -/
def carve (size : Nat) : StateM PoolRun (Option (Nat × Nat)) := fun run =>
  let (place, pool, process) := run.pool.carve run.process size
  let found := place.bind fun (region, start) =>
    (pool.arenas.findIdx? fun arena => arena.region = region).map fun i => (i, start)
  (found, ⟨pool, process⟩)

/-- Acquires an arena with room for `least` bytes. -/
def grow (least : Nat) : StateM PoolRun (Option Arena) := fun run =>
  let (grown, pool, process) := run.pool.grow run.process least
  (if grown then pool.arenas.back? else none, ⟨pool, process⟩)

/-- Sets the bytes that count against the limit besides the arenas. -/
def reserve (bytes : Nat) : StateM PoolRun Unit :=
  modify fun run => { run with pool := { run.pool with reserved := bytes } }

/-- Whether an offset from the start of one of the arenas lies in an arena
of the pool. -/
def owns (run : PoolRun) (i : Nat) (offset : Int) : Bool :=
  run.pool.arenas[i]?.any fun arena => run.pool.owns arena.region offset

end PoolRun

/-- An arena on a process of its own. -/
def Arena.acquire? (system : System) (size : Nat) : Option Arena :=
  (Process.acquireArena { system } size).1

end ExtensionHost
