import ExtensionHost.Size

/-!
# `ExtensionHost.Storage.Arena`: a region that blocks are cut from

An arena is one region of memory with a cursor. Cutting moves the cursor
forward by a multiple of sixteen bytes and never back, so no two pieces
overlap and every piece starts at a multiple of sixteen.
-/

set_option autoImplicit false

namespace ExtensionHost

/-- A region of `size` bytes, the first `used` of which are cut. -/
structure Arena where
  /-- The number of the request by which the system gave the region. -/
  region : Nat
  size : Nat
  used : Nat := 0
deriving DecidableEq, Repr, Inhabited

namespace Arena

/-- Cuts a piece: its offset in the region, and the arena afterwards. -/
def carve? (arena : Arena) (size : Nat) : Option (Nat × Arena) := do
  let size ← Size.align? size
  let stop ← Size.add? arena.used size
  if arena.size < stop then none
  else some (arena.used, { arena with used := stop })

/-- The bytes that are not cut. -/
def remaining (arena : Arena) : Nat := arena.size - arena.used

/-- Whether an offset from the start lies inside. -/
def contains (arena : Arena) (offset : Int) : Bool :=
  0 ≤ offset && offset < arena.size

/-- The bytes of several arenas. -/
def totalSize : List Arena → Nat
  | [] => 0
  | arena :: rest => arena.size + totalSize rest

end Arena

end ExtensionHost
