/-!
# `ExtensionHost.Storage.Settings`: how an allocator is set up
-/

set_option autoImplicit false

namespace ExtensionHost

/-- How an allocator is set up: the size of its first arena, the size up
to which later arenas grow, and the number of bytes it may hold. -/
structure AllocatorSettings where
  arenaSize : Nat := 65536
  maxArenaSize : Nat := 4194304
  memoryLimit : Option Nat := none
deriving DecidableEq, Repr, Inhabited

end ExtensionHost
