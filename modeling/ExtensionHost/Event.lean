import ExtensionHost.Error
import ExtensionHost.Storage.Settings

/-!
# `ExtensionHost.Event`: what the runtime reports while it works

An event says that something happened and carries the data of it. How
grave it is and which fields it shows are functions of the event, so the
operations that report events know nothing of how they are shown.
-/

set_option autoImplicit false

namespace ExtensionHost

/-- How grave an event is, from the least to the most. -/
inductive Level
  | trace | debug | info | warn | error
deriving DecidableEq, Repr, Inhabited

namespace Level

/-- All levels, gravest first: the order in which they are numbered from
one. -/
def all : List Level := [error, warn, info, debug, trace]

/-- The name of a level. -/
def name : Level → String
  | trace => "TRACE"
  | debug => "DEBUG"
  | info => "INFO"
  | warn => "WARN"
  | error => "ERROR"

/-- The place of a level among the levels, the least grave first. -/
def rank : Level → Nat
  | trace => 0
  | debug => 1
  | info => 2
  | warn => 3
  | error => 4

/-- Whether an event of level `level` passes a filter set to `filter`. -/
def admits (filter level : Level) : Bool := filter.rank ≤ level.rank

end Level

/-- The value of a field of an event. -/
inductive FieldValue
  | number (value : Int)
  | text (value : String)
deriving DecidableEq, Repr

/-- What is held and live when the runtime stops. -/
structure Holdings where
  arenaBytes : Nat
  arenas : Nat
  poolBlocks : Nat
  heapBlocks : Int
  heapBytes : Int
  orphanedBytes : Nat
deriving DecidableEq, Repr

/-- Something that happened. -/
inductive Event
  /-- An entry point handed out a block for a request of `size` bytes. -/
  | blockAllocated (size : Nat)
  /-- An entry point was asked to free a block. -/
  | blockFreed
  | objectCreated (typeName : String) (size : Nat)
  /-- An object's last reference is gone and its storage is about to go. -/
  | objectReleased (typeName : String)
  | tupleReleased (length : Int)
  | listReleased (length capacity : Int)
  /-- The allocator got an arena, its `arenas`-th. -/
  | arenaAcquired (size arenas : Nat)
  /-- The operation was timed; how long it took is not part of the event. -/
  | timed (operation : String)
  | limitExceeded (size : Nat)
  | bufferGrown (before after : Int)
  | conversionFailed (function : String) (error : ApiError) (message : String)
  /-- A call came in through an entry point with slots. -/
  | entered (entry : String) (count : Nat)
  /-- An entry point answers failure. -/
  | entryFailed (entry : String) (error : ApiError)
  | dispatched (method convention : String) (count : Int)
  | tableLoaded (count : Nat)
  | typeRegistered (name : String) (tag : Nat)
  | allocatorReady (settings : AllocatorSettings)
  | configurationIgnored (reason : String)
  | started (version : String)
  | held (holdings : Holdings)
  | stopped
deriving DecidableEq, Repr

namespace Event

/-- How grave an event is. -/
def level : Event → Level
  | blockAllocated _ | blockFreed | objectCreated _ _ | tupleReleased _
  | listReleased _ _ => .trace
  | objectReleased _ | arenaAcquired _ _ | timed _ | limitExceeded _ | bufferGrown _ _
  | conversionFailed _ _ _ | entered _ _ | dispatched _ _ _ | tableLoaded _
  | typeRegistered _ _ | allocatorReady _ => .debug
  | started _ | held _ | stopped => .info
  | entryFailed _ _ | configurationIgnored _ => .warn

/-- A limit as events show it. -/
def limitText : Option Nat → String
  | none => "None"
  | some n => "Some(" ++ toString n ++ ")"

/-- The fields of an event. -/
def fields : Event → List (String × FieldValue)
  | blockAllocated size => [("event", .text "block_alloc"), ("size_bytes", .number size)]
  | blockFreed => [("event", .text "block_free")]
  | objectCreated typeName size =>
    [("event", .text "object_new"), ("type_name", .text typeName), ("size_bytes", .number size)]
  | objectReleased typeName => [("event", .text "dealloc"), ("type_name", .text typeName)]
  | tupleReleased length => [("event", .text "tuple_dealloc"), ("len", .number length)]
  | listReleased length capacity =>
    [("event", .text "list_dealloc"), ("len", .number length), ("capacity", .number capacity)]
  | arenaAcquired size arenas =>
    [("event", .text "arena_acquired"), ("size_bytes", .number size),
      ("arenas", .number arenas), ("message", .text "Arena acquired")]
  | timed operation => [("event", .text "timed"), ("operation", .text operation)]
  | limitExceeded size =>
    [("size_bytes", .number size), ("message", .text "Heap request exceeds memory limit")]
  | bufferGrown before after =>
    [("old_capacity", .number before), ("new_capacity", .number after),
      ("message", .text "List buffer grown")]
  | conversionFailed function error message =>
    [("function", .text function), ("error", .text error.message), ("message", .text message)]
  | entered entry count =>
    [("event", .text "c_entry"), ("entry", .text entry), ("arg_count", .number count)]
  | entryFailed entry error =>
    [("event", .text "c_entry_failed"), ("entry", .text entry),
      ("kind", .text error.kind.name), ("message", .text error.message)]
  | dispatched method convention count =>
    [("method", .text method), ("convention", .text convention), ("nargs", .number count),
      ("message", .text "Dispatching native method")]
  | tableLoaded count =>
    [("methods", .number count), ("message", .text "Loaded method table")]
  | typeRegistered name tag =>
    [("type_name", .text name), ("tag", .number tag), ("message", .text "Type registered")]
  | allocatorReady settings =>
    [("arena_size", .number settings.arenaSize), ("max_arena_size", .number settings.maxArenaSize),
      ("memory_limit", .text (limitText settings.memoryLimit)),
      ("message", .text "Allocator initialized")]
  | configurationIgnored reason =>
    [("error", .text reason), ("message", .text "Ignoring invalid runtime configuration")]
  | started version =>
    [("event", .text "runtime_init"), ("version", .text version),
      ("message", .text "pyabi runtime starting")]
  | held holdings =>
    [("arena_bytes", .number holdings.arenaBytes), ("arenas", .number holdings.arenas),
      ("pool_blocks_in_use", .number holdings.poolBlocks),
      ("heap_blocks_live", .number holdings.heapBlocks),
      ("heap_bytes_live", .number holdings.heapBytes),
      ("orphaned_bytes", .number holdings.orphanedBytes),
      ("message", .text "Allocator statistics")]
  | stopped =>
    [("event", .text "runtime_shutdown"), ("message", .text "pyabi runtime stopped")]

end Event

end ExtensionHost
