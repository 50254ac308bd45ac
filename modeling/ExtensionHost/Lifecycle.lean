import ExtensionHost.Config.Environment
import ExtensionHost.Object.World

/-!
# `ExtensionHost.Lifecycle`: starting and stopping the runtime

Starting takes the configuration from the environment and keeps the one in
force when that is refused. The allocator of a thread is made with the
settings that are installed when it is first used, so starting a second
time changes what is installed but not the allocator. Whether operations
are timed is decided by the first start.
-/

set_option autoImplicit false

namespace ExtensionHost

/-- The version that a start reports. -/
def version : String := "0.1.0"

namespace World

/-- Puts a configuration into force. -/
def install (w : World) (configuration : Configuration) : World :=
  { w with
    logging := configuration.logging
    memory := { w.memory with installed := configuration.allocator } }

/-- Whether operations are timed. -/
def isTimed (w : World) : Bool := w.memory.process.timing

/-- Marks the runtime as started. The first start decides whether
operations are timed. -/
def markStarted (w : World) (timing : Bool) : World :=
  if w.started then w
  else
    { w with
      started := true
      memory := { w.memory with process := { w.memory.process with timing } } }

end World

/-- Makes the allocator of the thread, if it has not been used, and gives
its settings. -/
def warmUp : Host (Option AllocatorSettings) :=
  modifyGet (World.onMemory Memory.settings?)

/-- Starts the runtime. -/
def startUp (environment : Environment) : Host Unit := do
  let loaded := Config.load environment
  let logging := match loaded with
    | .ok configuration => configuration.logging
    | .error _ => Config.overrideLogging environment {}
  modify (·.markStarted logging.trackPerformance)
  Host.report (.started version)
  match loaded with
  | .ok configuration => modify (·.install configuration)
  | .error e => Host.report (.configurationIgnored e.message)
  if let some settings ← warmUp then
    Host.report (.allocatorReady settings)

/-- Reports what the thread's allocator holds, and stops the runtime. -/
def shutDown : Host Unit := do
  let stats ← modifyGet (World.onMemory Memory.stats)
  let orphanedBytes := (← get).memory.process.orphanedBytes
  Host.report <| .held {
    arenaBytes := stats.arenaBytes
    arenas := stats.arenaCount
    poolBlocks := stats.inUse
    heapBlocks := stats.heapBlocks
    heapBytes := stats.heapBytes
    orphanedBytes }
  Host.report .stopped

end ExtensionHost
