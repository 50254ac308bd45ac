import ExtensionHost.Config.Error
import ExtensionHost.Config.Level
import ExtensionHost.Config.Settings
import ExtensionHost.Toml.Document

/-!
# `ExtensionHost.Config.Document`: settings in a configuration file

Settings that a file leaves out have their default value, and entries that
are no settings mean nothing. A group of settings is a table by name, or
an array in the order of the settings.
-/

set_option autoImplicit false

namespace ExtensionHost.Config

/-! ### Values -/

/-- A size. -/
def size? : Toml.Value → Option Nat
  | .integer v => if 0 ≤ v then some v.toNat else none
  | _ => none

/-- A truth value. -/
def truth? : Toml.Value → Option Bool
  | .truth b => some b
  | _ => none

/-- A text. -/
def text? : Toml.Value → Option String
  | .text s => some s
  | _ => none

/-- What a group of settings says about each of them, by name. -/
def group? (names : List String) : Toml.Value → Option (String → Option Toml.Value)
  | .table _ entries => some fun name => entries.lookup name
  | .array items => some fun name => (names.idxOf? name).bind (items[·]?)
  | .tables items => some fun name =>
    (names.idxOf? name).bind fun i => items[i]?.map (.table .header)
  | .time => some fun _ => none
  | _ => none

/-- A setting, which has its default value when nothing is said of it. -/
def setting? {α : Type} (read : Toml.Value → Option α) (default : α) :
    Option Toml.Value → Option α
  | some value => read value
  | none => some default

/-! ### Groups -/

/-- The names of the settings of an allocator. -/
def allocatorNames : List String := ["arena_size", "max_arena_size", "memory_limit"]

/-- The settings of an allocator. -/
def allocator? (value : Toml.Value) : Option AllocatorSettings := do
  let default : AllocatorSettings := {}
  let group ← group? allocatorNames value
  let arenaSize ← setting? size? default.arenaSize (group "arena_size")
  let maxArenaSize ← setting? size? default.maxArenaSize (group "max_arena_size")
  let memoryLimit ←
    setting? (fun value => (size? value).map some) default.memoryLimit (group "memory_limit")
  return { arenaSize, maxArenaSize, memoryLimit }

/-- The names of the settings of the recording of events. -/
def loggingNames : List String :=
  ["level", "file_output", "log_path", "json_format", "show_spans", "track_performance"]

/-- The settings of the recording of events. -/
def logging? (value : Toml.Value) : Option LoggingSettings := do
  let default : LoggingSettings := {}
  let group ← group? loggingNames value
  let level ←
    setting? (fun value => (text? value).bind level?) default.level (group "level")
  let fileOutput ← setting? truth? default.fileOutput (group "file_output")
  let logPath ←
    setting? (fun value => (text? value).map some) default.logPath (group "log_path")
  let jsonFormat ← setting? truth? default.jsonFormat (group "json_format")
  let showSpans ← setting? truth? default.showSpans (group "show_spans")
  let trackPerformance ← setting? truth? default.trackPerformance (group "track_performance")
  return { level, fileOutput, logPath, jsonFormat, showSpans, trackPerformance }

/-- The configuration that the entries of a file describe. -/
def ofEntries? (entries : Toml.Entries) : Option Configuration := do
  let allocator ← setting? allocator? {} (entries.get? "allocator")
  let logging ← setting? logging? {} (entries.get? "logging")
  return { allocator, logging }

/-- Refuses a configuration under which no arena could be acquired. -/
def validate (configuration : Configuration) : Except ConfigError Configuration :=
  let { arenaSize, maxArenaSize, .. } := configuration.allocator
  if arenaSize = 0 then .error (.invalid "allocator.arena_size" (toString arenaSize))
  else if maxArenaSize < arenaSize then
    .error (.invalid "allocator.max_arena_size" (toString maxArenaSize))
  else .ok configuration

/-- The configuration in the text of a file. -/
def ofText (text : String) : Except ConfigError Configuration :=
  match (Toml.parse text).bind ofEntries? with
  | some configuration => validate configuration
  | none => .error .malformed

end ExtensionHost.Config
