import ExtensionHost.Config.Document
import ExtensionHost.Config.File

/-!
# `ExtensionHost.Config.Environment`: settings in environment variables

The variable `PYABI_CONFIG` names a file, and the other variables take
precedence over it. Variables about the recording of events are ignored
when they make no sense; those about memory are refused.
-/

set_option autoImplicit false

namespace ExtensionHost

/-- What a process is started with. -/
structure Environment where
  /-- The values of variables that are texts. -/
  lookup? : String → Option String
  /-- The bytes of the file at a path. -/
  read : String → Except FileError ByteArray

namespace Config

/-- The text in the file at a path. -/
def fileText (environment : Environment) (path : String) : Except FileError String :=
  match environment.read path with
  | .error e => .error e
  | .ok bytes =>
    match String.fromUTF8? bytes with
    | some text => .ok text
    | none => .error .notText

/-- The configuration in a file. -/
def ofFile (environment : Environment) (path : String) : Except ConfigError Configuration :=
  match fileText environment path with
  | .error e => .error (.unreadable path e)
  | .ok text => ofText text

/-- The settings of the recording of events, with those that variables
give in place of the given ones. -/
def overrideLogging (environment : Environment) (logging : LoggingSettings) :
    LoggingSettings :=
  let switch (name : String) (value : Bool) : Bool :=
    ((environment.lookup? name).bind switch?).getD value
  let path := environment.lookup? "PYABI_LOG_FILE"
  { level := ((environment.lookup? "PYABI_LOG_LEVEL").bind level?).getD logging.level
    fileOutput := path.isSome || logging.fileOutput
    logPath := path.or logging.logPath
    jsonFormat := switch "PYABI_LOG_JSON" logging.jsonFormat
    showSpans := switch "PYABI_LOG_SPANS" logging.showSpans
    trackPerformance := switch "PYABI_LOG_PERF" logging.trackPerformance }

/-- The size that a variable gives, if it is set. -/
def sizeVariable (environment : Environment) (name : String) :
    Except ConfigError (Option Nat) :=
  match environment.lookup? name with
  | none => .ok none
  | some value =>
    match Number.size? (Text.trim value) with
    | some n => .ok (some n)
    | none => .error (.invalid name value)

/-- The configuration that an environment gives. -/
def load (environment : Environment) : Except ConfigError Configuration := do
  let { allocator, logging } ← match environment.lookup? "PYABI_CONFIG" with
    | some path => ofFile environment path
    | none => .ok {}
  let logging := overrideLogging environment logging
  let arenaSize := (← sizeVariable environment "PYABI_ARENA_SIZE").getD allocator.arenaSize
  let memoryLimit := (← sizeVariable environment "PYABI_MEMORY_LIMIT").or allocator.memoryLimit
  validate { allocator := { allocator with arenaSize, memoryLimit }, logging }

end Config

end ExtensionHost
