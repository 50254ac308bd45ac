import ExtensionHost.Event

/-!
# `ExtensionHost.Config.Settings`: what can be configured
-/

set_option autoImplicit false

namespace ExtensionHost

/-- How events are recorded. -/
structure LoggingSettings where
  level : Level := .warn
  fileOutput : Bool := false
  logPath : Option String := none
  jsonFormat : Bool := false
  showSpans : Bool := false
  trackPerformance : Bool := false
deriving DecidableEq, Repr, Inhabited

/-- The configuration of the runtime. -/
structure Configuration where
  allocator : AllocatorSettings := {}
  logging : LoggingSettings := {}
deriving DecidableEq, Repr, Inhabited

end ExtensionHost
