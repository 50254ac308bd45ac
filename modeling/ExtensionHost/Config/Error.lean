import ExtensionHost.Config.File

/-!
# `ExtensionHost.Config.Error`: why a configuration is refused
-/

set_option autoImplicit false

namespace ExtensionHost

/-- Why a configuration is refused. -/
inductive ConfigError
  /-- The file at `path` could not be read. -/
  | unreadable (path : String) (reason : FileError)
  /-- The file is no document, or a setting has a value of the wrong
  type. -/
  | malformed
  | invalid (setting value : String)
deriving DecidableEq, Repr

namespace ConfigError

/-- The word by which a refusal is named. -/
def name : ConfigError → String
  | unreadable _ _ => "Io"
  | malformed => "Parse"
  | invalid _ _ => "Invalid"

/-- The wording of a refusal. -/
def message : ConfigError → String
  | unreadable path reason => "Cannot read config '" ++ path ++ "': " ++ reason.message
  | malformed => "Invalid config: "
  | invalid setting value => "Invalid value '" ++ value ++ "' for " ++ setting

end ConfigError

end ExtensionHost
