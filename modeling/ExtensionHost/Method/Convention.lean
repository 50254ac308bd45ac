import ExtensionHost.Error

/-!
# `ExtensionHost.Method.Convention`: the ways in which a function takes its arguments
-/

set_option autoImplicit false

namespace ExtensionHost

/-- A way in which a native function takes its arguments. -/
inductive CallConvention
  /-- It takes none. -/
  | noArgs
  /-- It takes exactly one, as it is. -/
  | object
  /-- It takes the tuple of them. -/
  | varArgs
  /-- It takes the tuple of those given by position and a sequence of those
  given by name. -/
  | varArgsKeywords
deriving DecidableEq, Repr

namespace CallConvention

/-- All conventions. -/
def all : List CallConvention := [noArgs, object, varArgs, varArgsKeywords]

/-- The flags by which a descriptor states a convention. -/
def flags : CallConvention → Int
  | varArgs => 1
  | varArgsKeywords => 3
  | noArgs => 4
  | object => 8

/-- The name under which events show a convention. -/
def name : CallConvention → String
  | noArgs => "NoArgs"
  | object => "Object"
  | varArgs => "VarArgs"
  | varArgsKeywords => "VarArgsKeywords"

/-- The convention that flags state. Every other combination is refused. -/
def ofFlags (flags : Int) : Except ApiError CallConvention :=
  match all.find? fun convention => convention.flags = flags with
  | some convention => .ok convention
  | none => .error (.badCallConvention flags)

/-- Whether arguments may be given by name. -/
def acceptsKeywords (convention : CallConvention) : Bool := convention = varArgsKeywords

/-- A convention is read back from its flags. -/
@[simp] theorem ofFlags_flags (convention : CallConvention) :
    ofFlags convention.flags = .ok convention := by
  cases convention <;> rfl

end CallConvention

end ExtensionHost
