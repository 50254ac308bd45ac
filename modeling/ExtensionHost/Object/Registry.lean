import ExtensionHost.Object.World

/-!
# `ExtensionHost.Object.Registry`: finding types by their tag

The built-in types are registered from the start. An extension may add
types under tags that are not those of built-in types, one type for each
tag. Registering a type a second time changes nothing.
-/

set_option autoImplicit false

namespace ExtensionHost

namespace World

/-- The type registered under a tag. -/
def registered? (w : World) (tag : Nat) : Option TypeObject :=
  w.registry.find? fun type => type.tag = tag

/-- How many types are registered. -/
def registeredCount (w : World) : Nat := w.registry.length

end World

/-- Registers a type of an extension. -/
def registerType (type : TypeObject) : Attempt Unit := do
  if type.isBuiltin then throw (.typeTagInUse type.tag)
  match (← get).registered? type.tag with
  | some registered =>
    if registered.identity = type.identity then return ()
    else throw (.typeTagInUse type.tag)
  | none =>
    Host.report (.typeRegistered type.name type.tag)
    modify fun w => { w with registry := w.registry ++ [type] }

end ExtensionHost
