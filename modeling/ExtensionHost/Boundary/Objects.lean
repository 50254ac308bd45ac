import ExtensionHost.Boundary.Report

/-!
# `ExtensionHost.Boundary.Objects`: counts, types and sizes at the boundary

These functions take null pointers for granted: they do nothing with them
or answer a value that no object has.
-/

set_option autoImplicit false

namespace ExtensionHost.Boundary

/-- Adds a reference, if there is an object. -/
def retain (pointer : Pointer) : Host Unit :=
  match pointer with
  | some r => Host.retain r
  | none => pure ()

/-- Releases a reference, if there is an object. -/
def release (pointer : Pointer) : Host Unit :=
  match pointer with
  | some r => Host.release r
  | none => pure ()

/-- The count of an object, or minus one. -/
def refcount (pointer : Pointer) : Host Int := do
  match pointer with
  | some r => return (← get).count r
  | none => return -1

/-- The name of an object's type, if there is an object. -/
def typeName (pointer : Pointer) : Host (Option String) := do
  match pointer with
  | some r => return ((← get).object? r).map (·.type.name)
  | none => return none

/-- The number of items that an object records, or minus one. -/
def itemCount (pointer : Pointer) : Host Int := do
  match pointer.bind (← get).object? with
  | some object => return object.recordedSize.elim (-1) fun n => n
  | none => return -1

end ExtensionHost.Boundary
