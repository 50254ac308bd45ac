import ExtensionHost.Method.Dispatch

/-!
# `ExtensionHost.Method.Table`: the methods of a module

A table lists descriptors up to a terminator, a descriptor without a name.
It loads only when every descriptor before the terminator is valid. Where
a name is listed more than once the first one counts.
-/

set_option autoImplicit false

namespace ExtensionHost

/-- The methods of a module, in the order in which they are listed. -/
structure MethodTable where
  methods : List Method

namespace MethodTable

/-- The descriptor that ends a table. -/
def terminator : Descriptor := ⟨none, none, 0, none⟩

/-- Whether a descriptor ends a table. -/
def isTerminator (descriptor : Descriptor) : Bool := descriptor.name.isNone

/-- Reads descriptors one after the other up to the terminator. -/
def readUntilTerminator : List Descriptor → Except ApiError (List Method)
  | [] => .ok []
  | descriptor :: rest =>
    if isTerminator descriptor then .ok []
    else do
      let method ← Method.ofDescriptor descriptor
      let methods ← readUntilTerminator rest
      return method :: methods

/-- Loads a table from a pointer to its first descriptor. -/
def load : Option (List Descriptor) → Attempt MethodTable
  | none => throw .nullReference
  | some descriptors => do
    let methods ← Attempt.ofExcept (readUntilTerminator descriptors)
    Host.report (.tableLoaded methods.length)
    return ⟨methods⟩

/-- Loads a table from a list of descriptors, of which those before a
terminator count. -/
def ofList (descriptors : List Descriptor) : Except ApiError MethodTable := do
  let methods ←
    (descriptors.takeWhile fun descriptor => !isTerminator descriptor).mapM Method.ofDescriptor
  return ⟨methods⟩

/-- The first method of a name. -/
def find (table : MethodTable) (name : String) : Except ApiError Method :=
  match table.methods.find? fun method => method.name = name with
  | some method => .ok method
  | none => .error (.unknownMethod name)

/-- Calls the first method of a name. -/
def call (table : MethodTable) (name : String) (receiver arguments keywords : Option Ref) :
    Attempt Ref := do
  let method ← Attempt.ofExcept (table.find name)
  method.call receiver arguments keywords

end MethodTable

end ExtensionHost
