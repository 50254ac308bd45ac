import ExtensionHost.Boundary.Report
import ExtensionHost.Method.Table

/-!
# `ExtensionHost.Boundary.Methods`: calling methods from foreign code
-/

set_option autoImplicit false

namespace ExtensionHost.Boundary

/-- Calls the method of a descriptor that is passed by pointer. -/
def callMethod (descriptor : Option Descriptor) (receiver arguments keywords : Pointer) :
    Host Pointer :=
  newReference "pyabi_call_method" do
    match descriptor with
    | some descriptor => Method.callDescriptor descriptor receiver arguments keywords
    | none => throw .nullReference

/-- Calls the method of a name in a table that is passed by pointer. -/
def callTable (table : Option (List Descriptor)) (name : RawText)
    (receiver arguments keywords : Pointer) : Host Pointer :=
  newReference "pyabi_call_table" do
    let name ← Attempt.ofExcept name.read
    let table ← MethodTable.load table
    table.call name receiver arguments keywords

end ExtensionHost.Boundary
