import ExtensionHost.Object.Release

/-!
# `ExtensionHost.Object.Create`: making objects

An object gets a zeroed block of the size that its type asks for and
starts with one reference, which belongs to whoever asked for it.
-/

set_option autoImplicit false

namespace ExtensionHost

namespace World

/-- Adds an object that lies in the block at `home`. -/
def addObject (w : World) (type : TypeObject) (body : Body) (home : Address) : Ref × World :=
  (w.objects.size,
    { w with objects := w.objects.push { type, count := 1, body, home := some home } })

/-- Changes what a block holds. -/
def modifyPayload (w : World) (a : Address) (f : Payload → Payload) : World :=
  let m := w.memory
  let w := { w with memory := default }
  let p := m.process
  let m := { m with process := default }
  { w with memory := { m with process := p.modifyPayload a f } }

end World

namespace Object

/-- Makes an object of `size` bytes. -/
def allocate (type : TypeObject) (size : Nat) (body : Body) : Attempt Ref := do
  match ← modifyGet (World.onMemory (·.calloc 1 size)) with
  | none => throw (.allocationFailed size)
  | some home =>
    let r ← modifyGet (·.addObject type body home)
    Host.report (.objectCreated type.name size)
    return r

/-- Makes an object without items. -/
def new (type : TypeObject) (body : Body) : Attempt Ref :=
  allocate type type.basicSize body

/-- Makes an object with room for `items` items. Neither the bytes nor the
number of items may be too large for their words. -/
def newSized (type : TypeObject) (items : Nat) (body : Body) : Attempt Ref :=
  match type.instanceSize? items with
  | none => throw (.allocationFailed Size.greatest)
  | some size =>
    if Size.addressable < items then throw (.allocationFailed size)
    else allocate type size body

end Object

end ExtensionHost
