import ExtensionHost.Number.Native
import ExtensionHost.Object.Create

/-!
# `ExtensionHost.Box.Scalar`: boxed integers, truth values and floats

Truth values are integers, so they convert as one and zero. Where a float
is asked for an integer will do; the other way round nothing is converted.
-/

set_option autoImplicit false

namespace ExtensionHost.Box

/-! ### Integers -/

/-- Boxes an integer in an object of a type derived from `int`. -/
def newIntegerOf (type : TypeObject) (v : Int) : Attempt Ref := Object.new type (.integer v)

/-- Boxes an integer. -/
def newInteger (v : Int) : Attempt Ref := newIntegerOf .int v

/-- The integer in a box. -/
def integer (w : World) (r : Ref) : Except ApiError Int :=
  match w.instanceOf r .int with
  | .error e => .error e
  | .ok object =>
    match object.body with
    | .integer v => .ok v
    | _ => .error (.typeMismatch TypeObject.int.name object.type.name)

/-- The integer in a box as a native one. -/
def native (w : World) (r : Ref) (target : NativeInt) : Except ApiError Int :=
  match integer w r with
  | .error e => .error e
  | .ok v =>
    match target.convert? v with
    | some v => .ok v
    | none => .error (.overflow target.name)

/-! ### Truth values -/

/-- A new reference to the object of a truth value. -/
def newBool (b : Bool) : Host Ref := do
  let r := Ref.ofBool b
  Host.retain r
  return r

/-- A new reference to the object that stands for nothing. -/
def newNone : Host Ref := do
  Host.retain Ref.none
  return Ref.none

/-! ### Floats -/

/-- Boxes a float in an object of a type derived from `float`. -/
def newRealOf (type : TypeObject) (x : Double) : Attempt Ref := Object.new type (.real x)

/-- Boxes a float. -/
def newReal (x : Double) : Attempt Ref := newRealOf .float x

/-- The float in a box, or the float nearest to the integer in it. -/
def real (w : World) (r : Ref) : Except ApiError Double :=
  match w.object r with
  | .error e => .error e
  | .ok object =>
    match object.body with
    | .real x =>
      if object.type.isSubtypeOf .float then .ok x
      else .error (.typeMismatch TypeObject.float.name object.type.name)
    | .integer v =>
      if object.type.isSubtypeOf .int then .ok (.ofInt v)
      else .error (.typeMismatch TypeObject.float.name object.type.name)
    | _ => .error (.typeMismatch TypeObject.float.name object.type.name)

end ExtensionHost.Box
