import ExtensionHost.Object.Create

/-!
# `ExtensionHost.Boundary.Report`: refusals at the boundary to foreign code

Foreign code passes objects by pointer, any of which may be null, and
cannot be handed a refusal. A boundary function that is refused reports
the refusal as an event and answers a value that stands for failure.
-/

set_option autoImplicit false

namespace ExtensionHost

/-- An object passed by pointer; nothing stands for a null pointer. -/
abbrev Pointer := Option Ref

namespace Boundary

/-- The object that a pointer must point to. -/
def deref : Pointer → Except ApiError Ref
  | some r => .ok r
  | none => .error .nullReference

/-- Makes an attempt and answers `failure` when it is refused. -/
def reporting {α : Type} (entry : String) (failure : α) (attempt : Attempt α) : Host α := do
  match ← attempt.run with
  | .ok a => return a
  | .error e =>
    Host.report (.entryFailed entry e)
    return failure

/-- The pointer to what an attempt makes, or null. -/
def newReference (entry : String) (attempt : Attempt Ref) : Host Pointer :=
  reporting entry none do return some (← attempt)

/-- Zero for success and minus one for failure. -/
def status (entry : String) (attempt : Attempt Unit) : Host Int :=
  reporting entry (-1) do
    attempt
    return 0

/-- Reads something off the object that a pointer points to. -/
def readFrom {α : Type} (pointer : Pointer) (f : World → Ref → Except ApiError α) : Attempt α :=
  Attempt.read fun w => deref pointer >>= f w

/-- Whether a pointer points to an object that passes a test. -/
def test (pointer : Pointer) (f : World → Ref → Bool) : Host Bool := do
  match pointer with
  | some r => return f (← get) r
  | none => return false

/-- Stores what an attempt gives in an output that may be absent, and says
whether there was a value. The output is left alone when the attempt is
refused. -/
def checked {α : Type} (entry : String) (output : Option α) (attempt : Attempt α) :
    Host (Int × Option α) := do
  match ← reporting entry none (do return some (← attempt)) with
  | some value => return (0, output.map fun _ => value)
  | none => return (-1, output)

end Boundary

end ExtensionHost
