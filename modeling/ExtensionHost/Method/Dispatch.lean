import ExtensionHost.Argument.Keywords
import ExtensionHost.Method.Convention
import ExtensionHost.Text.Raw

/-!
# `ExtensionHost.Method.Dispatch`: calling a native function

A descriptor is what an extension writes down about a function; a method
is a descriptor that was found to be valid. A call is checked against the
convention of the method before the function is run, so a function only
ever sees arguments of the shape it was declared for. The function answers
a new reference, or nothing when it failed.
-/

set_option autoImplicit false

namespace ExtensionHost

/-- A native function: from the receiver, the arguments and those given by
name, each of which may be absent, to a new reference. -/
abbrev NativeFunction :=
  (receiver arguments keywords : Option Ref) → Host (Option Ref)

/-- What an extension writes down about a function. -/
structure Descriptor where
  name : RawText
  function : Option NativeFunction
  flags : Int
  doc : RawText

/-- A function that can be called. -/
structure Method where
  name : String
  doc : Option String
  convention : CallConvention
  function : NativeFunction

namespace Method

/-- The method of a descriptor, if it is valid. A documentation that is no
text is left out. -/
def ofDescriptor (descriptor : Descriptor) : Except ApiError Method := do
  let name ← descriptor.name.read
  let function ← match descriptor.function with
    | some function => Except.ok function
    | none => .error .nullReference
  let convention ← CallConvention.ofFlags descriptor.flags
  return { name, doc := descriptor.doc.read?, convention, function }

/-- The number of arguments in a tuple that may be absent. -/
def argumentCount (w : World) : Option Ref → Except ApiError Nat
  | some arguments => Box.tupleLength w arguments
  | none => .ok 0

/-- A sequence of arguments given by name, if there are any. -/
def namedArguments (w : World) : Option Ref → Except ApiError (Option Ref)
  | none => .ok none
  | some keywords => do
    let slots ← Box.sequenceSlots w keywords
    return if slots.isEmpty then none else some keywords

/-- Refuses arguments given by name that are no entries or that the method
does not accept. -/
def checkKeywords (w : World) (method : Method) : Option Ref → Except ApiError Unit
  | none => .ok ()
  | some keywords => do
    let source ← KeywordSource.ofObject w keywords
    if method.convention.acceptsKeywords then .ok ()
    else
      let entries ← source.read w
      .error (.unknownKeyword ((entries.head?.map (·.1)).getD ""))

/-- Runs the function of a method with what its convention asks for. The
answer of the function is nothing when it failed. -/
def run (method : Method) (receiver arguments keywords : Option Ref) (count : Nat) :
    Attempt (Option Ref) :=
  match method.convention with
  | .noArgs =>
    if count = 0 then do return ← method.function receiver none none
    else throw (.arity 0 0 count)
  | .object =>
    match arguments, count with
    | some arguments, 1 => do
      let argument ← Attempt.read (Box.tupleItem · arguments 0)
      return ← method.function receiver (some argument) none
    | _, _ => throw (.arity 1 1 count)
  | convention => do
    let keywords := if convention.acceptsKeywords then keywords else none
    match arguments with
    | some arguments => return ← method.function receiver (some arguments) keywords
    | none =>
      let empty ← Box.newTuple 0
      let answer ← method.function receiver (some empty) keywords
      Host.release empty
      return answer

/-- Calls a method. -/
def call (method : Method) (receiver arguments keywords : Option Ref) : Attempt Ref := do
  let count ← Attempt.read (argumentCount · arguments)
  let keywords ← Attempt.read (namedArguments · keywords)
  Attempt.read (checkKeywords · method keywords)
  Host.report (.dispatched method.name method.convention.name count)
  match ← run method receiver arguments keywords count with
  | some answer => return answer
  | none => throw (.callFailed method.name)

/-- Calls the method of a descriptor. -/
def callDescriptor (descriptor : Descriptor) (receiver arguments keywords : Option Ref) :
    Attempt Ref := do
  let method ← Attempt.ofExcept (ofDescriptor descriptor)
  call method receiver arguments keywords

end Method

end ExtensionHost
