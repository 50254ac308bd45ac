/-!
# `ExtensionHost.Error`: why an operation on boxed values is refused

Every refusal is one cause with the data that belongs to it. The kind
groups causes for callers that only want the family, and the message is
the one place where the wording lives.
-/

set_option autoImplicit false

namespace ExtensionHost

/-- The family of a refusal. -/
inductive ErrorKind
  | allocation | type | index | arity | value | usage | call
deriving DecidableEq, Repr

/-- The cause of a refusal. -/
inductive ApiError
  /-- No storage of `size` bytes could be had. -/
  | allocationFailed (size : Nat)
  /-- An object of type `found` stood where one of type `expected` belongs. -/
  | typeMismatch (expected found : String)
  | indexOutOfRange (index len : Int)
  /-- The slot exists but was never filled. -/
  | uninitializedSlot (index : Int)
  | arity (min max found : Nat)
  | missingArgument (name : String)
  | duplicateArgument (name : String)
  | unknownKeyword (name : String)
  /-- The number does not fit the native type named `target`. -/
  | overflow (target : String)
  | embeddedNul
  | invalidUtf8
  | badFormat (format reason : String)
  /-- The output or argument at `position` has code `found`. -/
  | slotMismatch (position : Nat) (expected found : Char)
  | nullReference
  | badCallConvention (flags : Int)
  | callFailed (name : String)
  | unknownMethod (name : String)
  | typeTagInUse (tag : Nat)
deriving DecidableEq, Repr

/-- Lower-case hexadecimal digits with the mark `0x` in front. -/
def hexadecimal (n : Nat) : String :=
  "0x" ++ String.ofList (Nat.toDigits 16 n)

namespace ErrorKind

/-- The word by which events name a family. -/
def name : ErrorKind → String
  | allocation => "Allocation"
  | type => "Type"
  | index => "Index"
  | arity => "Arity"
  | value => "Value"
  | usage => "Usage"
  | call => "Call"

end ErrorKind

namespace ApiError

/-- The family a cause belongs to. -/
def kind : ApiError → ErrorKind
  | allocationFailed _ => .allocation
  | typeMismatch _ _ => .type
  | indexOutOfRange _ _ | uninitializedSlot _ => .index
  | arity _ _ _ | missingArgument _ | duplicateArgument _ | unknownKeyword _ => .arity
  | overflow _ | embeddedNul | invalidUtf8 => .value
  | badFormat _ _ | slotMismatch _ _ _ | nullReference | badCallConvention _
  | unknownMethod _ | typeTagInUse _ => .usage
  | callFailed _ => .call

/-- The word by which a cause is named. -/
def name : ApiError → String
  | allocationFailed _ => "AllocationFailed"
  | typeMismatch _ _ => "TypeMismatch"
  | indexOutOfRange _ _ => "IndexOutOfRange"
  | uninitializedSlot _ => "UninitializedSlot"
  | arity _ _ _ => "Arity"
  | missingArgument _ => "MissingArgument"
  | duplicateArgument _ => "DuplicateArgument"
  | unknownKeyword _ => "UnknownKeyword"
  | overflow _ => "Overflow"
  | embeddedNul => "EmbeddedNul"
  | invalidUtf8 => "InvalidUtf8"
  | badFormat _ _ => "BadFormat"
  | slotMismatch _ _ _ => "SlotMismatch"
  | nullReference => "NullReference"
  | badCallConvention _ => "BadCallConvention"
  | callFailed _ => "CallFailed"
  | unknownMethod _ => "UnknownMethod"
  | typeTagInUse _ => "TypeTagInUse"

/-- The cause of a name, with the numbers and the texts that belong to it
given by what they are. -/
def ofName? (name : String) (number : String → Int) (text : String → String) :
    Option ApiError :=
  let size (field : String) : Nat := (number field).toNat
  let letter (field : String) : Char := (text field).toList.headD ' '
  match name with
  | "AllocationFailed" => some (allocationFailed (size "size"))
  | "TypeMismatch" => some (typeMismatch (text "expected") (text "found"))
  | "IndexOutOfRange" => some (indexOutOfRange (number "index") (number "len"))
  | "UninitializedSlot" => some (uninitializedSlot (number "index"))
  | "Arity" => some (arity (size "min") (size "max") (size "found"))
  | "MissingArgument" => some (missingArgument (text "name"))
  | "DuplicateArgument" => some (duplicateArgument (text "name"))
  | "UnknownKeyword" => some (unknownKeyword (text "name"))
  | "Overflow" => some (overflow (text "target"))
  | "EmbeddedNul" => some embeddedNul
  | "InvalidUtf8" => some invalidUtf8
  | "BadFormat" => some (badFormat (text "format") (text "reason"))
  | "SlotMismatch" =>
    some (slotMismatch (size "position") (letter "expected") (letter "found"))
  | "NullReference" => some nullReference
  | "BadCallConvention" => some (badCallConvention (number "flags"))
  | "CallFailed" => some (callFailed (text "name"))
  | "UnknownMethod" => some (unknownMethod (text "name"))
  | "TypeTagInUse" => some (typeTagInUse (size "tag"))
  | _ => none

/-- The wording of a cause. An arity range of one number is told as that
number, and calling-convention flags are shown as the 32-bit word that
holds them. -/
def message : ApiError → String
  | allocationFailed size => "Allocation of " ++ toString size ++ " bytes failed"
  | typeMismatch expected found =>
    "Type mismatch: expected " ++ expected ++ ", found " ++ found
  | indexOutOfRange index len =>
    "Index " ++ toString index ++ " out of range for length " ++ toString len
  | uninitializedSlot index => "Slot " ++ toString index ++ " was never set"
  | arity min max found =>
    if min = max then
      "Expected " ++ toString min ++ " arguments, got " ++ toString found
    else
      "Expected " ++ toString min ++ " to " ++ toString max ++ " arguments, got "
        ++ toString found
  | missingArgument name => "Missing required argument '" ++ name ++ "'"
  | duplicateArgument name => "Argument '" ++ name ++ "' given by name and position"
  | unknownKeyword name => "Unexpected keyword argument '" ++ name ++ "'"
  | overflow target => "Value does not fit in " ++ target
  | embeddedNul => "String contains an embedded NUL byte"
  | invalidUtf8 => "String is not valid UTF-8"
  | badFormat format reason => "Bad format '" ++ format ++ "': " ++ reason
  | slotMismatch position expected found =>
    "Slot " ++ toString position ++ " has code '" ++ found.toString
      ++ "' but format expects '" ++ expected.toString ++ "'"
  | nullReference => "Null object reference"
  | badCallConvention flags =>
    "Unsupported calling convention flags " ++ hexadecimal (flags % 0x100000000).toNat
  | callFailed name => "Function '" ++ name ++ "' returned failure"
  | unknownMethod name => "No method named '" ++ name ++ "'"
  | typeTagInUse tag => "Type tag " ++ hexadecimal tag ++ " already registered"

end ApiError

/-- Why the runtime stops the process at once: going on would corrupt
memory. -/
inductive Fault
  /-- An object is released although its count is not positive. -/
  | overReleased
  /-- The last reference to an immortal object was released. -/
  | immortalReleased
  /-- A block is freed or resized a second time. -/
  | freedBlock
  /-- A block is freed or resized that no allocator made. -/
  | foreignBlock
  /-- A reference is followed to an object that no longer exists. -/
  | dangling
  /-- A routine starts another one before it is done. -/
  | nestedRoutine
deriving DecidableEq, Repr

end ExtensionHost
