import ExtensionHost.Error

/-!
# `ExtensionHost.Text.Raw`: texts that foreign code passes by pointer

Such a text is a run of bytes that ends at the first NUL, or no text at
all when the pointer is null. Whether the bytes are UTF-8 is found out
when the text is read.
-/

set_option autoImplicit false

namespace ExtensionHost

/-- A text passed by pointer; nothing stands for a null pointer. -/
abbrev RawText := Option ByteArray

namespace RawText

/-- The text at a pointer to bytes: what stands before the first NUL. -/
def ofBytes (bytes : ByteArray) : RawText :=
  match bytes.findIdx? (· = 0) with
  | some n => some (bytes.extract 0 n)
  | none => some bytes

/-- The text that a pointer must point to. -/
def read : RawText → Except ApiError String
  | none => .error .nullReference
  | some bytes =>
    match String.fromUTF8? bytes with
    | some text => .ok text
    | none => .error .invalidUtf8

/-- The text that a pointer points to if it is one. -/
def read? : RawText → Option String
  | none => none
  | some bytes => String.fromUTF8? bytes

end RawText

end ExtensionHost
