import Std.Data.TreeMap

/-!
# `ExtensionHost.Storage.Payload`: what the bytes of a block hold

A payload says for every offset what stands there: a byte, or a word that
takes this byte and the seven after it. Each operation writes a range of
offsets and leaves the others as they were, which is what its equation
states.

Ranges are written rarely and may be as long as a block, so a range that is
written becomes a layer over all that was there. Single words are written
often, one slot of a container after the other, and are kept in a table
above the last layer.
-/

set_option autoImplicit false

namespace ExtensionHost

/-- What stands at an offset. -/
inductive Cell
  | byte (value : UInt8)
  /-- The first byte of a word that holds the number `value`. -/
  | word (value : Nat)
deriving DecidableEq, Repr, Inhabited

namespace Cell

/-- The byte at an offset; a word has no byte of its own. -/
def toByte : Cell → UInt8
  | byte value => value
  | word _ => 0

/-- The word at an offset, if one starts there. -/
def toWord? : Cell → Option Nat
  | byte _ => none
  | word value => some value

end Cell

/-- What the bytes of a block hold, by offset. -/
structure Payload where
  /-- What stands at an offset where no word was put since the last range
  was written. -/
  base : Nat → Cell
  /-- What was put since then. -/
  written : Std.TreeMap Nat Cell := ∅

namespace Payload

/-- What stands at an offset. -/
def cell (p : Payload) (i : Nat) : Cell := p.written[i]?.getD (p.base i)

/-- Every offset holds the byte zero. -/
def blank : Payload := { base := fun _ => .byte 0 }

instance : Inhabited Payload := ⟨blank⟩

/-- Writes `value` into the `count` bytes from `start` on. -/
def fill (p : Payload) (start count : Nat) (value : UInt8) : Payload :=
  { base := fun i => if start ≤ i ∧ i < start + count then .byte value else p.cell i }

/-- Writes zero into the first `count` bytes. -/
def zero (p : Payload) (count : Nat) : Payload := p.fill 0 count 0

/-- Writes the bytes of a text from `start` on. -/
def write (p : Payload) (start : Nat) (bytes : ByteArray) : Payload :=
  { base := fun i =>
      if start ≤ i ∧ i < start + bytes.size then .byte (bytes.get! (i - start)) else p.cell i }

/-- Takes the first `count` bytes from another payload. -/
def copyFrom (p source : Payload) (count : Nat) : Payload :=
  { base := fun i => if i < count then source.cell i else p.cell i }

/-- Puts a byte or a word at an offset. -/
def put (p : Payload) (offset : Nat) (cell : Cell) : Payload :=
  { p with written := p.written.insert offset cell }

/-- Puts a word at an offset, or the byte zero for no word. -/
def setWord (p : Payload) (offset : Nat) (value : Option Nat) : Payload :=
  p.put offset (value.elim (.byte 0) .word)

/-- The word at an offset, if one starts there. -/
def word? (p : Payload) (offset : Nat) : Option Nat := (p.cell offset).toWord?

/-- The `count` bytes from `start` on. -/
def read (p : Payload) (start count : Nat) : ByteArray :=
  ⟨Array.ofFn fun i : Fin count => (p.cell (start + i)).toByte⟩

/-! ### What stands where after an operation -/

/-- A payload without words of its own above the base is the base. -/
theorem cell_mk_empty (base : Nat → Cell) (i : Nat) : (Payload.mk base ∅).cell i = base i := by
  simp [cell]

/-- A cell holds the value if it is one of those that were filled, and else what it held. -/
@[simp] theorem cell_fill (p : Payload) (start count : Nat) (value : UInt8) (i : Nat) :
    (p.fill start count value).cell i =
      if start ≤ i ∧ i < start + count then .byte value else p.cell i :=
  cell_mk_empty _ i

/-- A cell holds a byte of the text if it was written over, and else what it held. -/
@[simp] theorem cell_write (p : Payload) (start : Nat) (bytes : ByteArray) (i : Nat) :
    (p.write start bytes).cell i =
      if start ≤ i ∧ i < start + bytes.size then .byte (bytes.get! (i - start)) else p.cell i :=
  cell_mk_empty _ i

/-- A cell holds what the source does if it is one of those that were copied, and else
what it held. -/
@[simp] theorem cell_copyFrom (p source : Payload) (count i : Nat) :
    (p.copyFrom source count).cell i = if i < count then source.cell i else p.cell i :=
  cell_mk_empty _ i

/-- Putting a cell changes that cell only. -/
@[simp] theorem cell_put (p : Payload) (offset : Nat) (cell : Cell) (i : Nat) :
    (p.put offset cell).cell i = if i = offset then cell else p.cell i := by
  unfold put Payload.cell
  by_cases h : i = offset
  · simp [h]
  · simp [Std.TreeMap.getElem?_insert, h, Ne.symm h]

/-- Setting a slot changes the cell where it starts only. -/
@[simp] theorem cell_setWord (p : Payload) (offset : Nat) (value : Option Nat) (i : Nat) :
    (p.setWord offset value).cell i =
      if i = offset then value.elim (.byte 0) .word else p.cell i :=
  cell_put p offset _ i

/-- A slot holds what it was set to, and other slots hold what they held. -/
@[simp] theorem word?_setWord (p : Payload) (offset : Nat) (value : Option Nat) (i : Nat) :
    (p.setWord offset value).word? i = if i = offset then value else p.word? i := by
  unfold word?
  by_cases h : i = offset
  · cases value <;> simp [h, Cell.toWord?]
  · simp [h]

/-- A slot is empty if it is one of those that were cleared, and else it holds what it held. -/
@[simp] theorem word?_zero (p : Payload) (count i : Nat) :
    (p.zero count).word? i = if i < count then none else p.word? i := by
  unfold zero word?
  by_cases h : i < count <;> simp [h, Cell.toWord?]

/-- What was written is read back. -/
theorem read_write (p : Payload) (start : Nat) (bytes : ByteArray) :
    (p.write start bytes).read start bytes.size = bytes := by
  apply ByteArray.ext
  apply Array.ext
  · exact Array.size_ofFn
  · intro i h₁ h₂
    have hi : i < bytes.size := h₂
    have hget : bytes.get! i = bytes.data[i] := getElem!_pos bytes.data i h₂
    simp only [read, cell_write, Array.getElem_ofFn, Nat.le_add_right, Nat.add_lt_add_iff_left,
      Nat.add_sub_cancel_left, true_and, if_pos hi, Cell.toByte, hget]

end Payload

end ExtensionHost
