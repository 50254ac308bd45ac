/-!
# `ExtensionHost.Size`: byte counts of a 64-bit machine

A size is a natural number that fits an unsigned 64-bit word. Sums and
products that leave that range are refused rather than wrapped, so every
computation on sizes answers an `Option`. Two smaller bounds matter too:
what a signed word can hold limits one region of memory, and every region
starts at a multiple of sixteen.
-/

set_option autoImplicit false

namespace ExtensionHost.Size

/-- The greatest size, all 64 bits set. -/
def greatest : Nat := 0xffffffffffffffff

/-- The greatest number of bytes one region may have: what a signed
64-bit word can count. -/
def addressable : Nat := 0x7fffffffffffffff

/-- Blocks and regions start at multiples of this many bytes. -/
def alignment : Nat := 16

/-- The sum of two sizes, refused when it is no size. -/
def add? (a b : Nat) : Option Nat :=
  if a + b ≤ greatest then some (a + b) else none

/-- The product of two sizes, refused when it is no size. -/
def mul? (a b : Nat) : Option Nat :=
  if a * b ≤ greatest then some (a * b) else none

/-- The least multiple of `alignment` that is not below `size`, refused
when the detour over `size + 15` is no size. -/
def align? (size : Nat) : Option Nat :=
  (add? size (alignment - 1)).map fun padded => padded / alignment * alignment

/-- A size read as a signed 64-bit word. -/
def signed (size : Nat) : Int := (size : Int).bmod (greatest + 1)

/-- Sizes are added if their sum is one. -/
theorem add?_eq_some {a b c : Nat} :
    add? a b = some c ↔ a + b ≤ greatest ∧ a + b = c := by
  unfold add?
  split
  · simp_all
  · simpa using fun h => absurd h ‹_›

/-- Sizes are multiplied if their product is one. -/
theorem mul?_eq_some {a b c : Nat} :
    mul? a b = some c ↔ a * b ≤ greatest ∧ a * b = c := by
  unfold mul?
  split
  · simp_all
  · simpa using fun h => absurd h ‹_›

/-- A size is rounded up to a multiple of sixteen if that does not exceed what sizes can be. -/
theorem align?_eq_some {size aligned : Nat} :
    align? size = some aligned ↔
      size + 15 ≤ greatest ∧ (size + 15) / 16 * 16 = aligned := by
  simp only [align?, Option.map_eq_some_iff, add?_eq_some, alignment]
  constructor
  · rintro ⟨padded, ⟨h, rfl⟩, rfl⟩
    exact ⟨h, rfl⟩
  · rintro ⟨h, rfl⟩
    exact ⟨size + 15, ⟨h, rfl⟩, rfl⟩

end ExtensionHost.Size
