/-!
# `ExtensionHost.Storage.SizeClass`: the sizes in which small blocks come

Requests of at most 1024 bytes are rounded up to one of 64 sizes, the
multiples of sixteen. A request for nothing counts as one for a byte.
-/

set_option autoImplicit false

namespace ExtensionHost

/-- One of the 64 sizes in which small blocks come. -/
abbrev SizeClass := Fin 64

namespace SizeClass

/-- The greatest request that is small. -/
def threshold : Nat := 1024

/-- The usable bytes of a block of the class. -/
def bytes (cls : SizeClass) : Nat := (cls.val + 1) * 16

/-- The class of a small request. -/
def ofSize? (size : Nat) : Option SizeClass :=
  if h : size ≤ 1024 then some ⟨(max size 1 + 15) / 16 - 1, by omega⟩ else none

/-- Only a size beyond the threshold has no class. -/
theorem ofSize?_eq_none_iff {size : Nat} : ofSize? size = none ↔ threshold < size := by
  simp [ofSize?, threshold]

/-- The class of a request has room for it, and wastes less than sixteen
bytes on all requests but the empty one. -/
theorem le_bytes_of_ofSize? {size : Nat} {cls : SizeClass} (h : ofSize? size = some cls) :
    size ≤ cls.bytes ∧ cls.bytes < max size 1 + 16 := by
  simp only [ofSize?, Option.dite_none_right_eq_some, Option.some.injEq] at h
  obtain ⟨hsize, rfl⟩ := h
  simp only [bytes]
  omega

end SizeClass

/-- One value for each size class. -/
structure PerClass (α : Type) where
  values : Vector α 64
deriving Repr, Inhabited

namespace PerClass

variable {α : Type}

/-- The same value for each class. -/
def replicate (x : α) : PerClass α := ⟨Vector.replicate 64 x⟩

/-- The value for a class, and there always is one. -/
instance : GetElem (PerClass α) SizeClass α fun _ _ => True where
  getElem xs cls _ := xs.values[cls]

/-- Replaces the value for one class. -/
def set (xs : PerClass α) (cls : SizeClass) (x : α) : PerClass α := ⟨xs.values.set cls x⟩

/-- Changes the value for each class. -/
def map {β : Type} (f : α → β) (xs : PerClass α) : PerClass β := ⟨xs.values.map f⟩

/-- What belongs to a class is mapped on its own. -/
@[simp] theorem getElem_map {β : Type} (f : α → β) (xs : PerClass α) (cls : SizeClass) :
    (xs.map f)[cls] = f xs[cls] := by
  show (xs.values.map f)[cls] = f xs.values[cls]
  simp

/-- The values for all classes are all that there is. -/
theorem ext_getElem {xs ys : PerClass α} (h : ∀ cls : SizeClass, xs[cls] = ys[cls]) : xs = ys := by
  obtain ⟨xs⟩ := xs
  obtain ⟨ys⟩ := ys
  exact congrArg mk (Vector.ext fun i hi => h ⟨i, hi⟩)

/-- At first the same belongs to every class. -/
@[simp] theorem getElem_replicate (x : α) (cls : SizeClass) : (replicate x)[cls] = x := by
  show (Vector.replicate 64 x)[cls] = x
  simp

/-- Setting what belongs to a class leaves the others. -/
theorem getElem_set (xs : PerClass α) (cls other : SizeClass) (x : α) :
    (xs.set cls x)[other] = if cls = other then x else xs[other] := by
  show (xs.values.set cls x)[other] = if cls = other then x else xs.values[other]
  simp [Vector.getElem_set, Fin.ext_iff]

end PerClass

end ExtensionHost
