import ExtensionHost.Proofs.Storage.FreeLists
import Mathlib.Algebra.BigOperators.Group.Finset.Basic
import Mathlib.Algebra.GroupWithZero.Nat
import Mathlib.Data.Fintype.BigOperators

/-!
# `ExtensionHost.Proofs.Storage.Counters`: what one operation does to the counters

An allocator keeps five figures: how many small blocks are in use, how many
were ever cut, how many requests a free list has served, the bytes of large
blocks, and, in the layer of the arenas, the bytes that count besides the
arenas. They are written at different places, and this module says of each
operation what it does to all of them at once.

What is counted is read off the marks in front of the blocks:
`Process.smallCount` and `Process.largeBytes` of a list of blocks. A request
adds those of the block that it hands out (`Served.gains`), and a release
takes away those of the block that it ends (`Freed.loses`). The limit is a
matter of its own, because it is checked in two layers
(`Served.budgeted`).
-/

set_option autoImplicit false

namespace ExtensionHost

/-- A size that has a class is no more than the threshold. -/
theorem SizeClass.le_threshold_of_ofSize? {size : Nat} {cls : SizeClass}
    (h : ofSize? size = some cls) : size ≤ threshold := by
  by_contra hlarge
  rw [ofSize?_eq_none_iff.2 (by omega)] at h
  cases h

/-! ### What a list of blocks amounts to -/

namespace BlockKind

/-- The bytes by which a block counts against a limit besides the arenas. -/
def largeBytes : BlockKind → Nat
  | heap size => size
  | pool _ | freed _ | foreign => 0

/-- Whether a block is a small one in use. -/
def isSmall : BlockKind → Bool
  | pool _ => true
  | heap _ | freed _ | foreign => false

end BlockKind

namespace Process

variable {p p' : Process} {a : Address} {blocks blocks' : List Address}

/-- How many of the blocks are small ones in use. -/
def smallCount (p : Process) (blocks : List Address) : Nat :=
  blocks.countP fun a => (p.kind a).isSmall

/-- The usable bytes of the large ones among the blocks. -/
def largeBytes (p : Process) (blocks : List Address) : Nat :=
  (blocks.map fun a => (p.kind a).largeBytes).sum

/-- No blocks are no small blocks. -/
@[simp] theorem smallCount_nil (p : Process) : p.smallCount [] = 0 := rfl

/-- No blocks have no bytes in large blocks. -/
@[simp] theorem largeBytes_nil (p : Process) : p.largeBytes [] = 0 := rfl

/-- Small blocks are counted list by list. -/
theorem smallCount_append (p : Process) (blocks blocks' : List Address) :
    p.smallCount (blocks ++ blocks') = p.smallCount blocks + p.smallCount blocks' :=
  List.countP_append

/-- The bytes of large blocks are counted list by list. -/
theorem largeBytes_append (p : Process) (blocks blocks' : List Address) :
    p.largeBytes (blocks ++ blocks') = p.largeBytes blocks + p.largeBytes blocks' := by
  rw [largeBytes, List.map_append, List.sum_append]
  rfl

/-- Small blocks are counted by their marks. -/
theorem smallCount_congr (h : ∀ a ∈ blocks, p'.kind a = p.kind a) :
    p'.smallCount blocks = p.smallCount blocks :=
  List.countP_congr fun a ha => by rw [h a ha]

/-- The bytes of large blocks are counted by their marks. -/
theorem largeBytes_congr (h : ∀ a ∈ blocks, p'.kind a = p.kind a) :
    p'.largeBytes blocks = p.largeBytes blocks := by
  rw [largeBytes, List.map_congr_left fun a ha => by rw [h a ha]]
  rfl

/-- Small blocks are counted in any order. -/
theorem smallCount_perm (p : Process) (h : blocks.Perm blocks') :
    p.smallCount blocks = p.smallCount blocks' :=
  h.countP_eq _

/-- The bytes of large blocks are counted in any order. -/
theorem largeBytes_perm (p : Process) (h : blocks.Perm blocks') :
    p.largeBytes blocks = p.largeBytes blocks' :=
  (h.map _).sum_eq

/-- A block that is taken off the list is counted no more, if it is a small one. -/
theorem smallCount_erase (p : Process) (ha : a ∈ blocks) :
    p.smallCount blocks = p.smallCount [a] + p.smallCount (blocks.erase a) := by
  rw [p.smallCount_perm (List.perm_cons_erase ha), ← smallCount_append]
  rfl

/-- A block that is taken off the list has its bytes counted no more, if it is a large one. -/
theorem largeBytes_erase (p : Process) (ha : a ∈ blocks) :
    p.largeBytes blocks = p.largeBytes [a] + p.largeBytes (blocks.erase a) := by
  rw [p.largeBytes_perm (List.perm_cons_erase ha), ← largeBytes_append]
  rfl

/-- One block is counted if it is a small one. -/
theorem smallCount_singleton (p : Process) (a : Address) :
    p.smallCount [a] = if (p.kind a).isSmall then 1 else 0 := by
  simp only [smallCount, List.countP_singleton]

/-- One block has its bytes counted if it is a large one. -/
theorem largeBytes_singleton (p : Process) (a : Address) :
    p.largeBytes [a] = (p.kind a).largeBytes := by
  simp only [largeBytes, List.map_cons, List.map_nil, List.sum_cons, List.sum_nil, Nat.add_zero]

end Process

/-! ### The free lists -/

namespace Allocator

/-- How many freed blocks wait, whatever their class. -/
def waiting (allocator : Allocator) : Nat := ∑ cls : SizeClass, allocator.freeCount cls

/-- How many blocks wait depends on the lists. -/
theorem waiting_congr {allocator other : Allocator} (h : other.freeLists = allocator.freeLists) :
    other.waiting = allocator.waiting := by
  simp only [waiting, freeCount, h]

/-- Replacing one list changes the number of waiting blocks by what it
changes the length of that list. -/
theorem waiting_of_set {allocator other : Allocator} {cls : SizeClass} {list : List Address}
    (h : other.freeLists = allocator.freeLists.set cls list) :
    other.waiting + allocator.freeCount cls = allocator.waiting + list.length := by
  have hself : other.freeCount cls = list.length := by
    simp only [freeCount, h, PerClass.getElem_set, if_true]
  have hothers : ∑ c ∈ Finset.univ.erase cls, other.freeCount c
      = ∑ c ∈ Finset.univ.erase cls, allocator.freeCount c := by
    refine Finset.sum_congr rfl fun c hc => ?_
    have hne : cls ≠ c := fun heq => (Finset.mem_erase.1 hc).1 heq.symm
    simp only [freeCount, h, PerClass.getElem_set, if_neg hne]
  have hnew := Finset.add_sum_erase Finset.univ (fun c => other.freeCount c) (Finset.mem_univ cls)
  have hold := Finset.add_sum_erase Finset.univ (fun c => allocator.freeCount c)
    (Finset.mem_univ cls)
  simp only [waiting]
  omega

end Allocator

/-! ### What one operation does -/

namespace Storage

variable {s s' : Storage} {a : Address} {size : Nat} {made moved : Option Address}

/-- What the blocks that are handed out add to the counters. -/
structure Gains (s : Storage) (made : List Address) (s' : Storage) : Prop where
  settings : s'.allocator.settings = s.allocator.settings
  inUse : s'.allocator.inUse = s.allocator.inUse + s'.process.smallCount made
  /-- A small block is cut, or no longer waits. -/
  carved : s'.allocator.carved + s.allocator.waiting
    = s.allocator.carved + s'.allocator.waiting + s'.process.smallCount made
  /-- It is cut, or a list has served it. -/
  drawn : s'.allocator.carved + s'.allocator.hits
    = s.allocator.carved + s.allocator.hits + s'.process.smallCount made
  heapLive : s'.allocator.heapLive = s.allocator.heapLive + s'.process.largeBytes made

/-- What the block that is released takes away from the counters. -/
structure Loses (s : Storage) (a : Address) (s' : Storage) : Prop where
  settings : s'.allocator.settings = s.allocator.settings
  inUse : s'.allocator.inUse = s.allocator.inUse - s.process.smallCount [a]
  /-- A small block waits from now on. -/
  waiting : s'.allocator.waiting = s.allocator.waiting + s.process.smallCount [a]
  carved : s'.allocator.carved = s.allocator.carved
  hits : s'.allocator.hits = s.allocator.hits
  heapLive : s'.allocator.heapLive = s.allocator.heapLive - s.process.largeBytes [a]

/-- The block that is handed out is small if the request is, and has the
bytes that were asked for if it is not. -/
theorem Served.amounts (h : Served s size (some a) s') (hlisted : s.allocator.Listed s.process) :
    s'.process.smallCount [a] = (if size ≤ SizeClass.threshold then 1 else 0) ∧
      s'.process.largeBytes [a] = if size ≤ SizeClass.threshold then 0 else max size 1 := by
  have hkind := h.kind hlisted
  rw [Process.smallCount_singleton, Process.largeBytes_singleton]
  cases hcls : SizeClass.ofSize? size with
  | some cls =>
    have hsmall := SizeClass.le_threshold_of_ofSize? hcls
    simp only [hcls] at hkind
    simp only [hkind, BlockKind.isSmall, BlockKind.largeBytes, if_pos hsmall, if_true, and_self]
  | none =>
    have hlarge : ¬ size ≤ SizeClass.threshold :=
      Nat.not_le_of_lt (SizeClass.ofSize?_eq_none_iff.1 hcls)
    simp only [hcls] at hkind
    simp only [hkind, BlockKind.isSmall, BlockKind.largeBytes, if_neg hlarge, Bool.false_eq_true,
      if_false, and_self]

/-- A request that hands nothing out moves no counter. -/
theorem gains_nil (hsettings : s'.allocator.settings = s.allocator.settings)
    (hinUse : s'.allocator.inUse = s.allocator.inUse)
    (hcarved : s'.allocator.carved = s.allocator.carved)
    (hhits : s'.allocator.hits = s.allocator.hits)
    (hlists : s'.allocator.freeLists = s.allocator.freeLists)
    (hlive : s'.allocator.heapLive = s.allocator.heapLive) : s.Gains [] s' where
  settings := hsettings
  inUse := by rw [hinUse, Process.smallCount_nil, Nat.add_zero]
  carved := by rw [hcarved, Allocator.waiting_congr hlists, Process.smallCount_nil, Nat.add_zero]
  drawn := by rw [hcarved, hhits, Process.smallCount_nil, Nat.add_zero]
  heapLive := by rw [hlive, Process.largeBytes_nil, Nat.add_zero]

/-- A request adds the block that it hands out to the counters. -/
theorem Served.gains (h : Served s size made s') (hlisted : s.allocator.Listed s.process) :
    s.Gains made.toList s' := by
  cases made with
  | none =>
    cases h with
    | uncarved hcls hlist hcarve => exact gains_nil rfl rfl rfl rfl rfl rfl
    | refused hcls hsame => exact gains_nil rfl rfl rfl rfl rfl rfl
  | some a =>
    obtain ⟨hsmall, hlarge⟩ := h.amounts hlisted
    rw [Option.toList_some]
    -- the storage afterwards keeps a name, so that the counters are read off one by one
    obtain ⟨after, hs⟩ : ∃ after, after = s' := ⟨s', rfl⟩
    rw [← hs] at hsmall hlarge ⊢
    cases h with
    | @reused cls _ rest hcls hlist =>
      rw [if_pos (SizeClass.le_threshold_of_ofSize? hcls)] at hsmall hlarge
      -- the list of the class is one block shorter
      have hcount : s.allocator.freeCount cls = rest.length + 1 := by
        rw [Allocator.freeCount, hlist, List.length_cons]
      have hlists : after.allocator.freeLists = s.allocator.freeLists.set cls rest := by rw [hs]
      have hwaiting := Allocator.waiting_of_set hlists
      have hcarved : after.allocator.carved = s.allocator.carved := by rw [hs]
      have hhits : after.allocator.hits = s.allocator.hits + 1 := by rw [hs]
      have hinUse : after.allocator.inUse = s.allocator.inUse + 1 := by rw [hs]
      have hlive : after.allocator.heapLive = s.allocator.heapLive := by rw [hs]
      exact ⟨by rw [hs], by omega, by omega, by omega, by omega⟩
    | @carved cls region start arenas process hcls hlist hcarve =>
      rw [if_pos (SizeClass.le_threshold_of_ofSize? hcls)] at hsmall hlarge
      have hlists : after.allocator.freeLists = s.allocator.freeLists := by rw [hs]
      have hwaiting := Allocator.waiting_congr hlists
      have hcarved : after.allocator.carved = s.allocator.carved + 1 := by rw [hs]
      have hhits : after.allocator.hits = s.allocator.hits := by rw [hs]
      have hinUse : after.allocator.inUse = s.allocator.inUse + 1 := by rw [hs]
      have hlive : after.allocator.heapLive = s.allocator.heapLive := by rw [hs]
      exact ⟨by rw [hs], by omega, by omega, by omega, by omega⟩
    | large hcls hlimit =>
      have hsize := SizeClass.ofSize?_eq_none_iff.1 hcls
      rw [if_neg (Nat.not_le_of_lt hsize)] at hsmall hlarge
      have hlists : after.allocator.freeLists = s.allocator.freeLists := by rw [hs]; rfl
      have hwaiting := Allocator.waiting_congr hlists
      have hcarved : after.allocator.carved = s.allocator.carved := by rw [hs]; rfl
      have hhits : after.allocator.hits = s.allocator.hits := by rw [hs]; rfl
      have hinUse : after.allocator.inUse = s.allocator.inUse := by rw [hs]; rfl
      have hlive : after.allocator.heapLive = s.allocator.heapLive + max size 1 := by rw [hs]; rfl
      exact ⟨by rw [hs]; rfl, by omega, by omega, by omega, by omega⟩

/-- A release takes the block that it ends off the counters. -/
theorem Freed.loses (h : Freed s a s') : s.Loses a s' := by
  cases h with
  | @pool cls hkind =>
    have hsmall : s.process.smallCount [a] = 1 := by
      rw [Process.smallCount_singleton, hkind]
      rfl
    have hlarge : s.process.largeBytes [a] = 0 := by
      rw [Process.largeBytes_singleton, hkind]
      rfl
    have hwaiting := Allocator.waiting_of_set (Eq.refl (s.withFreed a cls).allocator.freeLists)
    refine ⟨rfl, by rw [hsmall]; rfl, ?_, rfl, rfl, by rw [hlarge]; rfl⟩
    rw [List.length_cons, ← Allocator.freeCount] at hwaiting
    omega
  | @heap size hkind =>
    have hsmall : s.process.smallCount [a] = 0 := by
      rw [Process.smallCount_singleton, hkind]
      rfl
    have hlarge : s.process.largeBytes [a] = size := by
      rw [Process.largeBytes_singleton, hkind]
      rfl
    refine ⟨rfl, by rw [hsmall]; rfl, ?_, rfl, rfl, by rw [hlarge]; rfl⟩
    rw [hsmall, Nat.add_zero]
    exact Allocator.waiting_congr rfl

end Storage

/-! ### The limit -/

/-- The sizes of arenas are added up list by list. -/
theorem Arena.totalSize_append (arenas others : List Arena) :
    totalSize (arenas ++ others) = totalSize arenas + totalSize others := by
  induction arenas with
  | nil => exact (Nat.zero_add _).symm
  | cons arena rest ih =>
    simp only [List.cons_append, totalSize, ih]
    omega

/-- Cutting a piece leaves the size of an arena. -/
theorem Arena.size_carve? {arena cut : Arena} {size offset : Nat}
    (h : arena.carve? size = some (offset, cut)) : cut.size = arena.size := by
  simp only [carve?, Option.bind_eq_bind, Option.bind_eq_some_iff] at h
  obtain ⟨aligned, -, stop, -, h⟩ := h
  split at h
  · cases h
  · cases h
    rfl

namespace ArenaPool

variable {pool pool' : ArenaPool} {p p' : Process} {size limit : Nat}

/-- The newest arena adds its size to the total. -/
theorem total_of_push {before : Array Arena} {arena : Arena} (h : pool.arenas = before.push arena) :
    pool.total = Arena.totalSize before.toList + arena.size := by
  rw [total, h, Array.toList_push, Arena.totalSize_append]
  rfl

/-- What the limit admits fits into it besides what is there. -/
theorem le_of_admits (h : pool.admits size) (hlimit : pool.limit = some limit) :
    pool.total + pool.reserved + size ≤ limit := by
  unfold admits at h
  rw [hlimit] at h
  cases hsum : (Size.add? pool.total pool.reserved).bind (Size.add? · size) with
  | none => simp [hsum] at h
  | some sum =>
    obtain ⟨held, hheld, hsum'⟩ := Option.bind_eq_some_iff.1 hsum
    obtain ⟨-, rfl⟩ := Size.add?_eq_some.1 hheld
    obtain ⟨-, rfl⟩ := Size.add?_eq_some.1 hsum'
    simpa [hsum] using h

/-- What the arenas count besides themselves is for others to say, and the
limit is for nobody to change. -/
theorem grow_kept {grown : Bool} (h : pool.grow p size = (grown, pool', p')) :
    pool'.limit = pool.limit ∧ pool'.reserved = pool.reserved := by
  rcases grow_cases h with ⟨-, rfl, -⟩ | ⟨-, _, -, -, rfl, -, -⟩ <;> exact ⟨rfl, rfl⟩

/-- A pool that grows stays within its limit. -/
theorem grow_le {grown : Bool} (h : pool.grow p size = (grown, pool', p'))
    (hlimit : pool.limit = some limit) (hle : pool.total + pool.reserved ≤ limit) :
    pool'.total + pool'.reserved ≤ limit := by
  rcases grow_cases h with ⟨-, rfl, -⟩ | ⟨-, acquired, -, hadmits, rfl, -, -⟩
  · exact hle
  · have hadmitted := le_of_admits hadmits hlimit
    rw [total_of_push rfl]
    simp only [total] at hadmitted
    simp only
    omega

/-- Cutting a piece leaves what a pool holds. -/
theorem carveNewest?_kept {place : Nat × Nat} (h : pool.carveNewest? size = some (place, pool')) :
    pool'.limit = pool.limit ∧ pool'.reserved = pool.reserved ∧ pool'.total = pool.total := by
  obtain ⟨before, arena, cut, hbefore, hcut, -, rfl⟩ := carveNewest?_cases h
  refine ⟨rfl, rfl, ?_⟩
  rw [total_of_push hbefore, total_of_push rfl, Arena.size_carve? hcut]

/-- Cutting a piece keeps the limit and what is reserved. -/
theorem carve_kept {place : Option (Nat × Nat)} (h : pool.carve p size = (place, pool', p')) :
    pool'.limit = pool.limit ∧ pool'.reserved = pool.reserved := by
  rcases carve_cases h with ⟨_, -, hcut, -⟩ | ⟨larger, _, hgrow, -, hcut⟩ | ⟨-, rfl, -⟩
  · obtain ⟨hlimit, hreserved, -⟩ := carveNewest?_kept hcut
    exact ⟨hlimit, hreserved⟩
  · obtain ⟨hlimit, hreserved, -⟩ := carveNewest?_kept hcut
    obtain ⟨hlimit', hreserved'⟩ := grow_kept hgrow
    exact ⟨hlimit.trans hlimit', hreserved.trans hreserved'⟩
  · exact ⟨rfl, rfl⟩

/-- A pool that a piece is cut from stays within its limit. -/
theorem carve_le {place : Option (Nat × Nat)} (h : pool.carve p size = (place, pool', p'))
    (hlimit : pool.limit = some limit) (hle : pool.total + pool.reserved ≤ limit) :
    pool'.total + pool'.reserved ≤ limit := by
  rcases carve_cases h with ⟨_, -, hcut, -⟩ | ⟨larger, _, hgrow, -, hcut⟩ | ⟨-, rfl, -⟩
  · obtain ⟨-, hreserved, htotal⟩ := carveNewest?_kept hcut
    rw [hreserved, htotal]
    exact hle
  · obtain ⟨-, hreserved, htotal⟩ := carveNewest?_kept hcut
    rw [hreserved, htotal]
    exact grow_le hgrow hlimit hle
  · exact hle

end ArenaPool

/-- An allocator within its limit: the layer of the arenas knows the limit
and the bytes of the large blocks, and both layers together hold no more
than the limit. -/
structure Allocator.Budgeted (allocator : Allocator) : Prop where
  reserved : allocator.arenas.reserved = allocator.heapLive
  limit : allocator.arenas.limit = allocator.settings.memoryLimit
  total : ∀ limit, allocator.settings.memoryLimit = some limit →
    allocator.arenas.total + allocator.heapLive ≤ limit

namespace Allocator

variable {allocator : Allocator} {size limit : Nat}

/-- A new allocator is within its limit. -/
theorem budgeted_new (settings : AllocatorSettings) : (new settings).Budgeted :=
  ⟨rfl, rfl, fun limit _ => Nat.zero_le limit⟩

/-- What is admitted fits the limit together with what there is. -/
theorem le_of_withinLimit (h : allocator.withinLimit size)
    (hlimit : allocator.settings.memoryLimit = some limit) :
    allocator.arenas.total + allocator.heapLive + size ≤ limit := by
  unfold withinLimit at h
  rw [hlimit] at h
  cases hsum : (Size.add? allocator.arenas.total allocator.heapLive).bind (Size.add? · size) with
  | none => simp [hsum] at h
  | some sum =>
    obtain ⟨held, hheld, hsum'⟩ := Option.bind_eq_some_iff.1 hsum
    obtain ⟨-, rfl⟩ := Size.add?_eq_some.1 hheld
    obtain ⟨-, rfl⟩ := Size.add?_eq_some.1 hsum'
    simpa [hsum] using h

/-- The bytes of large blocks may change to what the limit has room for. -/
theorem Budgeted.setHeapLive {bytes : Nat} (h : allocator.Budgeted)
    (hbytes : ∀ limit, allocator.settings.memoryLimit = some limit →
      allocator.arenas.total + allocator.heapLive ≤ limit →
      allocator.arenas.total + bytes ≤ limit) : (allocator.setHeapLive bytes).Budgeted where
  reserved := rfl
  limit := h.limit
  total limit hlimit := hbytes limit hlimit (h.total limit hlimit)

/-- The arenas may change to others within the limit. -/
theorem Budgeted.carve {place : Option (Nat × Nat)} {arenas : ArenaPool} {p p' : Process}
    {other : Allocator} (h : allocator.Budgeted)
    (hcarve : allocator.arenas.carve p size = (place, arenas, p')) (harenas : other.arenas = arenas)
    (hlive : other.heapLive = allocator.heapLive)
    (hsettings : other.settings = allocator.settings) :
    other.Budgeted := by
  obtain ⟨hlimit, hreserved⟩ := ArenaPool.carve_kept hcarve
  refine ⟨?_, ?_, fun limit hsome => ?_⟩
  · rw [harenas, hreserved, h.reserved, hlive]
  · rw [harenas, hlimit, h.limit, hsettings]
  · rw [hsettings] at hsome
    have hle := ArenaPool.carve_le hcarve (h.limit.trans hsome)
      (by rw [h.reserved]; exact h.total limit hsome)
    rwa [hreserved, h.reserved, ← hlive, ← harenas] at hle

end Allocator

namespace Storage

variable {s s' : Storage} {a : Address} {size : Nat} {made : Option Address}

/-- A request keeps an allocator within its limit. -/
theorem Served.budgeted (h : Served s size made s') (hbudget : s.allocator.Budgeted) :
    s'.allocator.Budgeted := by
  cases h with
  | reused hcls hlist => exact ⟨hbudget.reserved, hbudget.limit, hbudget.total⟩
  | carved hcls hlist hcarve => exact hbudget.carve hcarve rfl rfl rfl
  | uncarved hcls hlist hcarve => exact hbudget.carve hcarve rfl rfl rfl
  | large hcls hlimit =>
    have hsize := SizeClass.ofSize?_eq_none_iff.1 hcls
    refine hbudget.setHeapLive fun limit hsome _ => ?_
    have hle := Allocator.le_of_withinLimit hlimit hsome
    omega
  | refused hcls hsame => exact hbudget

/-- A release keeps an allocator within its limit. -/
theorem Freed.budgeted (h : Freed s a s') (hbudget : s.allocator.Budgeted) :
    s'.allocator.Budgeted := by
  cases h with
  | pool hkind => exact ⟨hbudget.reserved, hbudget.limit, hbudget.total⟩
  | heap hkind => exact hbudget.setHeapLive fun limit hsome hle => by omega

end Storage

end ExtensionHost
