import ExtensionHost.Proofs.Storage.Counters

/-!
# `ExtensionHost.Proofs.Storage.Growth`: how a pool of arenas grows

Three computations of a pool are not checked: the default size is doubled, the sizes of
the arenas are summed up, and what is cut from an arena is taken off its size. They stay
within a word for reasons that lie elsewhere. The default size is doubled only after an
arena of at least that size was acquired, and no region is larger than a signed word
counts; the sum is taken only under a limit, and what is acquired keeps it; the cursor
of an arena never passes its end.

Settings are taken as they are, sensible or not: nothing, no multiple of sixteen, a
maximum below the size of the first arena. What a pool does with one request is said by
cases (`Carved`), with each way of being refused in arithmetic (`Refusal`); what all
requests together do is an invariant over them (`Growing`).
-/

set_option autoImplicit false

namespace ExtensionHost

/-- No region is asked for, or none is given. -/
theorem Process.acquireArena_eq_none_iff {p : Process} {size : Nat} (hsize : size ≠ 0) :
    (p.acquireArena size).1 = none ↔
      Size.addressable < size + 15 ∨ p.system.serves p.requests size = false := by
  have hbound : Size.addressable - (Size.alignment - 1) < size ↔ Size.addressable < size + 15 := by
    rw [Size.alignment, Size.addressable]
    omega
  rw [acquireArena, request, ← hbound]
  by_cases hlarge : Size.addressable - (Size.alignment - 1) < size
  · simp [hlarge]
  · cases hserves : p.system.serves p.requests size <;> simp [hlarge, hsize]

/-- Some of the arenas have no more bytes than all. -/
theorem Arena.totalSize_le_of_prefix {part arenas : List Arena} (h : part <+: arenas) :
    totalSize part ≤ totalSize arenas := by
  obtain ⟨rest, rfl⟩ := h
  rw [totalSize_append]
  exact Nat.le_add_right _ _

namespace ArenaPool

variable {pool pool' : ArenaPool} {p p' : Process} {size : Nat}

/-! ### One request -/

/-- A size brought up to a multiple of sixteen. -/
def rounded (size : Nat) : Nat := (size + 15) / 16 * 16

/-- The size of the arena that is acquired if there is no room for `size` bytes. -/
def nextSize (pool : ArenaPool) (size : Nat) : Nat := max pool.currentSize (rounded size)

/-- Why no arena is to be had when there is no room for `size` bytes. -/
inductive Refusal (pool : ArenaPool) (p : Process) (size : Nat) : Prop
  /-- The size cannot be brought up to a multiple of sixteen. -/
  | rounding (h : Size.greatest < size + 15)
  /-- Besides what there is and what is reserved, the arena would pass the limit. -/
  | limit {limit : Nat} (hlimit : pool.limit = some limit)
      (h : limit < pool.total + pool.reserved + pool.nextSize size)
  /-- No region can be so large. -/
  | unaddressable (h : Size.addressable < pool.nextSize size + 15)
  /-- The system has no such region to give. -/
  | unserved (h : p.system.serves p.requests (pool.nextSize size) = false)

/-- The ways in which a pool answers a request for `size` bytes, with the pool
afterwards. -/
inductive Carved (pool : ArenaPool) (p : Process) (size : Nat) :
    Option (Nat × Nat) → ArenaPool → Prop
  /-- The newest arena has room. -/
  | cut {before : Array Arena} {arena : Arena} (hcut : pool.carveNewest? size ≠ none)
      (harenas : pool.arenas = before.push arena) (hroom : arena.used + rounded size ≤ arena.size) :
      Carved pool p size (some (arena.region, arena.used))
        { pool with arenas := before.push { arena with used := arena.used + rounded size } }
  /-- A new arena is acquired, and the piece is the first that is cut from it. -/
  | grown (hfull : pool.carveNewest? size = none) (hallowed : ¬pool.Refusal p size) :
      Carved pool p size (some (p.requests, 0))
        { pool with
          arenas := pool.arenas.push
            { region := p.requests, size := pool.nextSize size, used := rounded size }
          currentSize := min (pool.currentSize * 2) pool.maxSize }
  /-- There is no room and no arena to be had. -/
  | refused (hfull : pool.carveNewest? size = none) (hrefusal : pool.Refusal p size) :
      Carved pool p size none pool

/-- A size that is rounded up does not vanish. -/
theorem rounded_ne_zero (hsize : size ≠ 0) : rounded size ≠ 0 := by
  rw [rounded]
  omega

/-- A size can be rounded up unless the sum is too large for a machine word. -/
theorem align?_eq_some_iff {aligned : Nat} :
    Size.align? size = some aligned ↔ ¬Size.greatest < size + 15 ∧ rounded size = aligned := by
  rw [Size.align?_eq_some, Nat.not_lt]
  rfl

/-- Under a limit that is a size, what is refused is what does not fit. -/
theorem admits_eq_true_iff (hlimit : ∀ limit, pool.limit = some limit → limit ≤ Size.greatest) :
    pool.admits size = true ↔
      ∀ limit, pool.limit = some limit → pool.total + pool.reserved + size ≤ limit := by
  refine ⟨fun h limit hsome => le_of_admits h hsome, fun h => ?_⟩
  rw [admits]
  cases hsome : pool.limit with
  | none => rfl
  | some limit =>
    have hfits := h limit hsome
    have hword := hlimit limit hsome
    have hheld : Size.add? pool.total pool.reserved = some (pool.total + pool.reserved) :=
      Size.add?_eq_some.2 ⟨by omega, rfl⟩
    have hall : Size.add? (pool.total + pool.reserved) size =
        some (pool.total + pool.reserved + size) := Size.add?_eq_some.2 ⟨by omega, rfl⟩
    simp [hheld, hall, hfits]

/-- The next size is never zero. -/
theorem nextSize_ne_zero (hsize : size ≠ 0) : pool.nextSize size ≠ 0 := by
  have hrounded := rounded_ne_zero hsize
  rw [nextSize]
  omega

/-- The reasons are those for which the pool acquires nothing. -/
theorem refusal_iff (hsize : size ≠ 0)
    (hlimit : ∀ limit, pool.limit = some limit → limit ≤ Size.greatest) :
    pool.Refusal p size ↔
      ∀ aligned, Size.align? size = some aligned →
        pool.admits (max pool.currentSize aligned) = true →
        (p.acquireArena (max pool.currentSize aligned)).1 = none := by
  have hnext : pool.nextSize size ≠ 0 := nextSize_ne_zero hsize
  constructor
  · intro hrefusal aligned haligned hadmits
    obtain ⟨hround, rfl⟩ := align?_eq_some_iff.1 haligned
    cases hrefusal with
    | rounding h => exact absurd h hround
    | limit hsome h =>
      exact absurd ((admits_eq_true_iff hlimit).1 hadmits _ hsome) (Nat.not_le.2 h)
    | unaddressable h => exact (Process.acquireArena_eq_none_iff hnext).2 (.inl h)
    | unserved h => exact (Process.acquireArena_eq_none_iff hnext).2 (.inr h)
  · intro h
    -- the reasons exclude each other in the order in which they are looked for
    by_cases hround : Size.greatest < size + 15
    · exact .rounding hround
    have haligned := align?_eq_some_iff.2 ⟨hround, Eq.refl (rounded size)⟩
    by_cases hfits : ∀ limit, pool.limit = some limit →
        pool.total + pool.reserved + pool.nextSize size ≤ limit
    · have hnone := h _ haligned ((admits_eq_true_iff hlimit).2 hfits)
      rcases (Process.acquireArena_eq_none_iff hnext).1 hnone with hlarge | hserves
      · exact .unaddressable hlarge
      · exact .unserved hserves
    · obtain ⟨limit, hover⟩ := Classical.not_forall.1 hfits
      obtain ⟨hsome, hover⟩ := Classical.not_imp.1 hover
      exact .limit hsome (Nat.not_le.1 hover)

/-- What is acquired leaves the default size small enough to be doubled. -/
theorem double_le (h : ¬pool.Refusal p size) : pool.currentSize * 2 ≤ Size.greatest := by
  have haddressable : ¬Size.addressable < pool.nextSize size + 15 := fun hlarge =>
    h (.unaddressable hlarge)
  rw [nextSize, Size.addressable] at haddressable
  rw [Size.greatest]
  omega

/-- A piece of the newest arena starts where the cursor was, which is moved behind it. -/
theorem carveNewest?_some {place : Nat × Nat}
    (h : pool.carveNewest? size = some (place, pool')) :
    ∃ (before : Array Arena) (arena : Arena), pool.arenas = before.push arena ∧
      arena.used + rounded size ≤ arena.size ∧ place = (arena.region, arena.used) ∧
      pool' = { pool with
        arenas := before.push { arena with used := arena.used + rounded size } } := by
  obtain ⟨before, arena, cut, harenas, hcut, hregion, rfl⟩ := carveNewest?_cases h
  simp only [Arena.carve?, Option.bind_eq_bind, Option.bind_eq_some_iff] at hcut
  obtain ⟨aligned, haligned, stop, hstop, hcut⟩ := hcut
  obtain ⟨-, rfl⟩ := align?_eq_some_iff.1 haligned
  obtain ⟨-, rfl⟩ := Size.add?_eq_some.1 hstop
  split at hcut
  · cases hcut
  · next hroom =>
    obtain ⟨hoffset, rfl⟩ := Prod.ext_iff.1 (Option.some.inj hcut)
    exact ⟨before, arena, harenas, Nat.not_lt.1 hroom, Prod.ext hregion hoffset.symm, rfl⟩

/-- A pool answers a request in one of three ways, and it touches no block. -/
theorem carved_carve {place : Option (Nat × Nat)} (hsize : size ≠ 0)
    (hlimit : ∀ limit, pool.limit = some limit → limit ≤ Size.greatest)
    (h : pool.carve p size = (place, pool', p')) :
    Carved pool p size place pool' ∧ p.SameBut p' := by
  refine ⟨?_, sameBut_carve h⟩
  rcases carve_exactly h with ⟨found, rfl, hcut, -⟩ |
    ⟨hfull, larger, found, hgrow, rfl, hcut⟩ | ⟨hfull, rfl, hgrow⟩
  · have hsome : pool.carveNewest? size ≠ none := fun hnone => by
      rw [hnone] at hcut
      cases hcut
    obtain ⟨before, arena, harenas, hroom, rfl, rfl⟩ := carveNewest?_some hcut
    exact .cut hsome harenas hroom
  · rcases grow_exactly hgrow with ⟨hfalse, -⟩ |
      ⟨-, aligned, haligned, hadmits, hsome, -, rfl, -, -⟩
    · cases hfalse
    have hallowed : ¬pool.Refusal p size := fun hrefusal =>
      hsome ((refusal_iff hsize hlimit).1 hrefusal aligned haligned hadmits)
    obtain ⟨-, rfl⟩ := align?_eq_some_iff.1 haligned
    -- the arena that the piece is cut from is the new one
    obtain ⟨before, arena, harenas, -, rfl, rfl⟩ := carveNewest?_some hcut
    obtain ⟨rfl, rfl⟩ := Array.push_eq_push.1 harenas
    rw [Nat.zero_add]
    exact .grown hfull hallowed
  · rcases grow_exactly hgrow with ⟨-, rfl, -, hnone⟩ | ⟨htrue, -⟩
    · exact .refused hfull ((refusal_iff hsize hlimit).2 hnone)
    · cases htrue

/-! ### All requests -/

/-- The pools that come of one that was set up: pieces are cut from it, on whatever
process there is by then, and whatever is kept elsewhere is counted against its limit. -/
inductive Reached (initial maxSize : Nat) (limit : Option Nat) : ArenaPool → Prop
  | new : Reached initial maxSize limit (new initial maxSize limit)
  | carve {pool pool' : ArenaPool} {p p' : Process} {size : Nat} {place : Option (Nat × Nat)}
      (hsize : size ≠ 0) (hpool : Reached initial maxSize limit pool)
      (h : pool.carve p size = (place, pool', p')) : Reached initial maxSize limit pool'
  | reserve {pool : ArenaPool} (bytes : Nat) (hpool : Reached initial maxSize limit pool) :
      Reached initial maxSize limit { pool with reserved := bytes }

/-- What holds of a pool at all times. -/
structure Growing (initial maxSize : Nat) (limit : Option Nat) (pool : ArenaPool) : Prop where
  kept : pool.maxSize = max maxSize initial ∧ pool.limit = limit
  /-- The default size has been doubled for each arena, up to the maximum. -/
  current : pool.currentSize = min (initial * 2 ^ pool.arenas.size) (max initial maxSize)
  /-- No cursor has passed the end of its arena. -/
  cursor : ∀ arena ∈ pool.arenas.toList, arena.used ≤ arena.size
  within : ∀ bound, limit = some bound → pool.total ≤ bound

section Growing

variable {initial maxSize : Nat} {limit : Option Nat}

/-- A new pool grows by the rule. -/
theorem growing_new : Growing initial maxSize limit (new initial maxSize limit) where
  kept := ⟨rfl, rfl⟩
  current := by simp [new]
  cursor _ h := by cases h
  within bound _ := Nat.zero_le bound

/-- Whatever a pool answers, it goes on as before. -/
theorem Growing.carved {place : Option (Nat × Nat)} (hpool : Growing initial maxSize limit pool)
    (h : Carved pool p size place pool') : Growing initial maxSize limit pool' := by
  cases h with
  | refused => exact hpool
  | @cut before arena _ harenas hroom =>
    refine ⟨hpool.kept, ?_, fun other hother => ?_, fun bound hbound => ?_⟩
    · rw [hpool.current, harenas, Array.size_push, Array.size_push]
    · rw [Array.toList_push] at hother
      rcases List.mem_append.1 hother with hold | hnew
      · exact hpool.cursor other (by rw [harenas]; simp [hold])
      · obtain rfl := List.mem_singleton.1 hnew
        exact hroom
    · have hle := hpool.within bound hbound
      rw [total_of_push harenas] at hle
      rw [total_of_push rfl]
      exact hle
  | grown hfull hallowed =>
    refine ⟨hpool.kept, ?_, fun other hother => ?_, fun bound hbound => ?_⟩
    · have hcurrent := hpool.current
      change min (pool.currentSize * 2) pool.maxSize = _
      rw [hpool.kept.1, Array.size_push, Nat.pow_succ, ← Nat.mul_assoc]
      omega
    · rw [Array.toList_push] at hother
      rcases List.mem_append.1 hother with hold | hnew
      · exact hpool.cursor other hold
      · obtain rfl := List.mem_singleton.1 hnew
        exact Nat.le_max_right _ _
    -- the limit was looked at before the arena was acquired
    · have hadmitted : pool.total + pool.reserved + pool.nextSize size ≤ bound :=
        Nat.not_lt.1 fun hover => hallowed (.limit (hpool.kept.2.trans hbound) hover)
      rw [total_of_push rfl]
      change Arena.totalSize pool.arenas.toList + pool.nextSize size ≤ bound
      rw [total] at hadmitted
      omega

/-- A pool that comes about grows by the rule. -/
theorem growing_of_reached (hlimit : ∀ bound, limit = some bound → bound ≤ Size.greatest)
    (h : Reached initial maxSize limit pool) : Growing initial maxSize limit pool := by
  induction h with
  | new => exact growing_new
  | carve hsize _ hcarve ih =>
    have hword : ∀ bound, _ = some bound → bound ≤ Size.greatest := fun bound hsome =>
      hlimit bound (ih.kept.2.symm.trans hsome)
    exact ih.carved (carved_carve hsize hword hcarve).1
  | reserve bytes _ ih => exact ⟨ih.kept, ih.current, ih.cursor, ih.within⟩

/-- Whatever the settings, the default size after as many arenas as there are is the
first size doubled that often, up to the maximum; no cursor is past the end of its arena;
and under a limit the sizes are summed up within it, however far the sum has come. A
request that is refused is refused for one of the reasons and changes nothing. One that
makes the pool acquire an arena gets the first piece of it, the arena has the default
size or the rounded size of the request, whichever is more, and the default size that is
then doubled is at most half of what a word can hold. -/
theorem growth_of_reached (hlimit : ∀ bound, limit = some bound → bound ≤ Size.greatest)
    (hpool : Reached initial maxSize limit pool) :
    pool.currentSize = min (initial * 2 ^ pool.arenas.size) (max initial maxSize) ∧
    (∀ arena ∈ pool.arenas.toList, arena.used ≤ arena.size) ∧
    (∀ bound, limit = some bound → ∀ part, part <+: pool.arenas.toList →
      Arena.totalSize part ≤ bound) ∧
    ∀ p size place pool' p', size ≠ 0 → pool.carve p size = (place, pool', p') →
      (place = none ↔ pool.carveNewest? size = none ∧ pool.Refusal p size) ∧
      (place = none → pool' = pool ∧ p.SameBut p') ∧
      (pool'.arenas.size ≠ pool.arenas.size →
        place = some (p.requests, 0) ∧
        pool'.arenas = pool.arenas.push
          { region := p.requests, size := pool.nextSize size, used := rounded size } ∧
        pool.currentSize * 2 ≤ Size.greatest) := by
  have hgrowing := growing_of_reached hlimit hpool
  have hword : ∀ bound, pool.limit = some bound → bound ≤ Size.greatest := fun bound hsome =>
    hlimit bound (hgrowing.kept.2.symm.trans hsome)
  refine ⟨hgrowing.current, hgrowing.cursor, fun bound hbound part hpart => ?_,
    fun p size place pool' p' hsize hcarve => ?_⟩
  · exact Nat.le_trans (Arena.totalSize_le_of_prefix hpart) (hgrowing.within bound hbound)
  obtain ⟨hcarved, hsame⟩ := carved_carve hsize hword hcarve
  cases hcarved with
  | cut hcut harenas hroom =>
    refine ⟨⟨fun h => (by cases h), fun h => absurd h.1 hcut⟩, fun h => (by cases h), fun h => ?_⟩
    refine absurd ?_ h
    rw [harenas, Array.size_push, Array.size_push]
  | grown hfull hallowed =>
    exact ⟨⟨fun h => (by cases h), fun h => absurd h.2 hallowed⟩, fun h => (by cases h),
      fun _ => ⟨rfl, rfl, double_le hallowed⟩⟩
  | refused hfull hrefusal =>
    exact ⟨⟨fun _ => ⟨hfull, hrefusal⟩, fun _ => rfl⟩, fun _ => ⟨rfl, hsame⟩,
      fun h => absurd rfl h⟩

/-- An arena of 64 bytes is full. The second has the doubled size of the first, and a
third would pass the limit. -/
theorem growth_of_reached_limited :
    ∃ pool p, Reached 40 100 (some 200) pool ∧ pool.arenas = #[⟨0, 64, 64⟩] ∧
      pool.currentSize = min (40 * 2 ^ 1) (max 40 100) ∧ pool.currentSize * 2 ≤ Size.greatest ∧
      (pool.carve p 20).1 = some (p.requests, 0) ∧ pool.Refusal p 130 := by
  have hlimit : ∀ bound, some 200 = some bound → bound ≤ Size.greatest := by
    rintro _ ⟨⟩
    decide
  have hpool : Reached 40 100 (some 200)
      { arenas := #[⟨0, 64, 64⟩], currentSize := 80, maxSize := 100, limit := some 200 } :=
    @Reached.carve 40 100 (some 200) _ _ { system := .bounded 1000 } _ 50 _ (by decide) .new rfl
  obtain ⟨hcurrent, -, -, hcarve⟩ := growth_of_reached hlimit hpool
  have hgrown := hcarve { system := .bounded 1000 } 20 _ _ _ (by decide) rfl
  have hrefused := hcarve { system := .bounded 1000 } 130 _ _ _ (by decide) rfl
  obtain ⟨hplace, -, hdouble⟩ := hgrown.2.2 (by decide)
  exact ⟨_, { system := .bounded 1000 }, hpool, rfl, hcurrent, hdouble, hplace,
    (hrefused.1.1 rfl).2⟩

end Growing

end ArenaPool

end ExtensionHost
