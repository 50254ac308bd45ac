import ExtensionHost.Proofs.Storage.Blocks

/-!
# `ExtensionHost.Proofs.Storage.Requests`: all that a request to an allocator can do

An allocator answers a request in one of five ways (`Storage.Served`): with
a block from a free list, with a block cut from an arena, with a large
block, or not at all, because no arena has room or because no region is to
be had. Releasing a block and resizing one have their cases too. Each
operation is opened once, here; what holds of all requests is then proved
by cases on these relations.

Moving a block is a request, a copy and a release, one after the other, so
what those three keep is kept by `Storage.move` as well (`move_none`, `move_some`).
-/

set_option autoImplicit false

namespace ExtensionHost

/-! ### Arenas -/

namespace ArenaPool

variable {pool pool' : ArenaPool} {p p' : Process}

/-- A pool grows by the arena that it asks for, which has the default size or room for
what is needed, whichever is more. If it does not grow it stays as it was, and then
what is needed cannot be rounded up, or the limit or the system refuses the arena. -/
theorem grow_exactly {least : Nat} {grown : Bool} (h : pool.grow p least = (grown, pool', p')) :
    (grown = false ∧ pool' = pool ∧ p.SameBut p' ∧
        ∀ aligned, Size.align? least = some aligned →
          pool.admits (max pool.currentSize aligned) = true →
          (p.acquireArena (max pool.currentSize aligned)).1 = none) ∨
      (grown = true ∧ ∃ aligned, Size.align? least = some aligned ∧
        pool.admits (max pool.currentSize aligned) = true ∧
        (p.acquireArena (max pool.currentSize aligned)).1 ≠ none ∧
        max pool.currentSize aligned ≠ 0 ∧
        pool' = { pool with
          arenas := pool.arenas.push { region := p.requests, size := max pool.currentSize aligned }
          currentSize := min (pool.currentSize * 2) pool.maxSize } ∧
        p.SameBut p' ∧ p'.requests = p.requests + 1) := by
  unfold grow at h
  cases halign : Size.align? least with
  | none =>
    simp only [halign] at h
    cases h
    exact .inl ⟨rfl, rfl, .refl _, fun _ h => by cases h⟩
  | some aligned =>
    simp only [halign] at h
    cases hadmits : pool.admits (max pool.currentSize aligned) with
    | false =>
      simp only [hadmits, Bool.false_eq_true, if_false] at h
      cases h
      refine .inl ⟨rfl, rfl, .refl _, fun _ h hadmitted => ?_⟩
      cases h
      rw [hadmits] at hadmitted
      cases hadmitted
    | true =>
      simp only [hadmits, if_true] at h
      cases hacquire : p.acquireArena (max pool.currentSize aligned) with
      | mk found process =>
        rcases Process.acquireArena_cases hacquire with ⟨rfl, hsame⟩ | ⟨hsize, rfl, rfl⟩
        · simp only [hacquire] at h
          cases h
          -- the system refused the arena, which is reported if anybody listens
          refine .inl ⟨rfl, rfl, ?_, fun _ h _ => ?_⟩
          · split
            · exact hsame.report _
            · exact hsame
          · cases h
            rw [hacquire]
        · simp only [hacquire] at h
          cases h
          have hsame : p.SameBut { p with requests := p.requests + 1 } :=
            ⟨_, p.events, Nat.le_succ _, rfl⟩
          refine .inr ⟨rfl, aligned, rfl, hadmits, ?_, hsize, rfl, ?_, ?_⟩
          · rw [hacquire]
            exact Option.some_ne_none _
          · split
            · exact (hsame.report _).report _
            · exact hsame.report _
          · split <;> rfl

/-- A pool that grows has one arena more, which the limit admits, which is
the answer to the next request and which is large enough; one that does not
grow stays as it was. -/
theorem grow_cases {least : Nat} {grown : Bool} (h : pool.grow p least = (grown, pool', p')) :
    (grown = false ∧ pool' = pool ∧ p.SameBut p') ∨
      (grown = true ∧ ∃ size, size ≠ 0 ∧ pool.admits size ∧
        pool' = { pool with
          arenas := pool.arenas.push { region := p.requests, size }
          currentSize := min (pool.currentSize * 2) pool.maxSize } ∧
        p.SameBut p' ∧ p'.requests = p.requests + 1 ∧
        ∃ aligned, Size.align? least = some aligned ∧ aligned ≤ size) := by
  rcases grow_exactly h with ⟨hgrown, hpool, hsame, -⟩ |
    ⟨hgrown, aligned, haligned, hadmits, -, hsize, hpool, hsame, hrequests⟩
  · exact .inl ⟨hgrown, hpool, hsame⟩
  · exact .inr ⟨hgrown, _, hsize, hadmits, hpool, hsame, hrequests, aligned, haligned,
      Nat.le_max_right _ _⟩

/-- A piece is cut from the newest arena: nothing else of the pool
changes. -/
theorem carveNewest?_cases {size : Nat} {place : Nat × Nat}
    (h : pool.carveNewest? size = some (place, pool')) :
    ∃ (before : Array Arena) (arena cut : Arena), pool.arenas = before.push arena ∧
      arena.carve? size = some (place.2, cut) ∧ place.1 = arena.region ∧
      pool' = { pool with arenas := before.push cut } := by
  simp only [carveNewest?, Option.bind_eq_bind, Option.bind_eq_some_iff, Option.some.injEq,
    Prod.mk.injEq, Prod.exists] at h
  obtain ⟨arena, harena, offset, cut, hcut, hplace, hpool⟩ := h
  obtain ⟨before, hbefore⟩ := Array.back?_eq_some_iff.1 harena
  obtain ⟨hregion, hoffset⟩ := Prod.ext_iff.1 hplace
  have hset : pool.arenas.set! (pool.arenas.size - 1) cut = before.push cut := by
    rw [hbefore]
    apply Array.ext'
    simp
  exact ⟨before, arena, cut, hbefore, by rw [hcut, ← hoffset], hregion.symm, by rw [← hset, hpool]⟩

/-- An arena that nothing was cut from has room for a piece that is not larger
than it is. -/
theorem carveNewest?_fresh {before : Array Arena} {arena : Arena} {size aligned : Nat}
    (harenas : pool.arenas = before.push arena) (hused : arena.used = 0)
    (haligned : Size.align? size = some aligned) (hroom : aligned ≤ arena.size) :
    pool.carveNewest? size ≠ none := by
  have hsum : Size.add? 0 aligned = some aligned := by
    obtain ⟨hsize, rfl⟩ := Size.align?_eq_some.1 haligned
    exact Size.add?_eq_some.2 ⟨by omega, Nat.zero_add _⟩
  have hcut : arena.carve? size = some (0, { arena with used := aligned }) := by
    simp only [Arena.carve?, haligned, hused, Option.bind_eq_bind, Option.bind_some, hsum,
      if_neg (Nat.not_lt_of_le hroom)]
  simp [carveNewest?, harenas, hcut]

/-- A piece comes from the newest arena of the pool. If that has no room the pool
grows, and then the piece comes from the new arena, which always has room; or the pool
does not grow, and there is no piece. -/
theorem carve_exactly {size : Nat} {place : Option (Nat × Nat)}
    (h : pool.carve p size = (place, pool', p')) :
    (∃ found, place = some found ∧ pool.carveNewest? size = some (found, pool') ∧ p' = p) ∨
      (pool.carveNewest? size = none ∧ ∃ larger found, pool.grow p size = (true, larger, p') ∧
        place = some found ∧ larger.carveNewest? size = some (found, pool')) ∨
      (pool.carveNewest? size = none ∧ place = none ∧ pool.grow p size = (false, pool', p')) := by
  unfold carve at h
  cases hnewest : pool.carveNewest? size with
  | some cut =>
    simp only [hnewest] at h
    cases h
    exact .inl ⟨_, rfl, rfl, rfl⟩
  | none =>
    simp only [hnewest] at h
    cases hgrow : pool.grow p size with
    | mk grown rest =>
      obtain ⟨larger, process⟩ := rest
      cases grown with
      | false =>
        simp only [hgrow] at h
        cases h
        exact .inr (.inr ⟨rfl, rfl, rfl⟩)
      | true =>
        simp only [hgrow] at h
        cases hagain : larger.carveNewest? size with
        | some cut =>
          simp only [hagain] at h
          cases h
          exact .inr (.inl ⟨rfl, larger, _, rfl, rfl, hagain⟩)
        | none =>
          -- the second attempt cannot fail: the new arena has room for the request
          rcases grow_cases hgrow with ⟨hfalse, -⟩ |
            ⟨-, acquired, -, -, rfl, -, -, aligned, haligned, hroom⟩
          · cases hfalse
          · exact absurd hagain (carveNewest?_fresh rfl rfl haligned hroom)

/-- A piece comes from the newest arena of the pool, as it is or after it has
grown. If there is none, then the pool did not grow, since a new arena has
room. -/
theorem carve_cases {size : Nat} {place : Option (Nat × Nat)}
    (h : pool.carve p size = (place, pool', p')) :
    (∃ found, place = some found ∧ pool.carveNewest? size = some (found, pool') ∧ p' = p) ∨
      (∃ larger found, pool.grow p size = (true, larger, p') ∧ place = some found ∧
        larger.carveNewest? size = some (found, pool')) ∨
      (place = none ∧ pool' = pool ∧ p.SameBut p') := by
  rcases carve_exactly h with hcut | ⟨-, hgrown⟩ | ⟨-, hplace, hgrow⟩
  · exact .inl hcut
  · exact .inr (.inl hgrown)
  · rcases grow_cases hgrow with ⟨-, hpool, hsame⟩ | ⟨htrue, -⟩
    · exact .inr (.inr ⟨hplace, hpool, hsame⟩)
    · cases htrue

/-- Cutting a piece touches no block. -/
theorem sameBut_carve {size : Nat} {place : Option (Nat × Nat)}
    (h : pool.carve p size = (place, pool', p')) : p.SameBut p' := by
  rcases carve_cases h with ⟨_, -, -, rfl⟩ | ⟨_, _, hgrown, -, -⟩ | ⟨-, -, hsame⟩
  · exact .refl _
  · rcases grow_cases hgrown with ⟨-, -, hsame⟩ | ⟨-, _, -, -, -, hsame, -⟩
    · exact hsame
    · exact hsame
  · exact hsame

end ArenaPool

/-! ### Requests -/

namespace Storage

/-- The block that a pool makes of a piece cut at `start`. -/
def carvedBlock (p : Process) (cls : SizeClass) (region start : Nat) : Block :=
  ⟨.carved region (start + blockPrefixSize), .pool cls,
    p.system.fresh region (start + blockPrefixSize)⟩

/-- The ways in which an allocator answers a request for `size` bytes, with
the storage afterwards. -/
inductive Served (s : Storage) (size : Nat) : Option Address → Storage → Prop
  /-- The block that was freed last is handed out again. -/
  | reused {cls : SizeClass} {a : Address} {rest : List Address}
      (hcls : SizeClass.ofSize? size = some cls)
      (hlist : s.allocator.freeLists[cls] = a :: rest) :
      Served s size (some a)
        { allocator := { s.allocator with
            freeLists := s.allocator.freeLists.set cls rest
            hits := s.allocator.hits + 1
            inUse := s.allocator.inUse + 1 }
          process := s.process.setKind a (.pool cls) }
  /-- A block is cut from an arena. -/
  | carved {cls : SizeClass} {region start : Nat} {arenas : ArenaPool} {process : Process}
      (hcls : SizeClass.ofSize? size = some cls)
      (hlist : s.allocator.freeLists[cls] = [])
      (hcarve : s.allocator.arenas.carve s.process (blockPrefixSize + cls.bytes)
        = (some (region, start), arenas, process)) :
      Served s size (some process.blocks.size)
        { allocator := { s.allocator with
            arenas
            carved := s.allocator.carved + 1
            inUse := s.allocator.inUse + 1 }
          process := (process.addBlock (carvedBlock process cls region start)).2 }
  /-- No arena has room, and no other can be had. -/
  | uncarved {cls : SizeClass} {arenas : ArenaPool} {process : Process}
      (hcls : SizeClass.ofSize? size = some cls)
      (hlist : s.allocator.freeLists[cls] = [])
      (hcarve : s.allocator.arenas.carve s.process (blockPrefixSize + cls.bytes)
        = (none, arenas, process)) :
      Served s size none { allocator := { s.allocator with arenas }, process }
  /-- A large block is made. -/
  | large (hcls : SizeClass.ofSize? size = none)
      (hlimit : s.allocator.withinLimit size) :
      Served s size (some s.process.blocks.size)
        { allocator := s.allocator.setHeapLive (s.allocator.heapLive + max size 1)
          process := s.process.withLarge (max size 1) }
  /-- No large block is to be had. -/
  | refused {process : Process} (hcls : SizeClass.ofSize? size = none)
      (hsame : s.process.SameBut process) :
      Served s size none { allocator := s.allocator, process }

variable {s s' : Storage} {a : Address} {size : Nat} {made : Option Address}

/-- A request is served in one of the ways there are. -/
theorem served_alloc (h : s.alloc size = (made, s')) : Served s size made s' := by
  obtain ⟨allocator, process⟩ := s
  unfold alloc at h
  cases hcls : SizeClass.ofSize? size with
  | some cls =>
    simp only [hcls, allocPooled] at h
    -- a list with a block on it is served before any arena is cut
    cases hlist : allocator.freeLists[cls] with
    | cons a rest =>
      simp only [hlist] at h
      cases h
      exact .reused hcls hlist
    | nil =>
      simp only [hlist] at h
      cases hcarve : allocator.arenas.carve process (blockPrefixSize + cls.bytes) with
      | mk place rest =>
        obtain ⟨arenas, after⟩ := rest
        cases place with
        | none =>
          simp only [hcarve] at h
          cases h
          exact .uncarved hcls hlist hcarve
        | some place =>
          simp only [hcarve] at h
          cases h
          exact .carved hcls hlist hcarve
  | none =>
    simp only [hcls, allocHeap] at h
    cases hlimit : allocator.withinLimit size with
    | false =>
      simp only [hlimit, Bool.false_eq_true, if_false] at h
      cases h
      exact .refused hcls ((Process.SameBut.refl _).report _)
    | true =>
      simp only [hlimit, if_true] at h
      cases hheap : process.heapAlloc size with
      | mk block after =>
        rcases Process.heapAlloc_cases hheap with ⟨rfl, hsame⟩ | ⟨rfl, rfl⟩
        · simp only [hheap] at h
          cases h
          exact .refused hcls hsame
        · simp only [hheap] at h
          cases h
          exact .large hcls hlimit

/-! ### Releases -/

/-- The storage after a small block of a class was put on its list. -/
def withFreed (s : Storage) (a : Address) (cls : SizeClass) : Storage where
  allocator := { s.allocator with
    freeLists := s.allocator.freeLists.set cls (a :: s.allocator.freeLists[cls])
    inUse := s.allocator.inUse - 1 }
  process := s.process.setKind a (.freed cls)

/-- The storage after a large block went back to the system. -/
def withReturned (s : Storage) (a : Address) (size : Nat) : Storage where
  allocator := s.allocator.setHeapLive (s.allocator.heapLive - size)
  process := s.process.heapFree a size

/-- A small block in use is put in front of the list of its class. -/
theorem free_pool {cls : SizeClass} (h : s.process.kind a = .pool cls) :
    free a s = .ok () (s.withFreed a cls) := by
  simp only [free, h]
  rfl

/-- A large block in use is taken back by the system. -/
theorem free_heap (h : s.process.kind a = .heap size) :
    free a s = .ok () (s.withReturned a size) := by
  simp only [free, h]
  rfl

/-- The ways in which an allocator releases a live block, with the storage
afterwards. -/
inductive Freed (s : Storage) (a : Address) : Storage → Prop
  | pool {cls : SizeClass} (hkind : s.process.kind a = .pool cls) : Freed s a (s.withFreed a cls)
  | heap {size : Nat} (hkind : s.process.kind a = .heap size) : Freed s a (s.withReturned a size)

/-- A live block can be released. -/
theorem freed_free (hlive : s.process.Live a) : ∃ s', free a s = .ok () s' ∧ Freed s a s' := by
  rcases Process.live_cases hlive with ⟨cls, hkind⟩ | ⟨size, hkind⟩
  · exact ⟨_, free_pool hkind, .pool hkind⟩
  · exact ⟨_, free_heap hkind, .heap hkind⟩

/-! ### Resizes -/

/-- The storage after what a block holds was copied to another one, as far
as both sizes reach. -/
def withCopy (s : Storage) (a b : Address) (count : Nat) : Storage :=
  { s with process := s.process.modifyPayload b (·.copyFrom (s.process.payload a) count) }

/-- A copy leaves the marks. -/
theorem kind_withCopy (s : Storage) (a b : Address) (count : Nat) (c : Address) :
    (s.withCopy a b count).process.kind c = s.process.kind c :=
  Process.kind_modifyPayload _ _ _ _

/-- A block for which there is no other one stays. -/
theorem move_none {old : Nat} (hmade : s.alloc size = (none, s')) :
    move a old size s = .ok none s' := by
  simp only [move, hmade]

/-- A block that moves is copied and released. -/
theorem move_some {old : Nat} {b : Address} {s₁ : Storage} (hmade : s.alloc size = (some b, s₁))
    (hfree : free a (s₁.withCopy a b (min old size)) = .ok () s') :
    move a old size s = .ok (some b) s' := by
  simp only [withCopy] at hfree
  simp only [move, hmade, hfree]

/-- The ways in which an allocator resizes a live block, with the storage
afterwards. -/
inductive Resized (s : Storage) (a : Address) (size : Nat) : Option Address → Storage → Prop
  /-- The class of a small block serves the new size too. -/
  | stays {cls : SizeClass} (hkind : s.process.kind a = .pool cls)
      (hcls : SizeClass.ofSize? size = some cls) : Resized s a size (some a) s
  /-- The block moves to another one. -/
  | moved {b : Address} {s₁ s₂ : Storage}
      (hkind : ∀ cls, s.process.kind a = .pool cls → SizeClass.ofSize? size ≠ some cls)
      (hserved : Served s size (some b) s₁)
      (hfreed : Freed (s₁.withCopy a b (min (s.process.kind a).usable size)) a s₂) :
      Resized s a size (some b) s₂
  /-- There is no block to move to. -/
  | unmoved {s₁ : Storage} (hserved : Served s size none s₁) : Resized s a size none s₁
  /-- The system resizes a large block. -/
  | resized {old : Nat} {b : Address} {process : Process}
      (hkind : s.process.kind a = .heap old) (hcls : SizeClass.ofSize? size = none)
      (hlimit : s.allocator.withinLimit (max size 1 - old))
      (hheap : s.process.heapRealloc a old size = (some b, process)) :
      Resized s a size (some b)
        { allocator := s.allocator.setHeapLive (s.allocator.heapLive - old + max size 1), process }
  /-- The limit or the system refuses to resize a large block. -/
  | refused {process : Process} (hsame : s.process.SameBut process) :
      Resized s a size none { allocator := s.allocator, process }

end Storage

end ExtensionHost
