import ExtensionHost.Storage.Memory

/-!
# `ExtensionHost.Proofs.Storage.Notices`: requests and the events before them

Storage reports events and never looks at them. So a request is served in the same way
whatever was reported before it: `withEvents` puts other events in the place of those that
were reported, and every operation here answers the same with and without, and leaves the
same but for events. An operation that reports something itself leaves other events, which
the statements do not name.
-/

set_option autoImplicit false

namespace ExtensionHost

/-- What an operation came to, with a change to the state that it left. -/
def leaving {σ α : Type} (change : σ → σ) : EStateM.Result Fault σ α → EStateM.Result Fault σ α
  | .ok a s => .ok a (change s)
  | .error fault s => .error fault (change s)

namespace Process

/-- The process with other events so far. -/
def withEvents (p : Process) (events : Array Event) : Process := { p with events }

variable (p : Process) (size : Nat) (events : Array Event)

/-- Asking the system for a region does not look at events. -/
theorem request_withEvents :
    (p.withEvents events).request size =
      ((p.request size).1, (p.request size).2.withEvents events) := rfl

/-- Acquiring an arena does not look at events. -/
theorem acquireArena_withEvents :
    (p.withEvents events).acquireArena size =
      ((p.acquireArena size).1, (p.acquireArena size).2.withEvents events) := by
  unfold acquireArena
  split
  · rfl
  · rw [request_withEvents]
    cases p.request size with
    | mk found p₁ => cases found <;> rfl

/-- Making a large block does not look at events. -/
theorem heapAlloc_withEvents :
    (p.withEvents events).heapAlloc size =
      ((p.heapAlloc size).1, (p.heapAlloc size).2.withEvents events) := by
  simp only [heapAlloc, request_withEvents]
  cases regionSize? (max size 1) with
  | none => rfl
  | some total =>
    dsimp only
    cases p.request total with
    | mk found p₁ => cases found <;> rfl

end Process

namespace ArenaPool

/-- Growing a pool does not look at the events before it. -/
theorem grow_withEvents (pool : ArenaPool) (p : Process) (least : Nat) (events : Array Event) :
    ∃ events', pool.grow (p.withEvents events) least =
      ((pool.grow p least).1, (pool.grow p least).2.1,
        (pool.grow p least).2.2.withEvents events') := by
  unfold grow
  cases Size.align? least with
  | none => exact ⟨events, rfl⟩
  | some least =>
    simp only [Process.acquireArena_withEvents]
    by_cases hadmits : pool.admits (max pool.currentSize least) = true
    · simp only [if_pos hadmits]
      cases p.acquireArena (max pool.currentSize least) with
      | mk found p₁ =>
        -- whether an arena is timed is not told by events either
        have htiming (events : Array Event) : (p₁.withEvents events).timing = p₁.timing := rfl
        cases htimed : p₁.timing <;> cases found <;>
          exact ⟨_, by simp only [Process.report, htiming, htimed]; rfl⟩
    · simp only [if_neg hadmits]
      exact ⟨events, rfl⟩

/-- Cutting a piece does not look at the events before it. -/
theorem carve_withEvents (pool : ArenaPool) (p : Process) (size : Nat) (events : Array Event) :
    ∃ events', pool.carve (p.withEvents events) size =
      ((pool.carve p size).1, (pool.carve p size).2.1,
        (pool.carve p size).2.2.withEvents events') := by
  unfold carve
  cases pool.carveNewest? size with
  | some found => exact ⟨events, rfl⟩
  | none =>
    obtain ⟨events', hgrow⟩ := grow_withEvents pool p size events
    simp only [hgrow]
    rcases pool.grow p size with ⟨grown, pool₁, p₁⟩
    cases grown with
    | false => exact ⟨events', rfl⟩
    | true =>
      dsimp only
      cases pool₁.carveNewest? size <;> exact ⟨events', rfl⟩

end ArenaPool

namespace Storage

/-- The allocator at work on a process with other events so far. -/
def withEvents (s : Storage) (events : Array Event) : Storage :=
  { s with process := s.process.withEvents events }

variable (s : Storage) (size : Nat) (events : Array Event)

/-- Serving a small block does not look at the events before it. -/
theorem allocPooled_withEvents (cls : SizeClass) :
    ∃ events', (s.withEvents events).allocPooled cls =
      ((s.allocPooled cls).1, (s.allocPooled cls).2.withEvents events') := by
  obtain ⟨allocator, p⟩ := s
  unfold allocPooled withEvents
  dsimp only
  cases allocator.freeLists[cls] with
  | cons a rest => exact ⟨events, rfl⟩
  | nil =>
    obtain ⟨events', hcarve⟩ :=
      allocator.arenas.carve_withEvents p (blockPrefixSize + cls.bytes) events
    simp only [hcarve]
    rcases allocator.arenas.carve p (blockPrefixSize + cls.bytes) with ⟨found, pool, p₁⟩
    cases found <;> exact ⟨events', rfl⟩

/-- Serving a large block does not look at the events before it. -/
theorem allocHeap_withEvents :
    ∃ events', (s.withEvents events).allocHeap size =
      ((s.allocHeap size).1, (s.allocHeap size).2.withEvents events') := by
  obtain ⟨allocator, p⟩ := s
  unfold allocHeap withEvents
  dsimp only
  by_cases hlimit : allocator.withinLimit size = true
  · simp only [if_pos hlimit, Process.heapAlloc_withEvents]
    rcases p.heapAlloc size with ⟨found, p₁⟩
    cases found <;> exact ⟨events, rfl⟩
  · simp only [if_neg hlimit]
    exact ⟨events.push (.limitExceeded size), rfl⟩

/-- Serving a request does not look at the events before it. -/
theorem alloc_withEvents :
    ∃ events', (s.withEvents events).alloc size =
      ((s.alloc size).1, (s.alloc size).2.withEvents events') := by
  unfold alloc
  cases SizeClass.ofSize? size with
  | some cls => exact allocPooled_withEvents s events cls
  | none => exact allocHeap_withEvents s size events

/-- Freeing a block does not look at events. -/
theorem free_withEvents (a : Address) :
    free a (s.withEvents events) = leaving (·.withEvents events) (free a s) := by
  obtain ⟨allocator, p⟩ := s
  unfold free
  have hkind : (withEvents ⟨allocator, p⟩ events).process.kind a = p.kind a := rfl
  simp only [hkind]
  cases p.kind a <;> rfl

end Storage

namespace Memory

/-- The memory with other events so far. -/
def withEvents (m : Memory) (events : Array Event) : Memory :=
  { m with process := m.process.withEvents events }

variable (m : Memory) (size : Nat) (events : Array Event)

/-- Serving a request through an entry point does not look at the events before it. -/
theorem serve_withEvents :
    ∃ events', (m.withEvents events).serve size =
      ((m.serve size).1, (m.serve size).2.withEvents events') := by
  obtain ⟨p, installed, allocator, lent⟩ := m
  cases lent with
  | true =>
    refine ⟨events, ?_⟩
    have halloc := p.heapAlloc_withEvents size events
    simp only [serve, withEvents, onProcess, if_true, halloc]
  | false =>
    obtain ⟨events', halloc⟩ :=
      Storage.alloc_withEvents (storage ⟨p, installed, allocator, false⟩) size events
    have hstorage : storage (withEvents ⟨p, installed, allocator, false⟩ events) =
        (storage ⟨p, installed, allocator, false⟩).withEvents events := rfl
    refine ⟨events', ?_⟩
    unfold serve
    simp only [hstorage, halloc]
    rfl

/-- Serving zeroed bytes does not look at the events before it. -/
theorem serveZeroed_withEvents :
    ∃ events', (m.withEvents events).serveZeroed size =
      ((m.serveZeroed size).1, (m.serveZeroed size).2.withEvents events') := by
  obtain ⟨events', hserve⟩ := m.serve_withEvents size events
  unfold serveZeroed
  simp only [hserve]
  rcases m.serve size with ⟨found, m₁⟩
  cases found <;> exact ⟨events', rfl⟩

/-- A request for zeroed bytes does not look at the events before it. -/
theorem calloc_withEvents (count : Nat) :
    ∃ events', (m.withEvents events).calloc count size =
      ((m.calloc count size).1, (m.calloc count size).2.withEvents events') := by
  unfold calloc
  cases Size.mul? count size with
  | none => exact ⟨events, rfl⟩
  | some total =>
    obtain ⟨events', hserve⟩ := m.serveZeroed_withEvents total events
    simp only [hserve]
    rcases m.serveZeroed total with ⟨found, m₁⟩
    cases found with
    | none => exact ⟨events', rfl⟩
    | some a => exact ⟨events'.push (.blockAllocated total), rfl⟩

/-- Freeing a block without the allocator does not look at events. -/
theorem freeUnpooled_withEvents (a : Address) :
    freeUnpooled a (m.withEvents events) = leaving (·.withEvents events) (freeUnpooled a m) := by
  unfold freeUnpooled
  have hkind : (m.withEvents events).process.kind a = m.process.kind a := rfl
  simp only [hkind]
  cases m.process.kind a <;> rfl

/-- A release through an entry point does not look at the events before it. -/
theorem free_withEvents (a : Address) :
    ∃ events', free a (m.withEvents events) = leaving (·.withEvents events') (free a m) := by
  refine ⟨events.push .blockFreed, ?_⟩
  have hreported : (m.withEvents events).report .blockFreed =
      (m.report .blockFreed).withEvents (events.push .blockFreed) := rfl
  unfold free
  simp only [hreported]
  generalize m.report .blockFreed = m, events.push .blockFreed = events
  have hlent : (m.withEvents events).lent = m.lent := rfl
  have hstorage : (m.withEvents events).storage = m.storage.withEvents events := rfl
  rw [hlent]
  split
  · exact freeUnpooled_withEvents m events a
  · simp only [onStorage, hstorage, Storage.free_withEvents]
    cases Storage.free a m.storage <;> rfl

end Memory

end ExtensionHost
