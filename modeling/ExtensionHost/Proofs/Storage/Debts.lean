import ExtensionHost.Proofs.Storage.Entry
import ExtensionHost.Proofs.Storage.Footprint

/-!
# `ExtensionHost.Proofs.Storage.Debts`: blocks that have yet to be given back

`Balance` and `Tally` compare the counters with all blocks in use, so they speak of
storage whose whole history is known. Somebody who takes blocks and gives them back
may start anywhere: with an allocator whose figures have drifted, next to the blocks
of other threads, while the allocator is lent out. All that can be said then is by
how much the counters have moved since the start.

`Memory.Owes base taken m` says that since `base` the blocks in `taken` were handed
out and not given back, and that the counters are those of `base` with these blocks
added. Every block that is given back is one of `taken`, so it was added before, and
no subtraction comes to its lower end: there is no need to know that the counters of
`base` were right. When all blocks are given back the counters are those of `base`
(`Owes.settled`).
-/

set_option autoImplicit false

namespace ExtensionHost

/-! ### The figures of the process -/

namespace Process

variable {p p' : Process} {a : Address} {size : Nat} {made : Option Address}

/-- What was handed out is counted by the process. -/
structure Enters (p : Process) (made : Option Address) (p' : Process) : Prop where
  heapBlocks : p'.heapBlocks = p.heapBlocks + p'.largeCount made.toList
  heapBytes : p'.heapBytes = p.heapBytes + p'.largeBytes made.toList

/-- What was given back is not counted any more. -/
structure Strikes (p : Process) (a : Address) (p' : Process) : Prop where
  heapBlocks : p'.heapBlocks = p.heapBlocks - p.largeCount [a]
  heapBytes : p'.heapBytes = p.heapBytes - p.largeBytes [a]

/-- Where nothing but events has changed, nothing was handed out. -/
theorem SameBut.enters (h : p.SameBut p') : p.Enters none p' := by
  obtain ⟨_, _, -, rfl⟩ := h
  exact ⟨(Int.add_zero _).symm, (Int.add_zero _).symm⟩

/-- Small blocks are not counted by the process. -/
theorem enters_small {cls : SizeClass} (hkind : p'.kind a = .pool cls)
    (hblocks : p'.heapBlocks = p.heapBlocks) (hbytes : p'.heapBytes = p.heapBytes) :
    p.Enters (some a) p' := by
  refine ⟨?_, ?_⟩
  · rw [hblocks, Option.toList_some, largeCount_cons, hkind]
    exact (Int.add_zero _).symm
  · rw [hbytes, Option.toList_some, largeBytes_singleton, hkind]
    exact (Int.add_zero _).symm

/-- A large block that is added to the table is counted. -/
theorem enters_withLarge (p : Process) (size : Nat) :
    p.Enters (some p.blocks.size) (p.withLarge size) := by
  have hkind : (p.withLarge size).kind p.blocks.size = .heap size := by simp [kind, withLarge]
  refine ⟨?_, ?_⟩
  · rw [Option.toList_some, largeCount_cons, hkind]
    rfl
  · rw [Option.toList_some, largeBytes_singleton, hkind]
    rfl

/-- A large block that the system gives is counted, and a refusal is not. -/
theorem enters_heapAlloc (h : p.heapAlloc size = (made, p')) : p.Enters made p' := by
  rcases heapAlloc_cases h with ⟨rfl, hsame⟩ | ⟨rfl, rfl⟩
  · exact hsame.enters
  · exact enters_withLarge p _

/-- Marking a small block otherwise does not change the figures of large ones. -/
theorem strikes_small {cls : SizeClass} (hkind : p.kind a = .pool cls) (kind : BlockKind) :
    p.Strikes a (p.setKind a kind) := by
  refine ⟨?_, ?_⟩
  · rw [largeCount_cons, hkind]
    exact (Int.sub_zero _).symm
  · rw [largeBytes_singleton, hkind]
    exact (Int.sub_zero _).symm

/-- A large block that is taken back is counted no more. -/
theorem strikes_heapFree (hkind : p.kind a = .heap size) : p.Strikes a (p.heapFree a size) := by
  refine ⟨?_, ?_⟩
  · rw [largeCount_cons, hkind]
    rfl
  · rw [largeBytes_singleton, hkind]
    rfl

end Process

namespace Storage

variable {s s' : Storage} {a : Address} {size : Nat} {made : Option Address}

/-- What an allocator hands out is counted by the process. -/
theorem Served.enters (h : Served s size made s') (hlisted : s.allocator.Listed s.process) :
    s.process.Enters made s'.process := by
  cases h with
  | @reused cls a rest hcls hlist =>
    have hkind := (Served.reused hcls hlist).kind hlisted
    simp only [hcls] at hkind
    exact Process.enters_small hkind rfl rfl
  | carved hcls hlist hcarve =>
    have hkind := (Served.carved hcls hlist hcarve).kind hlisted
    simp only [hcls] at hkind
    obtain ⟨_, _, -, rfl⟩ := ArenaPool.sameBut_carve hcarve
    exact Process.enters_small hkind rfl rfl
  | uncarved hcls hlist hcarve => exact (ArenaPool.sameBut_carve hcarve).enters
  | large hcls hlimit => exact Process.enters_withLarge _ _
  | refused hcls hsame => exact hsame.enters

/-- What an allocator takes back is counted by the process no more. -/
theorem Freed.strikes (h : Freed s a s') : s.process.Strikes a s'.process := by
  cases h with
  | pool hkind => exact Process.strikes_small hkind _
  | heap hkind => exact Process.strikes_heapFree hkind

end Storage

/-! ### The counters of the thread -/

namespace Memory

variable {base m m' : Memory} {a c : Address} {count size : Nat} {made : Option Address}
  {taken taken' : List Address}

/-- What the thread's allocator counts of an amount: nothing while it is lent out,
since it is not asked then. -/
def charge (m : Memory) (amount : Nat) : Nat := if m.lent then 0 else amount

/-- An allocator that is lent out is not charged. -/
theorem charge_of_lent (h : m.lent = true) (amount : Nat) : m.charge amount = 0 := by
  rw [charge, h, if_pos rfl]

/-- An allocator that can be reached is charged the whole amount. -/
theorem charge_of_not_lent (h : m.lent = false) (amount : Nat) : m.charge amount = amount := by
  rw [charge, h, if_neg Bool.false_ne_true]

/-- Nothing is charged for nothing. -/
@[simp] theorem charge_zero (m : Memory) : m.charge 0 = 0 := ite_self 0

/-- Amounts can be charged one by one. -/
theorem charge_add (m : Memory) (x y : Nat) : m.charge (x + y) = m.charge x + m.charge y := by
  unfold charge
  split <;> rfl

/-- Since `base` the blocks in `taken` were handed out and not given back, and
nothing else was done to blocks in use. -/
structure Owes (base : Memory) (taken : List Address) (m : Memory) : Prop where
  lent : m.lent = base.lent
  inUse : m.theAllocator.inUse =
    base.theAllocator.inUse + base.charge (m.process.smallCount taken)
  heapLive : m.theAllocator.heapLive =
    base.theAllocator.heapLive + base.charge (m.process.largeBytes taken)
  heapBlocks : m.process.heapBlocks = base.process.heapBlocks + m.process.largeCount taken
  heapBytes : m.process.heapBytes = base.process.heapBytes + m.process.largeBytes taken
  nodup : taken.Nodup
  live_iff : ∀ c, m.process.Live c ↔ c ∈ taken ∨ base.process.Live c
  apart : ∀ c ∈ taken, ¬ base.process.Live c
  kept : ∀ c, base.process.Live c → m.process.kind c = base.process.kind c

/-- At first nothing is owed. -/
theorem Owes.refl (m : Memory) : m.Owes [] m where
  lent := rfl
  inUse := by rw [Process.smallCount_nil, charge_zero, Nat.add_zero]
  heapLive := by rw [Process.largeBytes_nil, charge_zero, Nat.add_zero]
  heapBlocks := (Int.add_zero _).symm
  heapBytes := (Int.add_zero _).symm
  nodup := .nil
  live_iff c := by rw [List.mem_nil_iff, false_or]
  apart c hc := absurd hc List.not_mem_nil
  kept _ _ := rfl

/-- The order in which blocks were handed out does not matter. -/
theorem Owes.perm (h : base.Owes taken m) (hperm : taken.Perm taken') : base.Owes taken' m where
  lent := h.lent
  inUse := by rw [← m.process.smallCount_perm hperm]; exact h.inUse
  heapLive := by rw [← m.process.largeBytes_perm hperm]; exact h.heapLive
  heapBlocks := by rw [← m.process.largeCount_perm hperm]; exact h.heapBlocks
  heapBytes := by rw [← m.process.largeBytes_perm hperm]; exact h.heapBytes
  nodup := hperm.nodup_iff.1 h.nodup
  live_iff c := by rw [← hperm.mem_iff]; exact h.live_iff c
  apart c hc := h.apart c (hperm.mem_iff.2 hc)
  kept := h.kept

/-- What is written or reported does not matter. -/
theorem Owes.alike (h : base.Owes taken m) (halike : m.Alike m') : base.Owes taken m' := by
  have hallocator : m'.theAllocator = m.theAllocator := by
    rw [theAllocator, theAllocator, halike.allocator, halike.installed]
  have hkind : ∀ c ∈ taken, m'.process.kind c = m.process.kind c :=
    fun c _ => halike.process.kind c
  have hlive : ∀ c, m'.process.Live c ↔ m.process.Live c := fun c => by
    rw [Process.Live, Process.Live, halike.process.kind]
  exact ⟨halike.lent.trans h.lent,
    by rw [hallocator, Process.smallCount_congr hkind]; exact h.inUse,
    by rw [hallocator, Process.largeBytes_congr hkind]; exact h.heapLive,
    by rw [halike.process.heapBlocks, Process.largeCount_congr hkind]; exact h.heapBlocks,
    by rw [halike.process.heapBytes, Process.largeBytes_congr hkind]; exact h.heapBytes,
    h.nodup, fun c => (hlive c).trans (h.live_iff c), h.apart,
    fun c hc => (halike.process.kind c).trans (h.kept c hc)⟩

/-! ### Blocks that are handed out -/

/-- What a block that is handed out adds to the counters. -/
structure Enters (m : Memory) (made : Option Address) (m' : Memory) : Prop where
  lent : m'.lent = m.lent
  inUse : m'.theAllocator.inUse =
    m.theAllocator.inUse + m.charge (m'.process.smallCount made.toList)
  heapLive : m'.theAllocator.heapLive =
    m.theAllocator.heapLive + m.charge (m'.process.largeBytes made.toList)
  process : m.process.Enters made m'.process

/-- A block that is served adds to the counters. -/
theorem enters_serve (hsound : m.Sound) (hrun : m.serve size = (made, m')) :
    m.Enters made m' := by
  unfold serve at hrun
  cases hlent : m.lent with
  | true =>
    rw [hlent, if_pos rfl] at hrun
    cases hheap : m.process.heapAlloc size with
    | mk found p =>
      simp only [onProcess, hheap] at hrun
      cases hrun
      -- the allocator is not asked
      refine ⟨rfl, ?_, ?_, Process.enters_heapAlloc hheap⟩
      · rw [charge_of_lent hlent]
        rfl
      · rw [charge_of_lent hlent]
        rfl
  | false =>
    rw [hlent, if_neg Bool.false_ne_true] at hrun
    cases halloc : m.storage.alloc size with
    | mk found s =>
      simp only [halloc] at hrun
      cases hrun
      have hserved := Storage.served_alloc halloc
      have hgains := hserved.gains hsound
      refine ⟨hlent.symm, ?_, ?_, hserved.enters hsound⟩
      · rw [charge_of_not_lent hlent]
        exact hgains.inUse
      · rw [charge_of_not_lent hlent]
        exact hgains.heapLive

/-- Whether an amount is charged depends on the lending alone, which does not change. -/
theorem Owes.charge_eq (h : base.Owes taken m) (amount : Nat) :
    m.charge amount = base.charge amount := by
  rw [charge, charge, h.lent]

/-- A block that is served is owed besides the others. -/
theorem Owes.serve (h : base.Owes taken m) (hsound : m.Sound)
    (hrun : m.serve size = (made, m')) : base.Owes (made.toList ++ taken) m' := by
  have henters := enters_serve hsound hrun
  have hhands := (serve_spec hsound hrun).2
  -- the blocks that were taken before are in use, so none of them is handed out
  have hlive : ∀ c ∈ taken, m.process.Live c := fun c hc => (h.live_iff c).2 (.inl hc)
  have hmade : ∀ c, m.process.Live c → made ≠ some c := fun c hc heq => hhands.fresh c heq hc
  have hkind : ∀ c, m.process.Live c → m'.process.kind c = m.process.kind c :=
    fun c hc => Process.kind_congr (hhands.others c (hmade c hc))
  have hkept : ∀ c ∈ taken, m'.process.kind c = m.process.kind c :=
    fun c hc => hkind c (hlive c hc)
  have hbase : ∀ c, base.process.Live c → m.process.Live c := fun c hc => (h.live_iff c).2 (.inr hc)
  refine ⟨henters.lent.trans h.lent, ?_, ?_, ?_, ?_, ?_, fun c => ?_, fun c hc => ?_,
    fun c hc => (hkind c (hbase c hc)).trans (h.kept c hc)⟩
  · rw [henters.inUse, h.inUse, h.charge_eq, m'.process.smallCount_append, charge_add,
      Process.smallCount_congr hkept]
    omega
  · rw [henters.heapLive, h.heapLive, h.charge_eq, m'.process.largeBytes_append, charge_add,
      Process.largeBytes_congr hkept]
    omega
  · rw [henters.process.heapBlocks, h.heapBlocks, m'.process.largeCount_append,
      Process.largeCount_congr hkept]
    omega
  · rw [henters.process.heapBytes, h.heapBytes, m'.process.largeBytes_append,
      Process.largeBytes_congr hkept]
    omega
  · refine List.nodup_append.2 ⟨?_, h.nodup, fun a ha b hb heq => ?_⟩
    · cases made with
      | none => exact .nil
      | some a => exact List.nodup_singleton a
    · exact hmade b (hlive b hb) (by rw [← heq]; exact Option.mem_toList.1 ha)
  · by_cases hc : made = some c
    · simp only [hhands.live c hc, hc, Option.toList_some, List.mem_append, List.mem_singleton,
        true_or]
    · have hnot : c ∉ made.toList := fun hmem => hc (Option.mem_toList.1 hmem)
      rw [Process.live_congr (hhands.others c hc), h.live_iff c, List.mem_append]
      simp only [hnot, false_or]
  · rcases List.mem_append.1 hc with hc | hc
    · exact fun hlive => hhands.fresh c (Option.mem_toList.1 hc) (hbase c hlive)
    · exact h.apart c hc

/-- A block that is asked for with zeroed bytes. -/
theorem Owes.calloc (h : base.Owes taken m) (hsound : m.Sound)
    (hrun : m.calloc count size = (made, m')) : base.Owes (made.toList ++ taken) m' := by
  rw [Memory.calloc] at hrun
  cases htotal : Size.mul? count size with
  | none =>
    rw [htotal] at hrun
    cases hrun
    exact h
  | some total =>
    rw [htotal] at hrun
    simp only [serveZeroed] at hrun
    cases hserve : m.serve total with
    | mk found m₁ =>
      have hserved := h.serve hsound hserve
      rw [hserve] at hrun
      cases found with
      | none =>
        cases hrun
        exact hserved
      | some a =>
        cases hrun
        exact hserved.alike (((Alike.refl m₁).modifyPayload a _).report _)

/-! ### Blocks that are given back -/

/-- What a block that is given back takes off the counters. -/
structure Strikes (m : Memory) (a : Address) (m' : Memory) : Prop where
  lent : m'.lent = m.lent
  inUse : m'.theAllocator.inUse = m.theAllocator.inUse - m.charge (m.process.smallCount [a])
  heapLive : m'.theAllocator.heapLive =
    m.theAllocator.heapLive - m.charge (m.process.largeBytes [a])
  process : m.process.Strikes a m'.process

/-- A block that is given back through an entry point is taken off the counters. -/
theorem RequestEffect.strikes {m₁ : Memory} (h : m.RequestEffect size (some a) none (!m.lent) m₁) :
    m.Strikes a m₁ := by
  -- without the allocator nothing is charged to it, and the system takes the block
  cases hlent : m.lent with
  | true =>
    have hcharge := charge_of_lent hlent
    rw [hlent] at h
    cases h with
    | unpooled heffect =>
      refine ⟨rfl, by rw [hcharge]; rfl, by rw [hcharge]; rfl, ?_⟩
      cases heffect with
      | returned hkind => exact Process.strikes_heapFree hkind
      | retired hkind => exact Process.strikes_small hkind _
  | false =>
    have hcharge := charge_of_not_lent hlent
    rw [hlent] at h
    cases h with
    | pooled heffect =>
      cases heffect with
      | freed hfreed =>
        have hloses := hfreed.loses
        refine ⟨rfl, ?_, ?_, hfreed.strikes⟩
        · rw [hcharge]
          exact hloses.inUse
        · rw [hcharge]
          exact hloses.heapLive

/-- A block that was taken is given back. -/
theorem Owes.free (h : base.Owes (a :: taken) m) (hrun : free a m = .ok () m') :
    base.Owes taken m' := by
  have ha : m.process.Live a := (h.live_iff a).2 (.inl List.mem_cons_self)
  obtain ⟨m₁, hrun₁, heffect, -⟩ := effect_free ha
  rw [hrun] at hrun₁
  cases hrun₁
  refine Owes.alike ?_ ((Alike.refl m₁).report .blockFreed)
  have hstrikes := heffect.strikes
  have hfrees := heffect.frees
  obtain ⟨hnot, hnodup⟩ := List.nodup_cons.1 h.nodup
  have hkind : ∀ c, c ≠ a → m₁.process.kind c = m.process.kind c :=
    fun c hc => Process.kind_congr (hfrees.others c hc)
  have hkept : ∀ c ∈ taken, m₁.process.kind c = m.process.kind c :=
    fun c hc => hkind c fun heq => hnot (heq ▸ hc)
  have hapart : ∀ c, base.process.Live c → c ≠ a := by
    rintro c hc rfl
    exact h.apart c List.mem_cons_self hc
  have hinUse := h.inUse
  have hheapLive := h.heapLive
  have hblocks := h.heapBlocks
  have hbytes := h.heapBytes
  -- what is subtracted was added when the block was taken
  rw [show a :: taken = [a] ++ taken from rfl] at hinUse hheapLive hblocks hbytes
  rw [m.process.smallCount_append, charge_add] at hinUse
  rw [m.process.largeBytes_append, charge_add] at hheapLive
  rw [m.process.largeCount_append] at hblocks
  rw [m.process.largeBytes_append] at hbytes
  refine ⟨hstrikes.lent.trans h.lent, ?_, ?_, ?_, ?_, hnodup, fun c => ?_,
    fun c hc => h.apart c (List.mem_cons_of_mem a hc),
    fun c hc => (hkind c (hapart c hc)).trans (h.kept c hc)⟩
  · rw [hstrikes.inUse, h.charge_eq, Process.smallCount_congr hkept]
    omega
  · rw [hstrikes.heapLive, h.charge_eq, Process.largeBytes_congr hkept]
    omega
  · rw [hstrikes.process.heapBlocks, Process.largeCount_congr hkept]
    omega
  · rw [hstrikes.process.heapBytes, Process.largeBytes_congr hkept]
    omega
  · by_cases hc : c = a
    · subst hc
      have hbase := h.apart c List.mem_cons_self
      simp only [hfrees.ended, hnot, hbase, or_self]
    · rw [Process.live_congr (hfrees.others c hc), h.live_iff c, List.mem_cons]
      simp only [hc, false_or]

/-- When all blocks were given back the counters are what they were. -/
theorem Owes.settled (h : base.Owes [] m) :
    m.theAllocator.inUse = base.theAllocator.inUse ∧
      m.theAllocator.heapLive = base.theAllocator.heapLive ∧
      m.process.heapBlocks = base.process.heapBlocks ∧
      m.process.heapBytes = base.process.heapBytes ∧
      ∀ c, m.process.Live c ↔ base.process.Live c := by
  refine ⟨?_, ?_, h.heapBlocks.trans (Int.add_zero _), h.heapBytes.trans (Int.add_zero _),
    fun c => by rw [h.live_iff c, List.mem_nil_iff, false_or]⟩
  · rw [h.inUse, Process.smallCount_nil, charge_zero, Nat.add_zero]
  · rw [h.heapLive, Process.largeBytes_nil, charge_zero, Nat.add_zero]

/-! ### Parts of an operation -/

/-- Whatever was owed before, the blocks are owed too. -/
def Draws (m : Memory) (blocks : List Address) (m' : Memory) : Prop :=
  ∀ (base : Memory) (taken : List Address), base.Owes taken m → base.Owes (blocks ++ taken) m'

/-- If the blocks were owed they are not any more. -/
def Returns (m : Memory) (blocks : List Address) (m' : Memory) : Prop :=
  ∀ (base : Memory) (taken : List Address), base.Owes (blocks ++ taken) m → base.Owes taken m'

variable {m₁ : Memory} {blocks blocks' : List Address}

/-- Blocks can be drawn one after the other. -/
theorem Draws.trans (h : m.Draws blocks m₁) (h' : m₁.Draws blocks' m') :
    m.Draws (blocks ++ blocks') m' := by
  intro base taken howes
  refine (h' base _ (h base taken howes)).perm ?_
  rw [← List.append_assoc]
  exact List.perm_append_comm.append_right taken

/-- Blocks can be given back one after the other. -/
theorem Returns.trans (h : m.Returns blocks m₁) (h' : m₁.Returns blocks' m') :
    m.Returns (blocks ++ blocks') m' := by
  intro base taken howes
  rw [List.append_assoc] at howes
  exact h' base taken (h base _ howes)

/-- A memory that is like before draws nothing. -/
theorem Alike.draws (h : m.Alike m') : m.Draws [] m' := fun _ _ howes => howes.alike h

/-- A memory that is like before gives nothing back. -/
theorem Alike.returns (h : m.Alike m') : m.Returns [] m' := fun _ _ howes => howes.alike h

/-- A request for zeroed bytes draws the block that it is answered with. -/
theorem draws_calloc (hsound : m.Sound) (hrun : m.calloc count size = (made, m')) :
    m.Draws made.toList m' := fun _ _ howes => howes.calloc hsound hrun

/-- A release gives its block back. -/
theorem returns_free (hrun : free a m = .ok () m') : m.Returns [a] m' :=
  fun _ _ howes => howes.free hrun

/-- Blocks that were taken and given back, in whatever order, leave nothing to be
given back. -/
theorem Draws.settled (h : m.Draws blocks m₁) (h' : m₁.Returns blocks' m')
    (hperm : blocks'.Perm blocks) : m.Owes [] m' := by
  refine h' m [] ((h m [] (.refl m)).perm ?_)
  rw [List.append_nil, List.append_nil]
  exact hperm.symm

end Memory

end ExtensionHost
