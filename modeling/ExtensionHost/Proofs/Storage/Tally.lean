import ExtensionHost.Proofs.Storage.Calls
import ExtensionHost.Proofs.Storage.Counters

/-!
# `ExtensionHost.Proofs.Storage.Tally`: counters and the table of blocks

The counters of an allocator can be compared with the blocks that its users
hold, which is what `Balance` does. They can also be compared with the marks in
the table alone, and then nobody has to know who holds what. `Process.total`
adds up a figure over all blocks, and every primitive changes it at one block.

`Process.Tallied` says that the counters of large blocks that all allocators
share are such totals. It holds however many allocators there are. The counters
of an allocator are totals only as long as it is the only one; that is
`Storage.Tallied`, and whatever the allocator does keeps it (`RequestEffect.tallied`).
When no block is in use all of these totals are zero.
-/

set_option autoImplicit false

namespace ExtensionHost

namespace BlockKind

/-- Whether a block has a region of its own. -/
def isLarge : BlockKind → Bool
  | heap _ => true
  | pool _ | freed _ | foreign => false

/-- One for a block with a region of its own. -/
def largeCount (kind : BlockKind) : Nat := kind.isLarge.toNat

/-- One for a small block in use. -/
def smallCount (kind : BlockKind) : Nat := kind.isSmall.toNat

end BlockKind

namespace Process

open scoped BigOperators

variable {p p' : Process} {a b : Address} {size : Nat} {made : Option Address} {f : BlockKind → Nat}

/-! ### Totals -/

/-- The sum over all blocks of a figure that their marks give. -/
def total (p : Process) (f : BlockKind → Nat) : Nat :=
  ∑ a ∈ Finset.range p.blocks.size, f (p.kind a)

/-- Only the marks matter. -/
theorem total_congr (hsize : p'.blocks.size = p.blocks.size) (hkind : ∀ a, p'.kind a = p.kind a) :
    p'.total f = p.total f := by
  rw [total, total, hsize]
  exact Finset.sum_congr rfl fun a _ => by rw [hkind]

/-- A sum over the blocks depends on nothing but the blocks. -/
theorem total_of_blocks (h : p'.blocks = p.blocks) : p'.total f = p.total f :=
  total_congr (by rw [h]) fun a => kind_congr (by rw [h])

/-- A sum over the blocks is the same while the marks are. -/
theorem Alike.total (h : p.Alike p') : p'.total f = p.total f := total_congr h.size h.kind

/-- A sum over the marks of blocks does not depend on what they hold. -/
theorem total_modifyPayload (p : Process) (a : Address) (g : Payload → Payload) :
    (p.modifyPayload a g).total f = p.total f :=
  ((Alike.refl p).modifyPayload a g).total

/-- A block that is marked anew counts with its new mark instead of its old one. -/
theorem total_setKind (ha : a < p.blocks.size) (kind : BlockKind) :
    (p.setKind a kind).total f + f (p.kind a) = p.total f + f kind := by
  have hmem : a ∈ Finset.range p.blocks.size := Finset.mem_range.2 ha
  have hothers : ∑ b ∈ (Finset.range p.blocks.size).erase a, f ((p.setKind a kind).kind b) =
      ∑ b ∈ (Finset.range p.blocks.size).erase a, f (p.kind b) := by
    refine Finset.sum_congr rfl fun b hb => ?_
    rw [kind_congr (getElem?_setKind_of_ne (Finset.ne_of_mem_erase hb) kind)]
  rw [total, total, size_setKind, ← Finset.add_sum_erase _ (fun b => f (p.kind b)) hmem,
    ← Finset.add_sum_erase _ (fun b => f ((p.setKind a kind).kind b)) hmem, hothers,
    kind_setKind_self ha, Nat.add_right_comm, Nat.add_right_comm _ _ (f kind),
    Nat.add_comm (f kind)]

/-- A block that is new adds its own part to the sum. -/
theorem total_addBlock (p : Process) (block : Block) :
    (p.addBlock block).2.total f = p.total f + f block.kind := by
  have hsize : (p.addBlock block).2.blocks.size = p.blocks.size + 1 := Array.size_push block
  have hlast : (p.addBlock block).2.kind p.blocks.size = block.kind := by
    simp only [kind, getElem?_addBlock, if_true]
  rw [total, hsize, Finset.sum_range_succ, hlast]
  congr 1
  refine Finset.sum_congr rfl fun b hb => ?_
  have hne : b ≠ p.blocks.size := Nat.ne_of_lt (Finset.mem_range.1 hb)
  rw [kind_congr ((getElem?_addBlock p block b).trans (if_neg hne))]

/-- What no block counts for does not add up. -/
theorem total_eq_zero (h : ∀ a, f (p.kind a) = 0) : p.total f = 0 :=
  Finset.sum_eq_zero fun a _ => h a

/-! ### Large blocks of the process -/

/-- The figures of the process are the number of its large blocks and their
usable bytes. -/
structure Tallied (p : Process) : Prop where
  blocks : p.heapBlocks = p.total BlockKind.largeCount
  bytes : p.heapBytes = p.total BlockKind.largeBytes

/-- Large blocks stay, and so do the figures. -/
theorem Tallied.of_total (h : p.Tallied) (hblocks : p'.heapBlocks = p.heapBlocks)
    (hbytes : p'.heapBytes = p.heapBytes)
    (hcount : p'.total BlockKind.largeCount = p.total BlockKind.largeCount)
    (hsum : p'.total BlockKind.largeBytes = p.total BlockKind.largeBytes) : p'.Tallied where
  blocks := by rw [hblocks, h.blocks, hcount]
  bytes := by rw [hbytes, h.bytes, hsum]

/-- The figures stay right while they and the marks stay the same. -/
theorem Tallied.alike (h : p.Tallied) (halike : p.Alike p') : p'.Tallied :=
  h.of_total halike.heapBlocks halike.heapBytes halike.total halike.total

/-- The figures stay right when only requests and events are recorded. -/
theorem Tallied.sameBut (h : p.Tallied) (hsame : p.SameBut p') : p'.Tallied := by
  have htotal {f : BlockKind → Nat} : p'.total f = p.total f := total_of_blocks hsame.blocks
  obtain ⟨_, _, -, rfl⟩ := hsame
  exact h.of_total rfl rfl htotal htotal

/-- A small block that comes into use or goes out of use is not counted. -/
theorem Tallied.setKind {kind : BlockKind} (h : p.Tallied) (hold : (p.kind a).isLarge = false)
    (hnew : kind.isLarge = false) : (p.setKind a kind).Tallied := by
  have hzero {kind : BlockKind} (hkind : kind.isLarge = false) :
      kind.largeCount = 0 ∧ kind.largeBytes = 0 := by
    cases kind with
    | heap size => cases hkind
    | _ => exact ⟨rfl, rfl⟩
  obtain ⟨holdCount, holdBytes⟩ := hzero hold
  obtain ⟨hnewCount, hnewBytes⟩ := hzero hnew
  by_cases ha : a < p.blocks.size
  · have hcount := total_setKind (f := BlockKind.largeCount) ha kind
    have hbytes := total_setKind (f := BlockKind.largeBytes) ha kind
    exact h.of_total rfl rfl (by omega) (by omega)
  · -- behind the table there is nothing to mark
    have hsame : (p.setKind a kind).blocks = p.blocks := by
      refine Array.ext_getElem? fun b => ?_
      rw [getElem?_setKind]
      by_cases hab : a = b
      · rw [if_pos hab, ← hab, Array.getElem?_eq_none (Nat.le_of_not_lt ha), Option.map_none]
      · rw [if_neg hab]
    exact h.of_total rfl rfl (total_of_blocks hsame) (total_of_blocks hsame)

/-- The figures stay right when a block that is not large is cut. -/
theorem Tallied.addBlock {block : Block} (h : p.Tallied) (hblock : block.kind.isLarge = false) :
    (p.addBlock block).2.Tallied := by
  have hcount := total_addBlock (f := BlockKind.largeCount) p block
  have hbytes := total_addBlock (f := BlockKind.largeBytes) p block
  obtain ⟨site, kind, payload⟩ := block
  cases kind with
  | heap size => cases hblock
  | _ => exact h.of_total rfl rfl hcount hbytes

/-- A large block that is new adds its own part to the sum. -/
theorem total_withLarge (p : Process) (size : Nat) :
    (p.withLarge size).total f = p.total f + f (.heap size) :=
  (total_of_blocks rfl).trans (total_addBlock p
    ⟨.region p.requests, .heap size, p.system.fresh p.requests blockPrefixSize⟩)

/-- The figures stay right when a large block is made and counted. -/
theorem Tallied.withLarge (h : p.Tallied) (size : Nat) : (p.withLarge size).Tallied where
  blocks := by
    rw [total_withLarge]
    show p.heapBlocks + 1 = ((p.total BlockKind.largeCount + 1 : Nat) : Int)
    rw [h.blocks]
    omega
  bytes := by
    rw [total_withLarge]
    show p.heapBytes + size = ((p.total BlockKind.largeBytes + size : Nat) : Int)
    rw [h.bytes]
    omega

/-- A request to the system leaves the figures right. -/
theorem Tallied.heapAlloc (h : p.Tallied) (hrun : p.heapAlloc size = (made, p')) : p'.Tallied := by
  rcases heapAlloc_cases hrun with ⟨-, hsame⟩ | ⟨-, rfl⟩
  · exact h.sameBut hsame
  · exact h.withLarge _

/-- A large block that is resized counts with its new size, wherever it is. -/
theorem total_heapRealloc {old : Nat} (hforeign : f .foreign = 0) (hkind : p.kind a = .heap old)
    (hrun : p.heapRealloc a old size = (some b, p')) :
    p'.total f + f (.heap old) = p.total f + f (.heap (max size 1)) := by
  have ha : a < p.blocks.size := lt_size_of_live (live_heap hkind)
  have hafter : (p.afterResize old (max size 1)).total f = p.total f := total_of_blocks rfl
  have hold : (p.afterResize old (max size 1)).kind a = .heap old := hkind
  rcases heapRealloc_cases hrun with ⟨hb, -⟩ | ⟨-, rfl⟩ | ⟨-, rfl⟩
  · cases hb
  · have hset := total_setKind (p := p.afterResize old (max size 1)) (f := f) ha
      (.heap (max size 1))
    rw [hold, hafter] at hset
    rw [total_modifyPayload]
    exact hset
  · -- the old place is nobody's, and the block is counted at its new one
    have hset := total_setKind (p := p.afterResize old (max size 1)) (f := f) ha .foreign
    rw [hold, hafter, hforeign] at hset
    rw [total_addBlock]
    show _ + f (.heap (max size 1)) + _ = _
    omega

/-- A large block that moved is still one block, and its bytes are counted anew. -/
theorem figures_heapRealloc {old : Nat} (hrun : p.heapRealloc a old size = (some b, p')) :
    p'.heapBlocks = p.heapBlocks ∧ p'.heapBytes = p.heapBytes + (max size 1 : Nat) - old := by
  rcases heapRealloc_cases hrun with ⟨hb, -⟩ | ⟨-, rfl⟩ | ⟨-, rfl⟩
  · cases hb
  · exact ⟨rfl, rfl⟩
  · exact ⟨rfl, rfl⟩

/-- A resize by the system leaves the figures right. -/
theorem Tallied.heapRealloc {old : Nat} (h : p.Tallied) (hkind : p.kind a = .heap old)
    (hrun : p.heapRealloc a old size = (made, p')) : p'.Tallied := by
  cases made with
  | none =>
    rcases heapRealloc_cases hrun with ⟨-, hsame⟩ | ⟨hb, -⟩ | ⟨hb, -⟩
    · exact h.sameBut hsame
    · cases hb
    · cases hb
  | some b =>
    obtain ⟨hblocks, hbytes⟩ := figures_heapRealloc hrun
    have hcount := total_heapRealloc (f := BlockKind.largeCount) rfl hkind hrun
    have hsum := total_heapRealloc (f := BlockKind.largeBytes) rfl hkind hrun
    simp only [BlockKind.largeCount, BlockKind.isLarge, BlockKind.largeBytes] at hcount hsum
    have holdBlocks := h.blocks
    have holdBytes := h.bytes
    exact ⟨by omega, by omega⟩

/-- A large block that goes back to the system counts no more. -/
theorem total_heapFree (hforeign : f .foreign = 0) (hkind : p.kind a = .heap size) :
    (p.heapFree a size).total f + f (.heap size) = p.total f := by
  have hset := total_setKind (f := f) (lt_size_of_live (live_heap hkind)) .foreign
  rw [hkind, hforeign] at hset
  exact hset

/-- A release to the system leaves the figures right. -/
theorem Tallied.heapFree (h : p.Tallied) (hkind : p.kind a = .heap size) :
    (p.heapFree a size).Tallied := by
  have hcount := total_heapFree (f := BlockKind.largeCount) rfl hkind
  have hsum := total_heapFree (f := BlockKind.largeBytes) rfl hkind
  simp only [BlockKind.largeCount, BlockKind.isLarge, BlockKind.largeBytes] at hcount hsum
  have hblocks : (p.heapFree a size).heapBlocks = p.heapBlocks - 1 := rfl
  have hbytes : (p.heapFree a size).heapBytes = p.heapBytes - size := rfl
  have holdBlocks := h.blocks
  have holdBytes := h.bytes
  rw [Bool.toNat_true] at hcount
  exact ⟨by omega, by omega⟩

/-- No block in use is large when none is in use at all. -/
theorem total_eq_zero_of_idle (hfreed : ∀ cls, f (.freed cls) = 0) (hforeign : f .foreign = 0)
    (hidle : ∀ a, ¬ p.Live a) : p.total f = 0 := by
  refine total_eq_zero fun a => ?_
  have hlive := hidle a
  rw [Live] at hlive
  cases hkind : p.kind a with
  | pool cls => simp [hkind, BlockKind.isLive] at hlive
  | heap size => simp [hkind, BlockKind.isLive] at hlive
  | freed cls => exact hfreed cls
  | foreign => exact hforeign

end Process

/-! ### The process under any allocator -/

namespace Storage

variable {s s' : Storage} {a : Address} {size : Nat} {made : Option Address}

/-- The figures of the process are right after a request was answered. -/
theorem Served.processTallied (h : Served s size made s')
    (hlisted : s.allocator.Listed s.process) (hs : s.process.Tallied) : s'.process.Tallied := by
  cases h with
  | @reused cls a rest hcls hlist =>
    have hkind := hlisted.freed cls a (by rw [hlist]; exact List.mem_cons_self)
    exact hs.setKind (by rw [hkind]; rfl) rfl
  | carved hcls hlist hcarve => exact (hs.sameBut (ArenaPool.sameBut_carve hcarve)).addBlock rfl
  | uncarved hcls hlist hcarve => exact hs.sameBut (ArenaPool.sameBut_carve hcarve)
  | large hcls hlimit => exact hs.withLarge _
  | refused hcls hsame => exact hs.sameBut hsame

/-- The figures of the process are right after a block was released. -/
theorem Freed.processTallied (h : Freed s a s') (hs : s.process.Tallied) : s'.process.Tallied := by
  cases h with
  | pool hkind => exact hs.setKind (by rw [hkind]; rfl) rfl
  | heap hkind => exact hs.heapFree hkind

/-- The figures of the process are right after a block was resized. -/
theorem Resized.processTallied (h : Resized s a size made s')
    (hlisted : s.allocator.Listed s.process) (hs : s.process.Tallied) : s'.process.Tallied := by
  cases h with
  | stays => exact hs
  | @moved b s₁ _ hkind hserved hfreed =>
    have hcopied := (Process.Alike.refl s₁.process).modifyPayload b
      (·.copyFrom (s₁.process.payload a) (min (s.process.kind a).usable size))
    exact hfreed.processTallied ((hserved.processTallied hlisted hs).alike hcopied)
  | unmoved hserved => exact hserved.processTallied hlisted hs
  | resized hkind hcls hlimit hheap => exact hs.heapRealloc hkind hheap
  | refused hsame => exact hs.sameBut hsame

/-- The figures of the process stay right whichever allocator answers. -/
theorem RequestEffect.processTallied {ended : Option Address}
    (h : s.RequestEffect size ended made s')
    (hlisted : s.allocator.Listed s.process) (hs : s.process.Tallied) : s'.process.Tallied := by
  cases h with
  | served hserved => exact hserved.processTallied hlisted hs
  | resized hresized => exact hresized.processTallied hlisted hs
  | unresized hresized => exact hresized.processTallied hlisted hs
  | freed hfreed => exact hfreed.processTallied hs

end Storage

/-! ### The only allocator -/

namespace Storage

variable {s s' : Storage} {a b : Address} {size : Nat} {made : Option Address}

/-- The figures of the process are right, and so are those of an allocator that
made all blocks that are in use. -/
structure Tallied (s : Storage) : Prop where
  process : s.process.Tallied
  inUse : s.allocator.inUse = s.process.total BlockKind.smallCount
  heapLive : s.allocator.heapLive = s.process.total BlockKind.largeBytes

/-- All figures are right at first, when there is no block. -/
theorem tallied_new (settings : AllocatorSettings) (system : System) :
    Tallied ⟨.new settings, { system }⟩ where
  process := ⟨rfl, rfl⟩
  inUse := rfl
  heapLive := rfl

/-- The storage is the same to all counters. -/
theorem Tallied.alike (h : s.Tallied) (halike : s.Alike s') : s'.Tallied where
  process := h.process.alike halike.process
  inUse := by rw [halike.allocator, h.inUse, halike.process.total]
  heapLive := by rw [halike.allocator, h.heapLive, halike.process.total]

/-- A refusal leaves the counters and the marks. -/
theorem Tallied.sameBut {arenas : ArenaPool} {process : Process} (h : s.Tallied)
    (hsame : s.process.SameBut process) :
    Tallied { allocator := { s.allocator with arenas }, process } where
  process := h.process.sameBut hsame
  inUse := h.inUse.trans (Process.total_of_blocks hsame.blocks).symm
  heapLive := h.heapLive.trans (Process.total_of_blocks hsame.blocks).symm

/-- A small block that is marked changes the number of small blocks by one. -/
theorem total_setKind_small {p : Process} {f : BlockKind → Nat} {cls : SizeClass}
    (hkind : p.kind a = .freed cls) (hfreed : f (.freed cls) = 0) :
    (p.setKind a (.pool cls)).total f = p.total f + f (.pool cls) := by
  have hset := Process.total_setKind (f := f)
    (Process.lt_size_of_kind (by rw [hkind]; nofun)) (.pool cls)
  rw [hkind, hfreed] at hset
  exact hset

/-- All figures are right after a request was answered. -/
theorem Served.tallied (h : Served s size made s') (hlisted : s.allocator.Listed s.process)
    (hs : s.Tallied) : s'.Tallied := by
  have hprocess := h.processTallied hlisted hs.process
  cases h with
  | @reused cls a rest hcls hlist =>
    -- a block that waited is counted by no figure until it is marked as in use
    have hkind := hlisted.freed cls a (by rw [hlist]; exact List.mem_cons_self)
    refine ⟨hprocess, ?_, ?_⟩
    · show s.allocator.inUse + 1 = _
      rw [total_setKind_small hkind rfl, hs.inUse]
      rfl
    · show s.allocator.heapLive = _
      rw [total_setKind_small hkind rfl, hs.heapLive]
      rfl
  | @carved cls region start arenas process hcls hlist hcarve =>
    have hsame := ArenaPool.sameBut_carve hcarve
    have hblocks {f : BlockKind → Nat} : process.total f = s.process.total f :=
      Process.total_of_blocks hsame.blocks
    refine ⟨hprocess, ?_, ?_⟩
    · show s.allocator.inUse + 1 = _
      rw [Process.total_addBlock, hblocks, hs.inUse]
      rfl
    · show s.allocator.heapLive = _
      rw [Process.total_addBlock, hblocks, hs.heapLive]
      rfl
  | uncarved hcls hlist hcarve => exact hs.sameBut (ArenaPool.sameBut_carve hcarve)
  | large hcls hlimit =>
    refine ⟨hprocess, ?_, ?_⟩
    · show s.allocator.inUse = _
      rw [Process.total_withLarge, hs.inUse]
      rfl
    · show s.allocator.heapLive + max size 1 = _
      rw [Process.total_withLarge, hs.heapLive]
      rfl
  | refused hcls hsame => exact hs.sameBut hsame

/-- All figures are right after a block was released. -/
theorem Freed.tallied (h : Freed s a s') (hs : s.Tallied) : s'.Tallied := by
  have hprocess := h.processTallied hs.process
  cases h with
  | @pool cls hkind =>
    -- both figures are sums over marks, so what matters is the one mark that changed
    have hset {f : BlockKind → Nat} : (s.process.setKind a (.freed cls)).total f + f (.pool cls) =
        s.process.total f + f (.freed cls) := by
      rw [← hkind]
      exact Process.total_setKind (Process.lt_size_of_live (Process.live_pool hkind)) _
    have hsmall := hset (f := BlockKind.smallCount)
    have hlarge := hset (f := BlockKind.largeBytes)
    simp only [BlockKind.smallCount, BlockKind.isSmall, BlockKind.largeBytes] at hsmall hlarge
    refine ⟨hprocess, ?_, ?_⟩
    · show s.allocator.inUse - 1 = (s.process.setKind a (.freed cls)).total BlockKind.smallCount
      rw [hs.inUse]
      exact Nat.sub_eq_of_eq_add hsmall.symm
    · show s.allocator.heapLive = (s.process.setKind a (.freed cls)).total BlockKind.largeBytes
      rw [hs.heapLive]
      exact hlarge.symm
  | @heap size hkind =>
    have hsmall := Process.total_heapFree (f := BlockKind.smallCount) rfl hkind
    have hlarge := Process.total_heapFree (f := BlockKind.largeBytes) rfl hkind
    refine ⟨hprocess, ?_, ?_⟩
    · show s.allocator.inUse = (s.process.heapFree a size).total BlockKind.smallCount
      rw [hs.inUse]
      exact hsmall.symm
    · show s.allocator.heapLive - size = (s.process.heapFree a size).total BlockKind.largeBytes
      rw [hs.heapLive]
      exact Nat.sub_eq_of_eq_add hlarge.symm

/-- All figures are right after a block was resized. -/
theorem Resized.tallied (h : Resized s a size made s') (hlisted : s.allocator.Listed s.process)
    (hs : s.Tallied) : s'.Tallied := by
  have hprocess := h.processTallied hlisted hs.process
  cases h with
  | stays => exact hs
  | @moved b s₁ _ hkind hserved hfreed =>
    have halike : s₁.Alike (s₁.withCopy a b (min (s.process.kind a).usable size)) :=
      ⟨rfl, (Process.Alike.refl s₁.process).modifyPayload b
        (·.copyFrom (s₁.process.payload a) (min (s.process.kind a).usable size))⟩
    exact hfreed.tallied ((hserved.tallied hlisted hs).alike halike)
  | unmoved hserved => exact hserved.tallied hlisted hs
  | @resized old b process hkind hcls hlimit hheap =>
    have hsmall := Process.total_heapRealloc (f := BlockKind.smallCount) rfl hkind hheap
    have hlarge := Process.total_heapRealloc (f := BlockKind.largeBytes) rfl hkind hheap
    refine ⟨hprocess, ?_, ?_⟩
    · show s.allocator.inUse = process.total BlockKind.smallCount
      rw [hs.inUse]
      exact hsmall.symm
    · show s.allocator.heapLive - old + max size 1 = process.total BlockKind.largeBytes
      have hbytes := hs.heapLive
      -- the old bytes are part of the sum, so the subtraction takes off what it should
      have hle : old ≤ s.process.total BlockKind.largeBytes := by
        have hset := Process.total_setKind (f := BlockKind.largeBytes)
          (Process.lt_size_of_live (Process.live_heap hkind)) .foreign
        rw [hkind] at hset
        simp only [BlockKind.largeBytes] at hset
        omega
      simp only [BlockKind.largeBytes] at hlarge
      omega
  | refused hsame => exact hs.sameBut hsame

/-- Whatever the only allocator does, its counters stay right. -/
theorem RequestEffect.tallied {ended : Option Address} (h : s.RequestEffect size ended made s')
    (hlisted : s.allocator.Listed s.process) (hs : s.Tallied) : s'.Tallied := by
  cases h with
  | served hserved => exact hserved.tallied hlisted hs
  | resized hresized => exact hresized.tallied hlisted hs
  | unresized hresized => exact hresized.tallied hlisted hs
  | freed hfreed => exact hfreed.tallied hs

/-- When no block is in use, all counters are zero. -/
theorem Tallied.idle (h : s.Tallied) (hidle : ∀ a, ¬ s.process.Live a) :
    s.allocator.inUse = 0 ∧ s.allocator.heapLive = 0 ∧ s.process.heapBlocks = 0 ∧
      s.process.heapBytes = 0 := by
  have hzero {f : BlockKind → Nat} (hfreed : ∀ cls, f (.freed cls) = 0)
      (hforeign : f .foreign = 0) : s.process.total f = 0 :=
        Process.total_eq_zero_of_idle hfreed hforeign hidle
  refine ⟨h.inUse.trans (hzero (fun _ => rfl) rfl), h.heapLive.trans (hzero (fun _ => rfl) rfl),
    ?_, ?_⟩
  · rw [h.process.blocks, hzero (fun _ => rfl) rfl]
    rfl
  · rw [h.process.bytes, hzero (fun _ => rfl) rfl]
    rfl

end Storage

end ExtensionHost
