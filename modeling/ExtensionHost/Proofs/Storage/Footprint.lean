import ExtensionHost.Proofs.Storage.Balance
import ExtensionHost.Proofs.Storage.Tally

/-!
# `ExtensionHost.Proofs.Storage.Footprint`: what an allocator has from the system

The limit of an allocator is checked against its arenas and the usable bytes
of its large blocks. From the system it has a little more: the region of a
large block also holds what is written in front of the block. So the limit is
not a bound on what an allocator has from the system, and the smallest case
is a single block that fills the limit (`footprint_not_within_limit`).

The excess is one prefix for each large block that is held, and there cannot
be many of those, because only requests that no class serves make one
(`Run.large`). `footprint_of_run` puts the two together: whatever the
requests were, an allocator has at most sixteen bytes more than its limit for
every 1025 bytes of it.
-/

set_option autoImplicit false

namespace ExtensionHost

namespace BlockKind

/-- The bytes of the region of a block, if it has one of its own. -/
def regionBytes : BlockKind → Nat
  | heap size => size + blockPrefixSize
  | pool _ | freed _ | foreign => 0

end BlockKind

namespace Process

variable {p p' : Process} {blocks : List Address}

/-- How many of the blocks are large. -/
def largeCount (p : Process) (blocks : List Address) : Nat :=
  blocks.countP fun a => (p.kind a).isLarge

/-- The bytes of the regions of the blocks. -/
def regionBytes (p : Process) (blocks : List Address) : Nat :=
  (blocks.map fun a => (p.kind a).regionBytes).sum

/-- A block more is counted if it is a large one. -/
theorem largeCount_cons (p : Process) (a : Address) (rest : List Address) :
    p.largeCount (a :: rest) = p.largeCount rest + if (p.kind a).isLarge then 1 else 0 :=
  List.countP_cons

/-- Large blocks are counted list by list. -/
theorem largeCount_append (p : Process) (blocks blocks' : List Address) :
    p.largeCount (blocks ++ blocks') = p.largeCount blocks + p.largeCount blocks' :=
  List.countP_append

/-- Large blocks are counted in any order. -/
theorem largeCount_perm {blocks' : List Address} (p : Process) (h : blocks.Perm blocks') :
    p.largeCount blocks = p.largeCount blocks' :=
  h.countP_eq _

/-- Large blocks are counted by their marks. -/
theorem largeCount_congr (h : ∀ a ∈ blocks, p'.kind a = p.kind a) :
    p'.largeCount blocks = p.largeCount blocks :=
  List.countP_congr fun a ha => by rw [h a ha]

/-- The bytes of a block more are counted if it is a large one. -/
theorem largeBytes_cons (p : Process) (a : Address) (rest : List Address) :
    p.largeBytes (a :: rest) = (p.kind a).largeBytes + p.largeBytes rest :=
  List.sum_cons

/-- The region of a block more is counted if it is a large one. -/
theorem regionBytes_cons (p : Process) (a : Address) (rest : List Address) :
    p.regionBytes (a :: rest) = (p.kind a).regionBytes + p.regionBytes rest :=
  List.sum_cons

/-- Every large block costs its usable bytes and one prefix. -/
theorem regionBytes_eq (p : Process) (blocks : List Address) :
    p.regionBytes blocks = p.largeBytes blocks + blockPrefixSize * p.largeCount blocks := by
  induction blocks with
  | nil => rfl
  | cons a rest ih =>
    have hhead : (p.kind a).regionBytes =
        (p.kind a).largeBytes + blockPrefixSize * if (p.kind a).isLarge then 1 else 0 := by
      cases p.kind a <;> rfl
    rw [regionBytes_cons, largeBytes_cons, largeCount_cons, ih, hhead, Nat.mul_add]
    omega

/-- The large ones among the blocks have more bytes than a small block can
have. -/
def Large (p : Process) (blocks : List Address) : Prop :=
  ∀ a ∈ blocks, ∀ size, p.kind a = .heap size → SizeClass.threshold < size

/-- Blocks with the same marks are large alike. -/
theorem Large.congr (h : p.Large blocks) (hkind : ∀ a ∈ blocks, p'.kind a = p.kind a) :
    p'.Large blocks := by
  intro a ha size hsize
  rw [hkind a ha] at hsize
  exact h a ha size hsize

/-- A limit on the bytes of large blocks is one on their number. -/
theorem Large.count_le (h : p.Large blocks) :
    (SizeClass.threshold + 1) * p.largeCount blocks ≤ p.largeBytes blocks := by
  induction blocks with
  | nil => exact Nat.le_refl _
  | cons a rest ih =>
    have hrest := ih fun b hb => h b (List.mem_cons_of_mem a hb)
    have hhead : (SizeClass.threshold + 1) * (if (p.kind a).isLarge then 1 else 0) ≤
        (p.kind a).largeBytes := by
      cases hkind : p.kind a with
      | heap size => exact h a List.mem_cons_self size hkind
      | pool cls => exact Nat.le_refl _
      | freed cls => exact Nat.le_refl _
      | foreign => exact Nat.le_refl _
    rw [largeBytes_cons, largeCount_cons, Nat.mul_add]
    omega

end Process

namespace Storage

variable {settings : AllocatorSettings} {s s' : Storage} {a b : Address} {size : Nat}
  {blocks : List Address} {made : Option Address}

/-! ### Large blocks are large -/

/-- What is handed out is a large block only if no class serves the request. -/
theorem Served.large_made (h : Served s size (some a) s') (hlisted : s.allocator.Listed s.process)
    {bytes : Nat} (hkind : s'.process.kind a = .heap bytes) : SizeClass.threshold < bytes := by
  have hmade := h.kind hlisted
  rw [hkind] at hmade
  cases hcls : SizeClass.ofSize? size with
  | some cls => simp [hcls] at hmade
  | none =>
    have hsize := SizeClass.ofSize?_eq_none_iff.1 hcls
    simp only [hcls, BlockKind.heap.injEq] at hmade
    omega

/-- The same holds of the block that a resize answers with. -/
theorem Resized.large_made (h : Resized s a size (some b) s')
    (hlisted : s.allocator.Listed s.process) (ha : s.process.Live a) {bytes : Nat}
    (hkind : s'.process.kind b = .heap bytes) : SizeClass.threshold < bytes := by
  cases h with
  | stays hpool hcls =>
    rw [hpool] at hkind
    cases hkind
  | @moved b s₁ _ hcls hserved hfreed =>
    -- the copy that is kept is the one that was handed out
    have hba : b ≠ a := fun heq => hserved.not_live hlisted (heq ▸ ha)
    have hsame := Process.kind_congr (hfreed.frees.others b hba)
    have hcopy : (s₁.withCopy a b (min (s.process.kind a).usable size)).process.kind b =
        s₁.process.kind b := kind_withCopy s₁ a b _ b
    rw [hsame, hcopy] at hkind
    exact hserved.large_made hlisted hkind
  | @resized old b process hold hcls hlimit hheap =>
    obtain ⟨-, hnew, -, -⟩ := Process.heapRealloc_some hheap hold
    have hsize := SizeClass.ofSize?_eq_none_iff.1 hcls
    have hbytes : BlockKind.heap (max size 1) = .heap bytes := hnew.symm.trans hkind
    simp only [BlockKind.heap.injEq] at hbytes
    omega

/-- Whatever an allocator does, the other blocks in use keep their marks, and
a block that comes into use is large only if it has to be. -/
theorem RequestEffect.large {ended : Option Address} (h : RequestEffect s size ended made s')
    (hlisted : s.allocator.Listed s.process) (hlive : ∀ c ∈ blocks, s.process.Live c)
    (honce : blocks.Nodup) (hended : ∀ c, ended = some c → c ∈ blocks)
    (hlarge : s.process.Large blocks) :
    s'.process.Large (made.toList ++ blocks.diff ended.toList) := by
  have hmade : ∀ c, made = some c → ∀ bytes, s'.process.kind c = .heap bytes →
      SizeClass.threshold < bytes := by
    rintro c rfl bytes hkind
    cases h with
    | served hserved => exact hserved.large_made hlisted hkind
    | @resized a _ _ hresized =>
      exact hresized.large_made hlisted (hlive a (hended a rfl)) hkind
  have hothers : ∀ c ∈ blocks, ended ≠ some c → made ≠ some c →
      s'.process.blocks[c]? = s.process.blocks[c]? := by
    intro c hc hne hcm
    cases h with
    | served hserved => exact hserved.getElem?_of_ne hcm
    | @resized a _ _ hresized =>
      have hmoves := hresized.moves (hlive a (hended a rfl)) hlisted
      exact hmoves.others c (fun heq => hne (by rw [heq])) hcm
    | unresized hresized =>
      exact ((RequestEffect.unresized hresized).hands hlisted).others c nofun
    | freed hfreed => exact hfreed.frees.others c fun heq => hne (by rw [heq])
  intro c hc bytes hkind
  -- a block that stays was large enough before
  by_cases hcm : made = some c
  · exact hmade c hcm bytes hkind
  · have hmem : c ∈ blocks.diff ended.toList := by
      rcases List.mem_append.1 hc with hc | hc
      · exact absurd (Option.mem_toList.1 hc) hcm
      · exact hc
    obtain ⟨hblock, hne⟩ := (honce.mem_sdiff_iff).1 hmem
    have hsame := hothers c hblock (fun heq => hne (Option.mem_toList.2 heq)) hcm
    rw [Process.kind_congr hsame] at hkind
    exact hlarge c hblock bytes hkind

/-- At any time of any run the large blocks that are held have more than 1024
bytes. -/
theorem Run.large {process : Process} {history : History}
    (h : Run ⟨.new settings, process⟩ history s) : s.process.Large (held history) := by
  induction h with
  | start => simp [Process.Large, held]
  | @request past s s' request made hpast hheld hrun ih =>
    have hbooks := hpast.books
    obtain ⟨made', s₁, s₂, hran, heffect, halike⟩ := effect_answer hbooks.listed request
      fun a ha => hbooks.live a (hheld a ha)
    rw [hran] at hrun
    cases hrun
    have hnext := heffect.large hbooks.listed hbooks.live hbooks.once
      (fun a ha => hheld a (Request.target_of_ended ha)) ih
    exact hnext.congr fun a _ => halike.process.kind a
  | elsewhere hpast hheld hwaiting ih => exact ih.congr hheld

/-! ### What an allocator has from the system -/

/-- The bytes that an allocator has from the system when these blocks are
held: its arenas, and the regions of the large blocks. -/
def footprint (s : Storage) (blocks : List Address) : Nat :=
  s.allocator.arenas.total + s.process.regionBytes blocks

/-- At any time of any run of one allocator, what it has from the system is
what counts against its limit and one prefix for each large block that is
held. So it has more than the limit by at most those prefixes, and as each
large block has more than 1024 bytes, the limit also bounds their number. -/
theorem footprint_of_run {process : Process} {history : History}
    (h : Run ⟨.new settings, process⟩ history s) :
    s.footprint (held history) = s.allocator.arenas.total + s.allocator.heapLive +
        blockPrefixSize * s.process.largeCount (held history) ∧
      ∀ limit, settings.memoryLimit = some limit →
        s.footprint (held history) ≤
          limit + blockPrefixSize * s.process.largeCount (held history) ∧
        s.process.largeCount (held history) ≤ limit / (SizeClass.threshold + 1) := by
  have hbooks := h.books
  have hcost : s.footprint (held history) = s.allocator.arenas.total + s.allocator.heapLive +
      blockPrefixSize * s.process.largeCount (held history) := by
    rw [footprint, Process.regionBytes_eq, hbooks.heapLive, Nat.add_assoc]
  refine ⟨hcost, fun limit hlimit => ?_⟩
  have hbudget := hbooks.budget.total limit (by rw [hbooks.settings]; exact hlimit)
  refine ⟨by omega, (Nat.le_div_iff_mul_le (Nat.succ_pos _)).2 ?_⟩
  calc s.process.largeCount (held history) * (SizeClass.threshold + 1)
    _ = (SizeClass.threshold + 1) * s.process.largeCount (held history) := Nat.mul_comm _ _
    _ ≤ s.allocator.heapLive := hbooks.heapLive ▸ h.large.count_le
    _ ≤ limit := by omega

/-- Two blocks of 1025 bytes under a limit of 2050. -/
def filled : Option (History × Storage) :=
  follow [.malloc 1025, .malloc 1025]
    ([], ⟨.new ⟨4096, 4096, some 2050⟩, { system := .bounded 8192 }⟩)

/-- The excess is as large as it can be then: two prefixes, and there is no
limit of 2050 bytes under which three large blocks are held. -/
theorem footprint_filled : ∃ history s, filled = some (history, s) ∧
    Run ⟨.new ⟨4096, 4096, some 2050⟩, { system := .bounded 8192 }⟩ history s ∧
    s.footprint (held history) = 2082 ∧ s.process.largeCount (held history) = 2 ∧
    2082 ≤ 2050 + blockPrefixSize * 2 ∧ 2 ≤ 2050 / (SizeClass.threshold + 1) := by
  obtain ⟨⟨history, s⟩, hrun⟩ : ∃ now, filled = some now := Option.isSome_iff_exists.1 (by decide)
  have hread : ∀ {α : Type} (g : History × Storage → α), filled.map g = some (g (history, s)) := by
    intro α g
    rw [hrun]
    rfl
  have hreach := run_follow .start hrun
  obtain ⟨hcost, hlimit⟩ := footprint_of_run hreach
  have hlarge : s.process.largeCount (held history) = 2 :=
    Option.some.inj ((hread fun now => now.2.process.largeCount (held now.1)).symm.trans
      (by decide))
  have harenas : s.allocator.arenas.total = 0 :=
    Option.some.inj ((hread fun now => now.2.allocator.arenas.total).symm.trans (by decide))
  have hlive : s.allocator.heapLive = 2050 :=
    Option.some.inj ((hread fun now => now.2.allocator.heapLive).symm.trans (by decide))
  obtain ⟨hexcess, hfew⟩ := hlimit 2050 rfl
  rw [hlarge, harenas, hlive] at hcost
  rw [hlarge] at hexcess hfew
  rw [hcost] at hexcess
  exact ⟨history, s, hrun, hreach, hcost, hlarge, hexcess, hfew⟩

/-- The limit is not a bound on what an allocator has from the system: a block
of 2000 bytes is handed out under a limit of 2000, and its region has 2016. -/
theorem footprint_not_within_limit : ¬ ∀ settings process history s limit,
    Run ⟨.new settings, process⟩ history s → settings.memoryLimit = some limit →
      s.footprint (held history) ≤ limit := by
  intro hwithin
  obtain ⟨⟨history, s⟩, hrun⟩ :
      ∃ now, follow [.malloc 2000]
        ([], ⟨.new ⟨4096, 4096, some 2000⟩, { system := .bounded 8192 }⟩) = some now :=
    Option.isSome_iff_exists.1 (by decide)
  have hread : (follow [.malloc 2000]
      ([], ⟨.new ⟨4096, 4096, some 2000⟩, { system := .bounded 8192 }⟩)).map
        (fun now => now.2.footprint (held now.1)) = some (s.footprint (held history)) := by
    rw [hrun]
    rfl
  have hfootprint : s.footprint (held history) = 2016 :=
    Option.some.inj (hread.symm.trans (by decide))
  have hle := hwithin _ _ _ _ 2000 (run_follow .start hrun) rfl
  rw [hfootprint] at hle
  exact absurd hle (by decide)

end Storage

end ExtensionHost
