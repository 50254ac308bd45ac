import ExtensionHost.Proofs.Storage.Drift
import ExtensionHost.Proofs.Storage.Footprint

/-!
# `ExtensionHost.Proofs.Storage.Census`: the figures that all threads share

`Drift` says how far the figure of one allocator can be off with several threads. The
process keeps two figures of its own, the number of large blocks and their
bytes, and those cannot be off at all. They are written where a large block is
made, resized or taken back, and not by the allocator that was asked. So it
does not matter which member a request goes to, by which family of entry
points, and whether the member can reach its allocator.

`ThreadedStorage.tallied_of_run` is the invariant, over the marks in the table. A block is
marked as in use exactly if somebody holds it (`SharedStorage.Sound.live`), so the
totals over the table are totals over the blocks that are held. That a
subtraction never goes below zero is then a fact about sums: what is
subtracted belongs to one of the blocks that are counted. What a request does
to the figures (`census_request`) follows from the invariant before and
after it, since the blocks that it does not end keep their marks.
-/

set_option autoImplicit false

namespace ExtensionHost

/-! ### Totals over the blocks that are held -/

namespace Process

variable {p p' : Process} {blocks : List Address} {f : BlockKind → Nat}

/-- If all blocks in use are on a list, a figure that no other block counts
for adds up over the list. -/
theorem total_of_held (hfreed : ∀ cls, f (.freed cls) = 0) (hforeign : f .foreign = 0)
    (hlive : ∀ a, a ∈ blocks ↔ p.Live a) (honce : blocks.Nodup) :
    p.total f = (blocks.map fun a => f (p.kind a)).sum := by
  have hsubset : blocks.toFinset ⊆ Finset.range p.blocks.size := fun a ha =>
    Finset.mem_range.2 (lt_size_of_live ((hlive a).1 (List.mem_toFinset.1 ha)))
  have hidle : ∀ a ∈ Finset.range p.blocks.size, a ∉ blocks.toFinset → f (p.kind a) = 0 := by
    intro a _ ha
    have hnot : ¬ p.Live a := fun h => ha (List.mem_toFinset.2 ((hlive a).2 h))
    cases hkind : p.kind a with
    | pool cls => exact absurd (live_pool hkind) hnot
    | heap size => exact absurd (live_heap hkind) hnot
    | freed cls => exact hfreed cls
    | foreign => exact hforeign
  rw [total, ← Finset.sum_subset hsubset hidle, List.sum_toFinset _ honce]

/-- The number of large blocks is a sum over the blocks. -/
theorem largeCount_eq_sum (p : Process) (blocks : List Address) :
    p.largeCount blocks = (blocks.map fun a => (p.kind a).largeCount).sum := by
  induction blocks with
  | nil => rfl
  | cons a rest ih =>
    have hhead : (p.kind a).largeCount = if (p.kind a).isLarge then 1 else 0 := by
      rw [BlockKind.largeCount]
      cases (p.kind a).isLarge <;> rfl
    rw [largeCount_cons, List.map_cons, List.sum_cons, ih, hhead, Nat.add_comm]

/-- The figures of the process are those of the blocks that are held. -/
theorem Tallied.census (h : p.Tallied) (hlive : ∀ a, a ∈ blocks ↔ p.Live a)
    (honce : blocks.Nodup) :
    p.heapBlocks = p.largeCount blocks ∧ p.heapBytes = p.largeBytes blocks := by
  refine ⟨?_, ?_⟩
  · rw [h.blocks, total_of_held (fun _ => rfl) rfl hlive honce, largeCount_eq_sum]
  · rw [h.bytes, total_of_held (fun _ => rfl) rfl hlive honce, largeBytes]

/-- What happens without an allocator keeps the figures right. -/
theorem RequestEffect.tallied {size : Nat} {ended made : Option Address}
    (h : p.RequestEffect size ended made p')
    (hp : p.Tallied) : p'.Tallied := by
  cases h with
  | made hmade => exact hp.heapAlloc hmade
  | refused hsame => exact hp.sameBut hsame
  | resized hkind hheap => exact hp.heapRealloc hkind hheap
  | @evicted a b cls p₁ hkind hmade =>
    -- the block that is retired is a small one also after the large one was made
    have hpool := kind_evicted (·.copyFrom (p₁.payload a) (min cls.bytes size)) hkind hmade
    have hcopied := (Alike.refl p₁).modifyPayload b (·.copyFrom (p₁.payload a) (min cls.bytes size))
    exact ((hp.heapAlloc hmade).alike hcopied).setKind (by rw [hpool]; rfl) rfl
  | returned hkind => exact hp.heapFree hkind
  | retired hkind => exact hp.setKind (by rw [hkind]; rfl) rfl

end Process

/-- What an entry point does keeps the figures of the process right. -/
theorem Memory.RequestEffect.processTallied {m m' : Memory} {size : Nat}
    {ended made : Option Address}
    {through : Bool} (h : m.RequestEffect size ended made through m') (hsound : m.Sound)
    (hm : m.process.Tallied) : m'.process.Tallied := by
  cases h with
  | pooled heffect => exact heffect.processTallied hsound hm
  | unpooled heffect => exact heffect.tallied hm

/-! ### Storage of several threads -/

namespace ThreadedStorage

variable {c c' : ThreadedStorage} {l : Ledger} {made : Option Address} {i : Nat} {server : Server}
  {request : Request}

/-- Whatever the threads do, the figures of the process stay right. -/
theorem tallied_step {command : Command} (hsound : c.shared.Sound) (h : c.shared.process.Tallied)
    (hstep : c.Step command made c') : c'.shared.process.Tallied := by
  cases hstep with
  | install settings => exact h
  | join settings => exact h
  | lend hi hlent => exact h
  | giveBack hi => exact h
  | @leave i hi =>
    -- the arenas stay with the process, and its blocks with them
    show (c.view i).endThread.process.Tallied
    rw [Memory.endThread]
    split
    · exact h
    · exact ⟨h.blocks, h.bytes⟩
  | @request i server request made m hi hown hheld hrun =>
    obtain ⟨made', m₁, m', through, hran, heffect, halike, -⟩ :=
      effect_request hsound i server request hheld
    rw [hran] at hrun
    cases hrun
    exact (heffect.processTallied (sound_view hsound i) h).alike halike.process

/-- At any time of a run the figures of the process are right. -/
theorem tallied_of_run (h : Run c l) : c.shared.process.Tallied := by
  induction h with
  | start system timing => exact ⟨rfl, rfl⟩
  | step hrun hstep ih => exact tallied_step hrun.accounted.sound ih hstep

/-- The figures of the process are those of the blocks that are held. -/
theorem census (h : Run c l) :
    c.shared.process.heapBlocks = c.shared.process.largeCount c.shared.held ∧
      c.shared.process.heapBytes = c.shared.process.largeBytes c.shared.held :=
  (tallied_of_run h).census h.accounted.sound.live h.accounted.sound.once

/-- What is subtracted from the figures belongs to a block that is held, so
they have it. -/
theorem enough_of_run (h : Run c l) {a : Address} {size : Nat}
    (hkind : c.shared.process.kind a = .heap size) :
    1 ≤ c.shared.process.heapBlocks ∧ (size : Int) ≤ c.shared.process.heapBytes := by
  obtain ⟨hblocks, hbytes⟩ := census h
  have hheld : a ∈ c.shared.held := (h.accounted.sound.live a).2 (Process.live_heap hkind)
  have hperm := List.perm_cons_erase hheld
  have hcount : 1 ≤ c.shared.process.largeCount c.shared.held := by
    rw [Process.largeCount_perm _ hperm, Process.largeCount_cons, hkind]
    exact Nat.le_add_left _ _
  have hsum : size ≤ c.shared.process.largeBytes c.shared.held := by
    rw [Process.largeBytes_perm _ hperm, Process.largeBytes_cons, hkind]
    exact Nat.le_add_right _ _
  omega

/-- A request moves the figures by the large block that it hands out and by
the one that it ends. -/
theorem census_request (h : Run c l) (hstep : c.Step (.request i server request) made c') :
    c'.shared.process.heapBlocks = c.shared.process.heapBlocks
        - c.shared.process.largeCount (request.ended made).toList
        + c'.shared.process.largeCount made.toList ∧
      c'.shared.process.heapBytes = c.shared.process.heapBytes
        - c.shared.process.largeBytes (request.ended made).toList
        + c'.shared.process.largeBytes made.toList := by
  have hsound := h.accounted.sound
  obtain ⟨hblocks, hbytes⟩ := census h
  obtain ⟨hblocks', hbytes'⟩ := census (.step h hstep)
  cases hstep with
  | @request _ _ _ _ m hi hown hheld hrun =>
    obtain ⟨made', m₁, m', through, hran, heffect, halike, -⟩ :=
      effect_request hsound i server request hheld
    rw [hran] at hrun
    cases hrun
    have hended : ∀ a, request.ended made = some a → a ∈ c.shared.held :=
      fun a ha => hheld a (Request.target_of_ended ha)
    have hold := held_perm hended
    have hnew : (c.served i (request.bytes server) (request.ended made) made m).shared.held.Perm
        (made.toList ++ c.shared.held.diff (request.ended made).toList) :=
      SharedStorage.held_note_perm (c.view i).theAllocator _ made hended
    -- the blocks that stay count before and after alike
    have hkept : ∀ b ∈ c.shared.held.diff (request.ended made).toList,
        m.process.kind b = c.shared.process.kind b :=
      fun b hb => (kept_served hsound hended heffect halike hb).2
    have hcount := Process.largeCount_congr hkept
    have hsum := Process.largeBytes_congr hkept
    rw [Process.largeCount_perm _ hold, Process.largeCount_append] at hblocks
    rw [Process.largeBytes_perm _ hold, Process.largeBytes_append] at hbytes
    rw [Process.largeCount_perm _ hnew, Process.largeCount_append] at hblocks'
    rw [Process.largeBytes_perm _ hnew, Process.largeBytes_append] at hbytes'
    have hprocess : (c.served i (request.bytes server) (request.ended made) made m).shared.process
        = m.process := rfl
    rw [hprocess] at hblocks' hbytes' ⊢
    omega

/-- A request that fails moves no figure. -/
theorem census_refused (h : Run c l) (hstep : c.Step (.request i server request) none c')
    (hfree : ∀ a, request ≠ .free a) :
    c'.shared.process.heapBlocks = c.shared.process.heapBlocks ∧
      c'.shared.process.heapBytes = c.shared.process.heapBytes := by
  have hended : request.ended none = none := by
    cases request with
    | free a => exact absurd rfl (hfree a)
    | realloc block size => cases block <;> rfl
    | malloc size => rfl
    | calloc count size => rfl
  obtain ⟨hblocks, hbytes⟩ := census_request h hstep
  rw [hended, Option.toList_none] at hblocks hbytes
  exact ⟨by simpa [Process.largeCount] using hblocks, by simpa using hbytes⟩

/-- At any time of any run of several threads, whichever entry points were used by whom
and whoever could not reach its allocator, the process counts the large blocks
that are held, and their bytes. Whichever of them is given back or resized,
the figures have what is subtracted then. Any request about blocks that are
held is answered: it moves the figures by the block that it ends and the one
that it hands out, and if it fails it moves neither. -/
theorem figures_of_run (h : Run c l) :
    (c.shared.held.Nodup ∧ ∀ a, a ∈ c.shared.held ↔ c.shared.process.Live a) ∧
    (c.shared.process.heapBlocks = c.shared.process.largeCount c.shared.held ∧
      c.shared.process.heapBytes = c.shared.process.largeBytes c.shared.held) ∧
    (∀ a size, c.shared.process.kind a = .heap size →
      1 ≤ c.shared.process.heapBlocks ∧ (size : Int) ≤ c.shared.process.heapBytes) ∧
    (∀ i server request, i < c.shared.allocators.length →
      (server = .own → ∃ allocator, c.shared.Has i allocator) →
      (∀ a, request.target = some a → a ∈ c.shared.held) →
      ∃ made c', c.Step (.request i server request) made c') ∧
    (∀ i server request made c', c.Step (.request i server request) made c' →
      c'.shared.process.heapBlocks = c.shared.process.heapBlocks
          - c.shared.process.largeCount (request.ended made).toList
          + c'.shared.process.largeCount made.toList ∧
        c'.shared.process.heapBytes = c.shared.process.heapBytes
          - c.shared.process.largeBytes (request.ended made).toList
          + c'.shared.process.largeBytes made.toList) ∧
    ∀ i server request c', c.Step (.request i server request) none c' →
      (∀ a, request ≠ .free a) →
      c'.shared.process.heapBlocks = c.shared.process.heapBlocks ∧
        c'.shared.process.heapBytes = c.shared.process.heapBytes := by
  have hsound := h.accounted.sound
  refine ⟨⟨hsound.once, hsound.live⟩, census h, fun a size hkind => enough_of_run h hkind,
    fun i server request hi hown hheld => ?_,
    fun i server request made c' hstep => census_request h hstep,
    fun i server request c' hstep hfree => census_refused h hstep hfree⟩
  obtain ⟨made, m₁, m, through, hrun, -⟩ := effect_request hsound i server request hheld
  exact ⟨made, _, .request hi hown hheld hrun⟩

/-- A thread whose allocator is lent out, and an allocator that belongs to
none. -/
def lentPair : ThreadedStorage where
  shared :=
    { process := { system := .bounded 100000 }, allocators := [some (.new {}), some (.new {})] }
  lent := Function.update (fun _ => false) 0 true

/-- Two threads, one of which has lent its allocator out, are where a run leads. -/
theorem run_lentPair : Run lentPair {} :=
  .step (.step (.step (.start (.bounded 100000) false) (.join none)) (.join (some {})))
    (.lend (i := 0) (by decide) rfl)

/-- The thread asks for 100 bytes, which make a large block now, and the
allocator for 1500 and for a small block. The thread evicts the small block,
and the block of 1500 is resized by a raw call. -/
def fallback : Option (ThreadedStorage × Ledger) :=
  follow [(0, .thread, .malloc 100), (1, .own, .malloc 1500), (1, .own, .malloc 40),
    (0, .thread, .realloc (some 2) 50), (0, .raw, .realloc (some 1) 3000)] (lentPair, {})

/-- Whether the thread is refused 200000 bytes. -/
def refuses (c : ThreadedStorage) : Bool :=
  match Memory.answer .raw (.malloc 200000) (c.view 0) with
  | .ok none _ => true
  | .ok (some _) _ | .error _ _ => false

/-- Then there are large blocks of 100, 50 and 3000 bytes. A request that the
system refuses leaves it at that. -/
theorem figures_fallback : ∃ c l, fallback = some (c, l) ∧ Run c l ∧
    c.shared.process.heapBlocks = 3 ∧ c.shared.process.heapBytes = 3150 ∧
    c.shared.process.largeCount c.shared.held = 3 ∧
    ∃ c', c.Step (.request 0 .raw (.malloc 200000)) none c' ∧
      c'.shared.process.heapBlocks = 3 ∧ c'.shared.process.heapBytes = 3150 := by
  obtain ⟨⟨c, l⟩, hfollow⟩ : ∃ now, fallback = some now := Option.isSome_iff_exists.1 (by decide)
  have hread : ∀ {α : Type} (g : ThreadedStorage × Ledger → α),
      fallback.map g = some (g (c, l)) := by
    intro α g
    rw [hfollow]
    rfl
  have hrun : Run c l := run_follow run_lentPair hfollow
  have hblocks : c.shared.process.heapBlocks = 3 :=
    Option.some.inj ((hread fun now => now.1.shared.process.heapBlocks).symm.trans (by decide))
  have hbytes : c.shared.process.heapBytes = 3150 :=
    Option.some.inj ((hread fun now => now.1.shared.process.heapBytes).symm.trans (by decide))
  have hmembers : c.shared.allocators.length = 2 :=
    Option.some.inj ((hread fun now => now.1.shared.allocators.length).symm.trans (by decide))
  have hrefuses : refuses c = true :=
    Option.some.inj ((hread fun now => refuses now.1).symm.trans (by decide))
  obtain ⟨m, hanswer⟩ : ∃ m, Memory.answer .raw (.malloc 200000) (c.view 0) = .ok none m := by
    rw [refuses] at hrefuses
    split at hrefuses
    · exact ⟨_, ‹_›⟩
    · cases hrefuses
    · cases hrefuses
  have hstep : c.Step (.request 0 .raw (.malloc 200000)) none _ :=
    .request (by omega) nofun nofun hanswer
  obtain ⟨-, ⟨hcount, -⟩, -, -, -, hrefused⟩ := figures_of_run hrun
  obtain ⟨hsame, hsame'⟩ := hrefused 0 .raw (.malloc 200000) _ hstep nofun
  exact ⟨c, l, hfollow, hrun, hblocks, hbytes, by omega, _, hstep, hsame.trans hblocks,
    hsame'.trans hbytes⟩

end ThreadedStorage

end ExtensionHost
