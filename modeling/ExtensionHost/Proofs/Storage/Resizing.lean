import ExtensionHost.Proofs.Storage.Fallback
import ExtensionHost.Proofs.Storage.Isolation

/-!
# `ExtensionHost.Proofs.Storage.Resizing`: a resize succeeds or changes nothing

An allocator resizes a block in one of five ways (`Storage.Resized`), three of
which succeed. `Process.Moves` says what they have in common: the block is in
use with the room that was asked for, it holds what it held as far as both
sizes reach, and no other block in use was touched. Where it is afterwards
depends on the two sizes (`Resized.place`): a small block stays exactly if its
class serves the new size too, and a large one stays only if the system
resizes it in place.

The other two ways fail, and then nothing may have changed that anybody can
see. This is not plain, because a request for a small block can fail after the
arenas were asked to grow. A pool that cuts no piece has not grown, though,
since a new arena has room for the piece it was acquired for
(`ArenaPool.carve_cases`). So an allocator that hands nothing out is the same as
before (`Served.refused_eq`), and a resize that fails does nothing before or
after it asks for the new block (`Resized.refused_eq`).

How many bytes are copied decides whether others are safe, and a table of blocks
cannot tell, because what is written to one payload is in no other one. So
`realloc_of_reached` looks at memory as well: in any memory that shows the storage
the resize writes to the prefixes of the two blocks and to the bytes that both
sizes reach, and to nothing else.
-/

set_option autoImplicit false

namespace ExtensionHost

/-- A large block that was resized without being moved is where it was because
the system left it there. -/
theorem Process.keepsPlace_of_heapRealloc {p p' : Process} {a : Address} {old size : Nat}
    (ha : a < p.blocks.size) (h : p.heapRealloc a old size = (some a, p')) :
    p.system.keepsPlace p.requests = true := by
  by_contra hmoves
  rw [Bool.not_eq_true] at hmoves
  cases hregion : regionSize? (max size 1) with
  | none => simp [heapRealloc, hregion] at h
  | some total =>
    cases hserved : p.system.serves p.requests total with
    | false => simp [heapRealloc, request, hregion, hserved] at h
    | true =>
      -- the region moves, so the answer is a new address
      simp only [heapRealloc, request, hregion, hserved, hmoves, if_true, Bool.false_eq_true,
        if_false, addBlock, size_setKind] at h
      exact absurd (Option.some.inj (Prod.mk.inj h).1) (Nat.ne_of_gt ha)

namespace Storage

variable {s s' : Storage} {a b : Address} {size : Nat} {made moved : Option Address}

/-- The storage after the system was asked, or an event was reported, to no
effect. -/
def Untouched (s s' : Storage) : Prop :=
  ∃ requests events, s' = { s with process := { s.process with requests, events } }

/-- Where the allocator is the same and nothing but events has changed, nothing was touched. -/
theorem untouched_of_sameBut (hallocator : s'.allocator = s.allocator)
    (hsame : s.process.SameBut s'.process) : s.Untouched s' := by
  obtain ⟨requests, events, -, hprocess⟩ := hsame
  obtain ⟨allocator, process⟩ := s'
  obtain rfl : allocator = s.allocator := hallocator
  obtain rfl : process = { s.process with requests, events } := hprocess
  exact ⟨requests, events, rfl⟩

/-- An allocator that hands nothing out has not changed. -/
theorem Served.refused_eq (h : Served s size none s') : s.Untouched s' := by
  cases h with
  | uncarved hcls hlist hcarve =>
    rcases ArenaPool.carve_cases hcarve with ⟨_, hfound, -⟩ | ⟨_, _, -, hfound, -⟩ |
      ⟨-, rfl, hsame⟩
    · cases hfound
    · cases hfound
    · exact untouched_of_sameBut rfl hsame
  | refused hcls hsame => exact untouched_of_sameBut rfl hsame

/-- A resize that fails has changed nothing. -/
theorem Resized.refused_eq (h : Resized s a size none s') : s.Untouched s' := by
  cases h with
  | unmoved hserved => exact hserved.refused_eq
  | refused hsame => exact untouched_of_sameBut rfl hsame

/-- The class of a small block serves the new size too. -/
def FitsClass (s : Storage) (a : Address) (size : Nat) : Prop :=
  ∃ cls, s.process.kind a = .pool cls ∧ SizeClass.ofSize? size = some cls

/-- A small block whose class serves the new size too stays as it is. -/
theorem realloc_of_fits (hfits : s.FitsClass a size) : realloc a size s = .ok (some a) s := by
  obtain ⟨cls, hkind, hcls⟩ := hfits
  simp only [realloc, hkind, hcls, if_true]

/-- A block that stays where it was is a small one whose class serves the new
size, or a large one that the system resized in place. -/
theorem Resized.place (h : Resized s a size (some a) s') (hlive : s.process.Live a)
    (hlisted : s.allocator.Listed s.process) :
    s.FitsClass a size ∨ (∃ old, s.process.kind a = .heap old) ∧ SizeClass.ofSize? size = none ∧
      s.process.system.keepsPlace s.process.requests = true := by
  cases h with
  | stays hkind hcls => exact .inl ⟨_, hkind, hcls⟩
  | moved hkind hserved hfreed => exact absurd hlive (hserved.not_live hlisted)
  | resized hkind hcls hlimit hheap =>
    exact .inr ⟨⟨_, hkind⟩, hcls,
      Process.keepsPlace_of_heapRealloc (Process.lt_size_of_live hlive) hheap⟩

/-- A resize writes to no more bytes of a block than both sizes reach. -/
theorem Resized.unwritten (h : Resized s a size (some b) s') (hlive : s.process.Live a)
    (hlisted : s.allocator.Listed s.process) :
    s.process.Unwritten s'.process b (min (s.process.kind a).usable size) := by
  have hmoves := h.moves hlive hlisted
  cases h with
  | stays hkind hcls => exact ⟨_, .inl ⟨Process.lt_size_of_live hlive, rfl⟩, fun _ _ => rfl⟩
  | @moved _ s₁ _ hkind hserved hfreed =>
    have hhands := hserved.hands hlisted
    have hba : b ≠ a := fun heq => hhands.fresh b rfl (heq ▸ hlive)
    obtain ⟨given, hgiven, hcells⟩ := hserved.unwritten hlisted
    refine ⟨given, hgiven, fun i hi => ?_⟩
    -- the copy ends where the shorter of the two ends
    rw [Process.payload_congr (hfreed.frees.others b hba)]
    show ((s₁.process.modifyPayload b _).payload b).cell i = _
    rw [Process.payload_modifyPayload_self (Process.lt_size_of_live (hhands.live b rfl)),
      Payload.cell_copyFrom, if_neg (Nat.not_lt.2 hi)]
    exact hcells i (Nat.zero_le i)
  | resized hkind hcls hlimit hheap =>
    have hlarge := SizeClass.ofSize?_eq_none_iff.1 hcls
    simp only [SizeClass.threshold] at hlarge
    exact (hmoves.unwritten b rfl).mono (by omega)

/-- A block in use that is resized, whatever it is and whatever becomes of it.
If that succeeds, there is a block in use with the new size that holds what both
sizes reach, and nobody wrote to it behind that; it is the old one, or the old one is
in use no more. If it fails, nothing has changed. Other blocks in use keep all that
they have. -/
theorem realloc_spec (hlive : s.process.Live a) (hlisted : s.allocator.Listed s.process)
    (size : Nat) : ∃ moved s', realloc a size s = .ok moved s' ∧
      (∀ b, moved = some b → s'.process.Live b ∧ size ≤ (s'.process.kind b).usable ∧
        (∀ i < min (s.process.kind a).usable size,
          (s'.process.payload b).cell i = (s.process.payload a).cell i) ∧
        s.process.Unwritten s'.process b (min (s.process.kind a).usable size) ∧
        (b = a → s.FitsClass a size ∨ (∃ old, s.process.kind a = .heap old) ∧
          SizeClass.ofSize? size = none ∧
          s.process.system.keepsPlace s.process.requests = true) ∧
        (b ≠ a → ¬ s.process.Live b ∧ ¬ s'.process.Live a)) ∧
      (s.FitsClass a size → moved = some a ∧ s' = s) ∧
      (moved = none → s.Untouched s') ∧
      ∀ c, c ≠ a → s.process.Live c →
        moved ≠ some c ∧ s'.process.blocks[c]? = s.process.blocks[c]? := by
  obtain ⟨moved, s', hrun, hresized⟩ := resized_realloc hlive hlisted size
  have hmoves := hresized.moves hlive hlisted
  refine ⟨moved, s', hrun, ?succeeds, fun hfits => ?fits, ?fails, fun c hca hc => ?others⟩
  case succeeds =>
    rintro b rfl
    refine ⟨hmoves.live b rfl, hmoves.room b rfl, hmoves.kept b rfl,
      hresized.unwritten hlive hlisted, ?_, hmoves.fresh b rfl⟩
    rintro rfl
    -- a block that stays is small and fits its class, or the system has kept it in place
    exact hresized.place hlive hlisted
  case fits =>
    rw [realloc_of_fits hfits] at hrun
    cases hrun
    exact ⟨rfl, rfl⟩
  case fails =>
    rintro rfl
    exact hresized.refused_eq
  case others =>
    have hmoved : moved ≠ some c := fun heq => (hmoves.fresh c heq hca).1 hc
    exact ⟨hmoved, hmoves.others c hca hmoved⟩

end Storage

namespace ThreadedStorage

variable {c : ThreadedStorage} {i : Nat} {allocator : Allocator} {a : Address}

/-- At any time an allocator resizes any block that is held, to any size, whatever its
holder has written to it. It answers with a block in use that has the new size, holds what
the old block held as far as both sizes reach and was not written to behind that. A small
block stays as it is, if its class serves the new size; a block that stays otherwise is a
large one that the system resized in place; a block that does not stay is in use no more.
Or it answers with nothing, and then the allocator, its lists, its arenas, its counters and
all blocks are as they were. In either case the other blocks that are held keep what they
hold, and what stands in front of them.

The same happens in any memory that shows all this, and there is such a memory. There no
byte of another block is written, be it in use or freed, and no byte at all when the answer
is nothing. -/
theorem realloc_of_reached (h : c.Reached) (hi : c.shared.Has i allocator) (ha : a ∈ c.shared.held)
    (size : Nat) :
    ∃ moved s', Storage.realloc a size ⟨allocator, c.shared.process⟩ = .ok moved s' ∧
      (∀ b, moved = some b → s'.process.Live b ∧ size ≤ (s'.process.kind b).usable ∧
        (∀ k < min (c.shared.process.kind a).usable size,
          (s'.process.payload b).cell k = (c.shared.process.payload a).cell k) ∧
        c.shared.process.Unwritten s'.process b (min (c.shared.process.kind a).usable size) ∧
        (b = a → Storage.FitsClass ⟨allocator, c.shared.process⟩ a size ∨
          (∃ old, c.shared.process.kind a = .heap old) ∧ SizeClass.ofSize? size = none ∧
          c.shared.process.system.keepsPlace c.shared.process.requests = true) ∧
        (b ≠ a → b ∉ c.shared.held ∧ ¬ s'.process.Live a)) ∧
      (Storage.FitsClass ⟨allocator, c.shared.process⟩ a size →
        moved = some a ∧ s' = ⟨allocator, c.shared.process⟩) ∧
      (moved = none → Storage.Untouched ⟨allocator, c.shared.process⟩ s') ∧
      (∀ b ∈ c.shared.held, b ≠ a →
        moved ≠ some b ∧ s'.process.blocks[b]? = c.shared.process.blocks[b]?) ∧
      (∃ link memory,
        Storage.Shown ⟨allocator, c.shared.process⟩ link (c.shared.otherArenas i) memory) ∧
      ∀ link memory,
        Storage.Shown ⟨allocator, c.shared.process⟩ link (c.shared.otherArenas i) memory →
        ∃ memory', FlatStorage.realloc (c.shared.process.place a) size
            (Storage.flat ⟨allocator, c.shared.process⟩ memory) =
              .ok (moved.map s'.process.place) (s'.flat memory') ∧
          (∀ x, memory' x ≠ memory x →
            ∃ b, moved = some b ∧ c.shared.process.ResizeWrites s'.process a b size x) ∧
          ∀ b x, b ≠ a → moved ≠ some b → c.shared.process.kind b ≠ .foreign →
            c.shared.process.Covers b x → memory' x = memory x := by
  have hsound := sound_of_reached h
  obtain ⟨moved, s', hrun, hsucceeds, hfits, hfails, hothers⟩ :=
    Storage.realloc_spec (s := ⟨allocator, c.shared.process⟩) ((hsound.live a).1 ha)
      (hsound.listed i allocator hi) size
  refine ⟨moved, s', hrun, fun b hb => ?_, hfits, hfails,
    fun b hb hba => hothers b hba ((hsound.live b).1 hb), hsound.exists_shown hi,
    fun link memory hshown => hsound.realloc_inMemory hi ha hrun hshown⟩
  obtain ⟨hlive, hroom, hkept, hunwritten, hplace, hgone⟩ := hsucceeds b hb
  refine ⟨hlive, hroom, hkept, hunwritten, hplace, fun hba => ?_⟩
  obtain ⟨hfresh, hended⟩ := hgone hba
  exact ⟨fun hheld => hfresh ((hsound.live b).1 hheld), hended⟩

/-- What the second member answers when the first block is to be resized. -/
def resizes? (c : ThreadedStorage) (size : Nat) : Option (Option Address) :=
  match (c.view 1).allocator with
  | none => none
  | some allocator =>
    match Storage.realloc 0 size ⟨allocator, c.shared.process⟩ with
    | .ok moved _ => some moved
    | .error _ _ => none

/-- The allocator of the pair hands out 1500 bytes and 2000 bytes, and the holder fills the
1500. The allocator resizes them to 3000, which moves the block, keeps the 1500 and leaves
what is behind them as the system gave it. It does not resize them to 9000, since the
system has not so many, which changes nothing. The 2000 bytes stay as they are. -/
theorem realloc_pair : ∃ c allocator, Reached c ∧ c.shared.Has 1 allocator ∧
    c.shared.held = [1, 0] ∧
    (∃ s', Storage.realloc 0 3000 ⟨allocator, c.shared.process⟩ = .ok (some 2) s' ∧
      ¬ s'.process.Live 0 ∧ (∀ k < 1500, (s'.process.payload 2).cell k = .byte 7) ∧
      c.shared.process.Unwritten s'.process 2 1500 ∧
      s'.process.blocks[1]? = c.shared.process.blocks[1]?) ∧
    ∃ s', Storage.realloc 0 9000 ⟨allocator, c.shared.process⟩ = .ok none s' ∧
      Storage.Untouched ⟨allocator, c.shared.process⟩ s' := by
  obtain ⟨⟨before, l⟩, hfollow⟩ : ∃ now,
      follow [(1, .own, .malloc 1500), (1, .own, .malloc 2000)] (pair, {}) = some now :=
    Option.isSome_iff_exists.1 (by decide)
  have hread : ∀ {α : Type} (g : ThreadedStorage → α),
      (follow [(1, .own, .malloc 1500), (1, .own, .malloc 2000)] (pair, {})).map
        (fun now => g now.1)
        = some (g before) := by
    intro α g
    rw [hfollow]
    rfl
  have hheld : before.shared.held = [1, 0] :=
    Option.some.inj ((hread (·.shared.held)).symm.trans (by decide))
  have hzero : 0 ∈ before.shared.held := by
    rw [hheld]
    exact List.mem_cons_of_mem _ List.mem_cons_self
  -- the holder fills the block
  have hreached : (before.written 0 (·.fill 0 1500 7)).Reached :=
    (reached_of_run (run_follow run_pair hfollow)).goes (.single (.write hzero _))
  have hgrows : resizes? (before.written 0 (·.fill 0 1500 7)) 3000 = some (some 2) :=
    Option.some.inj
      ((hread fun c => resizes? (c.written 0 (·.fill 0 1500 7)) 3000).symm.trans (by decide))
  have hfails : resizes? (before.written 0 (·.fill 0 1500 7)) 9000 = some none :=
    Option.some.inj
      ((hread fun c => resizes? (c.written 0 (·.fill 0 1500 7)) 9000).symm.trans (by decide))
  have hkind : before.shared.process.kind 0 = .heap 1500 :=
    Option.some.inj ((hread (·.shared.process.kind 0)).symm.trans (by decide))
  have hsome : (before.view 1).allocator.isSome = true :=
    Option.some.inj ((hread fun c => (c.view 1).allocator.isSome).symm.trans (by decide))
  obtain ⟨allocator, hview⟩ := Option.isSome_iff_exists.1 hsome
  have hhas : (before.written 0 (·.fill 0 1500 7)).shared.Has 1 allocator := allocator_view.1 hview
  obtain ⟨moved, s₁, hmove, hmoved, -, -, hothers, -⟩ :=
    realloc_of_reached hreached hhas hzero 3000
  obtain ⟨refused, s₂, hrefuse, -, -, huntouched, -⟩ := realloc_of_reached hreached hhas hzero 9000
  have hview' : ((before.written 0 (·.fill 0 1500 7)).view 1).allocator = some allocator := hview
  simp only [resizes?, hview', hmove, Option.some.injEq] at hgrows
  simp only [resizes?, hview', hrefuse, Option.some.injEq] at hfails
  subst hgrows hfails
  obtain ⟨-, -, hkept, hunwritten, -, hgone⟩ := hmoved 2 rfl
  have husable : ((before.written 0 (·.fill 0 1500 7)).shared.process.kind 0).usable = 1500 := by
    show ((before.shared.process.modifyPayload 0 (·.fill 0 1500 7)).kind 0).usable = 1500
    rw [Process.kind_modifyPayload, hkind]
    rfl
  rw [husable] at hkept hunwritten
  refine ⟨_, allocator, hreached, hhas, hheld, ⟨s₁, hmove, (hgone (by decide)).2, fun k hk => ?_,
    hunwritten, (hothers 1 (by show 1 ∈ before.shared.held; rw [hheld]; decide) (by decide)).2⟩,
    s₂, hrefuse, huntouched rfl⟩
  rw [hkept k (by omega)]
  show ((before.shared.process.modifyPayload 0 (·.fill 0 1500 7)).payload 0).cell k = _
  rw [Process.payload_modifyPayload_self (Process.lt_size_of_live (Process.live_heap hkind)),
    Payload.cell_fill, if_pos (by omega)]

end ThreadedStorage

end ExtensionHost
