import ExtensionHost.Proofs.Storage.FreeLists
import Mathlib.Data.List.Nodup

/-!
# `ExtensionHost.Proofs.Storage.Layout`: where blocks lie

A small block takes up its prefix and the bytes of its class in one arena,
a large one the whole of its region (`Process.extent?`). `Process.Layout`
is the invariant that keeps these extents apart: arenas are regions of
their own, small blocks start at multiples of sixteen and end before the
cursor of their arena, two of them in one arena do not overlap, and no
region of a large block is that of another one or of an arena.

An arena is only ever changed by moving its cursor, so a piece that is cut
lies behind all pieces that were cut before. Marking a block freed or in
use, resizing a large one in place and writing into blocks leave the layout
alone, which `Layout.congr` says once for all of them. The arenas are a
list up to order, because the invariant is about all arenas of a process,
whichever allocator they belong to.
-/

set_option autoImplicit false

namespace ExtensionHost

/-- Bytes of a region, from an offset up to another one. -/
structure Extent where
  region : Nat
  start : Nat
  stop : Nat
deriving DecidableEq, Repr

namespace Extent

/-- Two extents have no byte in common when regions lie where `place`
says. -/
def Apart (place : Nat → Nat) (x y : Extent) : Prop :=
  place x.region + x.stop ≤ place y.region + y.start ∨
    place y.region + y.stop ≤ place x.region + x.start

end Extent

namespace Process

variable {p p' : Process} {a b : Address} {arenas arenas' : List Arena}

/-- The class of a small block, in use or freed. -/
def smallClass? (p : Process) (a : Address) : Option SizeClass :=
  match p.kind a with
  | .pool cls | .freed cls => some cls
  | .heap _ | .foreign => none

/-- The bytes that a block takes up, the prefix in front of it included. -/
def extent? (p : Process) (a : Address) : Option Extent :=
  match p.kind a, p.site a with
  | .pool cls, .carved region offset | .freed cls, .carved region offset =>
    some ⟨region, offset - blockPrefixSize, offset + cls.bytes⟩
  | .heap size, .region region => some ⟨region, 0, blockPrefixSize + size⟩
  | _, _ => none

/-- A small block in use has the class that it was cut for. -/
theorem smallClass?_pool {cls : SizeClass} (h : p.kind a = .pool cls) :
    p.smallClass? a = some cls := by
  simp only [smallClass?, h]

/-- A freed block has the class that it was cut for. -/
theorem smallClass?_freed {cls : SizeClass} (h : p.kind a = .freed cls) :
    p.smallClass? a = some cls := by
  simp only [smallClass?, h]

/-- The class of a small block is read off its mark. -/
theorem smallClass?_congr (h : p'.kind a = p.kind a) : p'.smallClass? a = p.smallClass? a := by
  simp only [smallClass?, h]

/-- A small block: its prefix and payload lie before the cursor of an
arena. -/
structure Cut (p : Process) (arenas : List Arena) (a : Address) (cls : SizeClass) (arena : Arena)
    (offset : Nat) : Prop where
  mem : arena ∈ arenas
  site : p.site a = .carved arena.region offset
  aligned : 16 ∣ offset
  room : blockPrefixSize ≤ offset
  used : offset + cls.bytes ≤ arena.used

/-- How blocks lie in the arenas of a process and in regions of their
own. -/
structure Layout (p : Process) (arenas : List Arena) : Prop where
  regions : (arenas.map (·.region)).Nodup
  given : ∀ arena ∈ arenas, arena.region < p.requests
  cursor : ∀ arena ∈ arenas, 16 ∣ arena.used ∧ arena.used ≤ arena.size
  small : ∀ a cls, p.smallClass? a = some cls → ∃ arena offset, p.Cut arenas a cls arena offset
  apart : ∀ a b c d region i j, a ≠ b → p.smallClass? a = some c → p.smallClass? b = some d →
    p.site a = .carved region i → p.site b = .carved region j →
    i + c.bytes ≤ j - blockPrefixSize ∨ j + d.bytes ≤ i - blockPrefixSize
  large : ∀ a size, p.kind a = .heap size → ∃ region, p.site a = .region region ∧
    region < p.requests ∧ region ∉ arenas.map (·.region)
  alone : ∀ a b m n region, a ≠ b → p.kind a = .heap m → p.kind b = .heap n →
    p.site a = .region region → p.site b ≠ .region region

/-- A process without blocks and arenas. -/
theorem layout_empty (system : System) : Layout { system } [] where
  regions := List.nodup_nil
  given := by simp
  cursor := by simp
  small a cls h := by simp [smallClass?, kind] at h
  apart a b c d region i j _ h := by simp [smallClass?, kind] at h
  large a size h := by simp [kind] at h
  alone a b m n region _ h := by simp [kind] at h

/-- A small block has an extent: prefix and payload, in one arena. -/
theorem Layout.extent?_small {cls : SizeClass} (h : p.Layout arenas)
    (ha : p.smallClass? a = some cls) : ∃ arena offset, p.Cut arenas a cls arena offset ∧
      p.extent? a = some ⟨arena.region, offset - blockPrefixSize, offset + cls.bytes⟩ := by
  obtain ⟨arena, offset, hcut⟩ := h.small a cls ha
  refine ⟨arena, offset, hcut, ?_⟩
  simp only [smallClass?] at ha
  simp only [extent?, hcut.site]
  split at ha
  · rename_i c hkind
    cases ha
    rw [hkind]
  · rename_i c hkind
    cases ha
    rw [hkind]
  · cases ha
  · cases ha

/-- A large block has an extent: its region. -/
theorem Layout.extent?_large {size : Nat} (h : p.Layout arenas) (ha : p.kind a = .heap size) :
    ∃ region, p.site a = .region region ∧ region ∉ arenas.map (·.region) ∧
      p.extent? a = some ⟨region, 0, blockPrefixSize + size⟩ := by
  obtain ⟨region, hsite, -, hnone⟩ := h.large a size ha
  exact ⟨region, hsite, hnone, by simp only [extent?, ha, hsite]⟩

/-- Only small and large blocks have an extent. -/
theorem extent?_cases {x : Extent} (h : p.extent? a = some x) :
    (∃ cls, p.smallClass? a = some cls) ∨ ∃ size, p.kind a = .heap size := by
  cases hkind : p.kind a with
  | pool cls => exact .inl ⟨cls, smallClass?_pool hkind⟩
  | freed cls => exact .inl ⟨cls, smallClass?_freed hkind⟩
  | heap size => exact .inr ⟨size, rfl⟩
  | foreign => simp [extent?, hkind] at h

/-- Two blocks in one region take up different bytes of it. -/
theorem Layout.apart_of_region {x y : Extent} (h : p.Layout arenas) (hab : a ≠ b)
    (hx : p.extent? a = some x) (hy : p.extent? b = some y) (hregion : x.region = y.region) :
    x.stop ≤ y.start ∨ y.stop ≤ x.start := by
  -- a small block lies in the region of an arena, in which no large block lies
  rcases extent?_cases hx with ⟨c, hc⟩ | ⟨m, hc⟩
  · obtain ⟨arena, i, hcut, hextent⟩ := h.extent?_small hc
    obtain rfl := Option.some.inj (hx.symm.trans hextent)
    rcases extent?_cases hy with ⟨d, hd⟩ | ⟨n, hd⟩
    · obtain ⟨other, j, hcut', hextent'⟩ := h.extent?_small hd
      obtain rfl := Option.some.inj (hy.symm.trans hextent')
      have hsite := hcut'.site
      rw [← (show arena.region = other.region from hregion)] at hsite
      exact h.apart a b c d arena.region i j hab hc hd hcut.site hsite
    · obtain ⟨region, -, hnone, hextent'⟩ := h.extent?_large hd
      obtain rfl := Option.some.inj (hy.symm.trans hextent')
      exact absurd (List.mem_map.2 ⟨arena, hcut.mem, hregion⟩) hnone
  · obtain ⟨region, hsite, hnone, hextent⟩ := h.extent?_large hc
    obtain rfl := Option.some.inj (hx.symm.trans hextent)
    rcases extent?_cases hy with ⟨d, hd⟩ | ⟨n, hd⟩
    · obtain ⟨other, j, hcut', hextent'⟩ := h.extent?_small hd
      obtain rfl := Option.some.inj (hy.symm.trans hextent')
      exact absurd (List.mem_map.2 ⟨other, hcut'.mem, hregion.symm⟩) hnone
    · obtain ⟨region', hsite', -, hextent'⟩ := h.extent?_large hd
      obtain rfl := Option.some.inj (hy.symm.trans hextent')
      rw [← (show region = region' from hregion)] at hsite'
      exact absurd hsite' (h.alone a b m n region hab hc hd hsite)

/-- The order of the arenas does not matter. -/
theorem Layout.perm (h : p.Layout arenas) (hperm : arenas.Perm arenas') : p.Layout arenas' where
  regions := (hperm.map _).nodup_iff.1 h.regions
  given arena hmem := h.given arena (hperm.mem_iff.2 hmem)
  cursor arena hmem := h.cursor arena (hperm.mem_iff.2 hmem)
  small a cls ha := by
    obtain ⟨arena, offset, hcut⟩ := h.small a cls ha
    exact ⟨arena, offset, hperm.mem_iff.1 hcut.mem, hcut.site, hcut.aligned, hcut.room, hcut.used⟩
  apart := h.apart
  large a size ha := by
    obtain ⟨region, hsite, hlt, hregion⟩ := h.large a size ha
    exact ⟨region, hsite, hlt, fun hmem => hregion ((hperm.map _).mem_iff.2 hmem)⟩
  alone := h.alone

/-- The layout stays when small blocks keep their class, no large block is
new, and blocks stay where they are. -/
theorem Layout.congr (h : p.Layout arenas) (hrequests : p.requests ≤ p'.requests)
    (hclass : ∀ a, p'.smallClass? a = p.smallClass? a)
    (hheap : ∀ a size, p'.kind a = .heap size → ∃ old, p.kind a = .heap old)
    (hsite : ∀ a, p'.site a = p.site a) : p'.Layout arenas where
  regions := h.regions
  given arena hmem := Nat.lt_of_lt_of_le (h.given arena hmem) hrequests
  cursor := h.cursor
  small a cls ha := by
    obtain ⟨arena, offset, hcut⟩ := h.small a cls ((hclass a).symm.trans ha)
    exact ⟨arena, offset, hcut.mem, (hsite a).trans hcut.site, hcut.aligned, hcut.room, hcut.used⟩
  apart a b c d region i j hab ha hb hi hj :=
    h.apart a b c d region i j hab ((hclass a).symm.trans ha) ((hclass b).symm.trans hb)
      ((hsite a).symm.trans hi) ((hsite b).symm.trans hj)
  large a size ha := by
    obtain ⟨old, hold⟩ := hheap a size ha
    obtain ⟨region, hregion, hlt, hnew⟩ := h.large a old hold
    exact ⟨region, (hsite a).trans hregion, Nat.lt_of_lt_of_le hlt hrequests, hnew⟩
  alone a b m n region hab ha hb hregion := by
    obtain ⟨oldA, holdA⟩ := hheap a m ha
    obtain ⟨oldB, holdB⟩ := hheap b n hb
    rw [hsite b]
    exact h.alone a b oldA oldB region hab holdA holdB ((hsite a).symm.trans hregion)

/-- The layout holds where nothing but events has changed. -/
theorem Layout.sameBut (h : p.Layout arenas) (hsame : p.SameBut p') : p'.Layout arenas := by
  obtain ⟨requests, events, hle, rfl⟩ := hsame
  exact h.congr hle (fun _ => rfl) (fun a size ha => ⟨size, ha⟩) fun _ => rfl

/-- Writing into a block leaves the layout. -/
theorem Layout.modifyPayload (h : p.Layout arenas) (a : Address) (f : Payload → Payload) :
    (p.modifyPayload a f).Layout arenas :=
  h.congr (Nat.le_refl _) (fun _ => smallClass?_congr (kind_modifyPayload _ _ _ _))
    (fun b size hb => ⟨size, by rwa [kind_modifyPayload] at hb⟩) fun _ => site_modifyPayload _ _ _ _

/-- Marking a small block as freed or as in use leaves the layout, if it
keeps its class. -/
theorem Layout.mark {cls : SizeClass} (h : p.Layout arenas) (ha : p.smallClass? a = some cls)
    {kind : BlockKind} (hkind : kind = .pool cls ∨ kind = .freed cls) :
    (p.setKind a kind).Layout arenas := by
  have hlt : a < p.blocks.size := by
    apply lt_size_of_kind
    intro hforeign
    simp [smallClass?, hforeign] at ha
  have hself : (p.setKind a kind).kind a = kind := kind_setKind_self hlt kind
  refine h.congr (Nat.le_refl _) (fun b => ?_) (fun b size hb => ?_) fun b => site_setKind _ _ _ _
  · by_cases hb : b = a
    · subst hb
      rcases hkind with rfl | rfl
      · rw [smallClass?_pool hself, ha]
      · rw [smallClass?_freed hself, ha]
    · exact smallClass?_congr (kind_congr (getElem?_setKind_of_ne hb _))
  · by_cases hba : b = a
    · subst hba
      rw [hself] at hb
      rcases hkind with rfl | rfl <;> cases hb
    · exact ⟨size, by rwa [kind_congr (getElem?_setKind_of_ne hba kind)] at hb⟩

/-- Giving a large block back to the system, or resizing it where it is,
leaves the layout. -/
theorem Layout.markLarge {old : Nat} (h : p.Layout arenas) (ha : p.kind a = .heap old)
    {kind : BlockKind} (hkind : kind = .foreign ∨ ∃ size, kind = .heap size) :
    (p.setKind a kind).Layout arenas := by
  have hself : (p.setKind a kind).kind a = kind :=
    kind_setKind_self (lt_size_of_live (live_heap ha)) kind
  refine h.congr (Nat.le_refl _) (fun b => ?_) (fun b size hb => ?_) fun b => site_setKind _ _ _ _
  · by_cases hb : b = a
    · subst hb
      rcases hkind with rfl | ⟨size, rfl⟩
      · simp only [smallClass?, hself, ha]
      · simp only [smallClass?, hself, ha]
    · exact smallClass?_congr (kind_congr (getElem?_setKind_of_ne hb _))
  · by_cases hba : b = a
    · subst hba
      exact ⟨old, ha⟩
    · exact ⟨size, by rwa [kind_congr (getElem?_setKind_of_ne hba kind)] at hb⟩

/-! ### New blocks -/

section
variable {block : Block}

/-- A block that is added leaves the others. -/
theorem getElem?_of_push (h : p'.blocks = p.blocks.push block) (hb : b ≠ p.blocks.size) :
    p'.blocks[b]? = p.blocks[b]? := by
  rw [h, Array.getElem?_push, if_neg hb]

/-- The block that was added has its mark. -/
theorem kind_of_push (h : p'.blocks = p.blocks.push block) :
    p'.kind p.blocks.size = block.kind := by
  simp [kind, h]

/-- The block that was added has its place. -/
theorem site_of_push (h : p'.blocks = p.blocks.push block) :
    p'.site p.blocks.size = block.site := by
  simp [site, h]

/-- Small blocks are old ones, unless the new one is small. -/
theorem small_of_push {cls : SizeClass} (h : p'.blocks = p.blocks.push block)
    (hb : p'.smallClass? b = some cls) (hne : b ≠ p.blocks.size) :
    p.smallClass? b = some cls ∧ p'.site b = p.site b := by
  have hsame := getElem?_of_push h hne
  exact ⟨(smallClass?_congr (kind_congr hsame)).symm.trans hb, site_congr hsame⟩

/-- Large blocks are old ones, unless the new one is large. -/
theorem large_of_push {n : Nat} (h : p'.blocks = p.blocks.push block) (hb : p'.kind b = .heap n)
    (hne : b ≠ p.blocks.size) : p.kind b = .heap n ∧ p'.site b = p.site b := by
  have hsame := getElem?_of_push h hne
  exact ⟨(kind_congr hsame).symm.trans hb, site_congr hsame⟩

/-- Small blocks stay apart when those that were there before end in front of
the new one. -/
theorem Layout.apart_of_push (h : p.Layout arenas) (hblocks : p'.blocks = p.blocks.push block)
    (hbehind : ∀ b c d region i j, b ≠ p.blocks.size → p'.smallClass? b = some c →
      p'.smallClass? p.blocks.size = some d → p'.site b = .carved region i →
      p'.site p.blocks.size = .carved region j → i + c.bytes ≤ j - blockPrefixSize)
    {a : Address} {c d : SizeClass} {region i j : Nat} (hab : a ≠ b)
    (hc : p'.smallClass? a = some c)
    (hd : p'.smallClass? b = some d) (hi : p'.site a = .carved region i)
    (hj : p'.site b = .carved region j) :
    i + c.bytes ≤ j - blockPrefixSize ∨ j + d.bytes ≤ i - blockPrefixSize := by
  by_cases ha : a = p.blocks.size
  · subst ha
    exact .inr (hbehind b d c region j i (Ne.symm hab) hd hc hj hi)
  · by_cases hb : b = p.blocks.size
    · subst hb
      exact .inl (hbehind a c d region i j ha hc hd hi hj)
    · obtain ⟨holdA, hsameA⟩ := small_of_push hblocks hc ha
      obtain ⟨holdB, hsameB⟩ := small_of_push hblocks hd hb
      exact h.apart a b c d region i j hab holdA holdB (hsameA.symm.trans hi) (hsameB.symm.trans hj)

/-- Large blocks stay in regions of their own when the new one is in none of
theirs. -/
theorem Layout.alone_of_push (h : p.Layout arenas) (hblocks : p'.blocks = p.blocks.push block)
    (hfresh : ∀ b m n region, p'.kind p.blocks.size = .heap m → p.kind b = .heap n →
      p'.site p.blocks.size = .region region → p.site b ≠ .region region)
    {a : Address} {m n region : Nat} (hab : a ≠ b) (hm : p'.kind a = .heap m)
    (hn : p'.kind b = .heap n) (hregion : p'.site a = .region region) :
    p'.site b ≠ .region region := by
  by_cases ha : a = p.blocks.size
  · subst ha
    obtain ⟨hkind, hsame⟩ := large_of_push hblocks hn (Ne.symm hab)
    rw [hsame]
    exact hfresh b m n region hm hkind hregion
  · obtain ⟨hkindA, hsameA⟩ := large_of_push hblocks hm ha
    by_cases hb : b = p.blocks.size
    · subst hb
      intro hregion'
      exact hfresh a n m region hn hkindA hregion' (hsameA.symm.trans hregion)
    · obtain ⟨hkindB, hsameB⟩ := large_of_push hblocks hn hb
      rw [hsameB]
      exact h.alone a b m n region hab hkindA hkindB (hsameA.symm.trans hregion)

end

/-- A large block in the region of a request that was not made before. -/
theorem Layout.addLarge (h : p.Layout arenas) (hrequests : p'.requests = p.requests + 1)
    {size : Nat} {payload : Payload}
    (hblocks : p'.blocks = p.blocks.push ⟨.region p.requests, .heap size, payload⟩) :
    p'.Layout arenas := by
  have hsite : p'.site p.blocks.size = .region p.requests := site_of_push hblocks
  have hclass : p'.smallClass? p.blocks.size = none := by
    simp [smallClass?, kind_of_push hblocks]
  refine ⟨h.regions, ?given, h.cursor, ?small, ?apart, ?large, ?alone⟩
  case given =>
    intro arena hmem
    have := h.given arena hmem
    omega
  case small =>
    intro b cls hb
    have hne : b ≠ p.blocks.size := by
      rintro rfl
      rw [hclass] at hb
      cases hb
    obtain ⟨hold, hsame⟩ := small_of_push hblocks hb hne
    obtain ⟨arena, offset, hcut⟩ := h.small b cls hold
    exact ⟨arena, offset, hcut.mem, hsame.trans hcut.site, hcut.aligned, hcut.room, hcut.used⟩
  case apart =>
    intro b c d e region i j hbc
    refine h.apart_of_push hblocks (fun _ _ d _ _ _ _ _ hd => ?_) hbc
    rw [hclass] at hd
    cases hd
  case large =>
    intro b n hb
    by_cases hnew : b = p.blocks.size
    · subst hnew
      refine ⟨p.requests, hsite, by omega, fun hmem => ?_⟩
      obtain ⟨arena, harena, hregion⟩ := List.mem_map.1 hmem
      have := h.given arena harena
      omega
    · obtain ⟨hkind, hsame⟩ := large_of_push hblocks hb hnew
      obtain ⟨region, hregion, hlt, hnone⟩ := h.large b n hkind
      exact ⟨region, hsame.trans hregion, by omega, hnone⟩
  case alone =>
    intro b c m n region hbc
    refine h.alone_of_push hblocks (fun b _ n region _ hb hregion heq => ?_) hbc
    -- the regions that are in use were given out by requests before this one
    rw [hsite] at hregion
    cases hregion
    obtain ⟨region, hregion, hlt, -⟩ := h.large b n hb
    rw [hregion] at heq
    cases heq
    exact Nat.lt_irrefl _ hlt

/-- An arena in the region of a request that was not made before. -/
theorem Layout.addArena (h : p.Layout arenas) (size : Nat) (hsame : p.SameBut p')
    (hrequests : p'.requests = p.requests + 1) :
    p'.Layout ({ region := p.requests, size } :: arenas) := by
  have h' := h.sameBut hsame
  refine ⟨?_, ?_, ?_, fun a cls ha => ?_, h'.apart, fun a n ha => ?_, h'.alone⟩
  · refine List.nodup_cons.2 ⟨fun hmem => ?_, h.regions⟩
    obtain ⟨arena, harena, hregion⟩ := List.mem_map.1 hmem
    exact Nat.lt_irrefl _ (hregion ▸ h.given arena harena)
  · intro arena hmem
    rcases List.mem_cons.1 hmem with rfl | hmem
    · simp only
      omega
    · exact h'.given arena hmem
  · intro arena hmem
    rcases List.mem_cons.1 hmem with rfl | hmem
    · exact ⟨Nat.dvd_zero _, Nat.zero_le _⟩
    · exact h.cursor arena hmem
  · obtain ⟨arena, offset, hcut⟩ := h'.small a cls ha
    exact ⟨arena, offset, List.mem_cons_of_mem _ hcut.mem, hcut.site, hcut.aligned, hcut.room,
      hcut.used⟩
  -- the regions of large blocks were given out before that of the arena
  · obtain ⟨requests, events, -, rfl⟩ := hsame
    obtain ⟨region, hregion, hlt, hnone⟩ := h.large a n ha
    refine ⟨region, hregion, by omega, fun hmem => ?_⟩
    rcases List.mem_cons.1 hmem with heq | hmem
    · exact Nat.lt_irrefl _ (heq ▸ hlt)
    · exact hnone hmem

/-- What was cut from an arena ends before its cursor. -/
theorem Layout.stop_le_used {arena : Arena} {cls : SizeClass} {i : Nat} (h : p.Layout arenas)
    (harena : arena ∈ arenas) (hb : p.smallClass? b = some cls)
    (hi : p.site b = .carved arena.region i) : i + cls.bytes ≤ arena.used := by
  obtain ⟨other, offset, hcut⟩ := h.small b cls hb
  rw [hcut.site, Site.carved.injEq] at hi
  obtain ⟨hsame, rfl⟩ := hi
  obtain rfl := List.inj_on_of_nodup_map h.regions hcut.mem harena hsame
  exact hcut.used

/-- A small block that is cut from an arena, whose cursor moves behind
it. -/
theorem Layout.addSmall {arena cut : Arena} {rest : List Arena} {cls : SizeClass}
    {payload : Payload} (h : p.Layout (arena :: rest)) (hregion : cut.region = arena.region)
    (hused : cut.used = arena.used + (blockPrefixSize + cls.bytes)) (hsize : cut.used ≤ cut.size)
    (hblocks : p'.blocks =
      p.blocks.push ⟨.carved arena.region (arena.used + blockPrefixSize), .pool cls, payload⟩)
    (hrequests : p'.requests = p.requests) : p'.Layout (cut :: rest) := by
  have hclass : p'.smallClass? p.blocks.size = some cls := smallClass?_pool (kind_of_push hblocks)
  have hkind : p'.kind p.blocks.size = .pool cls := kind_of_push hblocks
  have hsite : p'.site p.blocks.size = .carved arena.region (arena.used + blockPrefixSize) :=
    site_of_push hblocks
  -- the cursor stays at a multiple of sixteen
  have hcls : 16 ∣ cls.bytes := ⟨cls.val + 1, by simp only [SizeClass.bytes]; omega⟩
  have hprefix : blockPrefixSize = 16 := rfl
  have hcursor := h.cursor arena List.mem_cons_self
  have hregions : (cut :: rest).map (·.region) = (arena :: rest).map (·.region) := by
    simp only [List.map_cons, hregion]
  refine ⟨hregions ▸ h.regions, ?given, ?cursor, ?small, ?apart, ?large, ?alone⟩
  case given =>
    intro other hmem
    rw [hrequests]
    rcases List.mem_cons.1 hmem with rfl | hmem
    · exact hregion ▸ h.given arena List.mem_cons_self
    · exact h.given other (List.mem_cons_of_mem _ hmem)
  case cursor =>
    intro other hmem
    rcases List.mem_cons.1 hmem with rfl | hmem
    · exact ⟨by omega, hsize⟩
    · exact h.cursor other (List.mem_cons_of_mem _ hmem)
  case small =>
    intro b c hb
    by_cases hnew : b = p.blocks.size
    · subst hnew
      rw [hclass] at hb
      cases hb
      exact ⟨cut, arena.used + blockPrefixSize, List.mem_cons_self, hregion ▸ hsite, by omega,
        by omega, by omega⟩
    · obtain ⟨hold, hsame⟩ := small_of_push hblocks hb hnew
      obtain ⟨other, offset, hcut⟩ := h.small b c hold
      rcases List.mem_cons.1 hcut.mem with rfl | hmem
      · refine ⟨cut, offset, List.mem_cons_self, ?_, hcut.aligned, hcut.room, ?_⟩
        · rw [hsame, hcut.site, hregion]
        · have := hcut.used
          omega
      · exact ⟨other, offset, List.mem_cons_of_mem _ hmem, hsame.trans hcut.site, hcut.aligned,
          hcut.room, hcut.used⟩
  case apart =>
    intro b c d e region i j hbc
    refine h.apart_of_push hblocks (fun b c d region i j hb hc _ hi hj => ?_) hbc
    -- the new block starts where what was cut from the arena before has ended
    rw [hsite] at hj
    cases hj
    obtain ⟨hold, hsame⟩ := small_of_push hblocks hc hb
    exact h.stop_le_used List.mem_cons_self hold (hsame.symm.trans hi)
  case large =>
    intro b n hb
    have hne : b ≠ p.blocks.size := by
      rintro rfl
      rw [hkind] at hb
      cases hb
    obtain ⟨hold, hsame⟩ := large_of_push hblocks hb hne
    obtain ⟨region, hr, hlt, hnone⟩ := h.large b n hold
    exact ⟨region, hsame.trans hr, hrequests ▸ hlt, hregions ▸ hnone⟩
  case alone =>
    intro b c m n region hbc
    refine h.alone_of_push hblocks (fun _ m _ _ hm => ?_) hbc
    rw [hkind] at hm
    cases hm

end Process

/-! ### What requests do to the layout -/

/-- A piece starts at the cursor, which moves behind it. -/
theorem Arena.carve?_cases {arena cut : Arena} {size offset : Nat}
    (h : arena.carve? size = some (offset, cut)) (hsize : 16 ∣ size) :
    offset = arena.used ∧ cut = { arena with used := arena.used + size } ∧
      arena.used + size ≤ arena.size := by
  simp only [Arena.carve?, Option.bind_eq_bind, Option.bind_eq_some_iff] at h
  obtain ⟨aligned, haligned, stop, hstop, h⟩ := h
  obtain ⟨-, rfl⟩ := Size.align?_eq_some.1 haligned
  obtain ⟨-, rfl⟩ := Size.add?_eq_some.1 hstop
  have hround : (size + 15) / 16 * 16 = size := by omega
  rw [hround] at h
  split at h
  · cases h
  · cases h
    exact ⟨rfl, rfl, by omega⟩

namespace ArenaPool

variable {pool pool' : ArenaPool} {p p' : Process} {rest : List Arena}

/-- Growing keeps the layout. -/
theorem layout_grow {least : Nat} {grown : Bool} (h : pool.grow p least = (grown, pool', p'))
    (hlayout : p.Layout (pool.arenas.toList ++ rest)) :
    p'.Layout (pool'.arenas.toList ++ rest) := by
  rcases grow_cases h with ⟨-, rfl, hsame⟩ | ⟨-, size, -, -, rfl, hsame, hrequests, -⟩
  · exact hlayout.sameBut hsame
  · refine (hlayout.addArena size hsame hrequests).perm ?_
    simp only [Array.toList_push, List.append_assoc, List.singleton_append]
    exact List.perm_middle.symm

/-- A small block cut from the newest arena keeps the layout. -/
theorem layout_carveNewest? {cls : SizeClass} {place : Nat × Nat}
    (h : pool.carveNewest? (blockPrefixSize + cls.bytes) = some (place, pool'))
    (hlayout : p.Layout (pool.arenas.toList ++ rest)) :
    (p.addBlock (Storage.carvedBlock p cls place.1 place.2)).2.Layout
      (pool'.arenas.toList ++ rest) := by
  obtain ⟨before, arena, cut, hbefore, hcarve, hregion, rfl⟩ := carveNewest?_cases h
  have hsize : 16 ∣ blockPrefixSize + cls.bytes :=
    ⟨cls.val + 2, by simp only [SizeClass.bytes, blockPrefixSize]; omega⟩
  obtain ⟨hoffset, rfl, hroom⟩ := Arena.carve?_cases hcarve hsize
  -- the newest arena is the last one, and the invariant takes it from the front
  have hperm : (pool.arenas.toList ++ rest).Perm (arena :: (before.toList ++ rest)) := by
    rw [hbefore, Array.toList_push, List.append_assoc, List.singleton_append]
    exact List.perm_middle
  have hadded : (p.addBlock (Storage.carvedBlock p cls place.1 place.2)).2.Layout
      ({ arena with used := arena.used + (blockPrefixSize + cls.bytes) }
        :: (before.toList ++ rest)) := by
    have hblock : (p.addBlock (Storage.carvedBlock p cls place.1 place.2)).2.blocks
        = p.blocks.push ⟨.carved arena.region (arena.used + blockPrefixSize), .pool cls,
          p.system.fresh arena.region (arena.used + blockPrefixSize)⟩ := by
      rw [hregion, hoffset]
      rfl
    exact (hlayout.perm hperm).addSmall rfl rfl hroom hblock rfl
  refine hadded.perm ?_
  simp only [Array.toList_push, List.append_assoc, List.singleton_append]
  exact List.perm_middle.symm

/-- A small block that is cut keeps the layout. -/
theorem layout_carve {cls : SizeClass} {place : Nat × Nat}
    (h : pool.carve p (blockPrefixSize + cls.bytes) = (some place, pool', p'))
    (hlayout : p.Layout (pool.arenas.toList ++ rest)) :
    (p'.addBlock (Storage.carvedBlock p' cls place.1 place.2)).2.Layout
      (pool'.arenas.toList ++ rest) := by
  rcases carve_cases h with
    ⟨found, hfound, hnewest, rfl⟩ | ⟨larger, found, hgrow, hfound, hnewest⟩ |
    ⟨hnone, -⟩
  · cases hfound
    exact layout_carveNewest? hnewest hlayout
  · cases hfound
    exact layout_carveNewest? hnewest (layout_grow hgrow hlayout)
  · cases hnone

/-- A pool that cut nothing leaves the layout. -/
theorem layout_carve_none {size : Nat} (h : pool.carve p size = (none, pool', p'))
    (hlayout : p.Layout (pool.arenas.toList ++ rest)) :
    p'.Layout (pool'.arenas.toList ++ rest) := by
  rcases carve_cases h with ⟨found, hfound, -, -⟩ | ⟨larger, found, -, hfound, -⟩ |
    ⟨-, rfl, hsame⟩
  · cases hfound
  · cases hfound
  · exact hlayout.sameBut hsame

end ArenaPool

namespace Storage

variable {s s' : Storage} {a : Address} {size : Nat} {made : Option Address} {rest : List Arena}

/-- A request keeps the layout. -/
theorem Served.layout (h : Served s size made s') (hlisted : s.allocator.Listed s.process)
    (hlayout : s.process.Layout (s.allocator.arenas.arenas.toList ++ rest)) :
    s'.process.Layout (s'.allocator.arenas.arenas.toList ++ rest) := by
  cases h with
  | @reused cls a list hcls hlist =>
    have hfreed := hlisted.freed cls a (by rw [hlist]; exact List.mem_cons_self)
    exact hlayout.mark (Process.smallClass?_freed hfreed) (.inl rfl)
  | carved hcls hlist hcarve => exact ArenaPool.layout_carve hcarve hlayout
  | uncarved hcls hlist hcarve => exact ArenaPool.layout_carve_none hcarve hlayout
  | large hcls hlimit => exact hlayout.addLarge rfl rfl
  | refused hcls hsame => exact hlayout.sameBut hsame

/-- A release keeps the layout. -/
theorem Freed.layout (h : Freed s a s')
    (hlayout : s.process.Layout (s.allocator.arenas.arenas.toList ++ rest)) :
    s'.process.Layout (s'.allocator.arenas.arenas.toList ++ rest) := by
  cases h with
  | pool hkind => exact hlayout.mark (Process.smallClass?_pool hkind) (.inr rfl)
  | @heap old hkind =>
    have hmarked : (s.process.setKind a .foreign).Layout
        (s.allocator.arenas.arenas.toList ++ rest) :=
      hlayout.markLarge hkind (.inl rfl)
    exact hmarked.congr (Nat.le_refl _) (fun _ => rfl) (fun b n hb => ⟨n, hb⟩) fun _ => rfl

/-- Resizing a large block keeps the layout. -/
theorem layout_heapRealloc {p p' : Process} {arenas : List Arena} {old : Nat}
    {moved : Option Address} (h : p.heapRealloc a old size = (moved, p'))
    (hkind : p.kind a = .heap old) (hlayout : p.Layout arenas) : p'.Layout arenas := by
  rcases Process.heapRealloc_cases h with ⟨-, hsame⟩ | ⟨-, rfl⟩ | ⟨-, rfl⟩
  · exact hlayout.sameBut hsame
  · have hafter : (p.afterResize old (max size 1)).Layout arenas :=
      hlayout.congr (Nat.le_succ _) (fun _ => rfl) (fun b n hb => ⟨n, hb⟩) fun _ => rfl
    have hmarked : ((p.afterResize old (max size 1)).setKind a (.heap (max size 1))).Layout
        arenas :=
      hafter.markLarge hkind (.inr ⟨_, rfl⟩)
    exact hmarked.modifyPayload _ _
  · -- The block at the old address goes first, then the new one comes.
    have hmarked : (p.setKind a .foreign).Layout arenas := hlayout.markLarge hkind (.inl rfl)
    exact hmarked.addLarge rfl rfl

/-- A resize keeps the layout. -/
theorem Resized.layout {moved : Option Address} (h : Resized s a size moved s')
    (hlisted : s.allocator.Listed s.process)
    (hlayout : s.process.Layout (s.allocator.arenas.arenas.toList ++ rest)) :
    s'.process.Layout (s'.allocator.arenas.arenas.toList ++ rest) := by
  cases h with
  | stays hkind hcls => exact hlayout
  | @moved b s₁ _ hkind hserved hfreed =>
    have hlayout₁ := (hserved.layout hlisted hlayout).modifyPayload b
      (·.copyFrom (s₁.process.payload a) (min (s.process.kind a).usable size))
    exact hfreed.layout hlayout₁
  | unmoved hserved => exact hserved.layout hlisted hlayout
  | resized hkind hcls hlimit hheap => exact layout_heapRealloc hheap hkind hlayout
  | refused hsame => exact hlayout.sameBut hsame

end Storage

end ExtensionHost
