import ExtensionHost.Proofs.Storage.Links

/-!
# `ExtensionHost.Proofs.Storage.Isolation`: blocks never share memory, seen in memory

`isolated_of_reachable` is about memory as it comes about when any number of allocators
work on it, with the links in the prefixes and nothing else to find a freed block by.

The lists that the links make are finite, go through no block twice and through no block
in use, and no two of them meet (`FlatSharedStorage.InOrder`): the links follow the
lists of shared storage (`chain_of_linked`), which are in order
(`SharedStorage.Sound.inOrder`), and from one head the links lead one way
(`Chain.unique`).

No byte lies in two blocks, in use or freed (`SharedStorage.Spread`), as long as the
system keeps its regions apart. And no operation writes to a block that it is not about
(`Shows.untouched`): what it writes lies in the block that it is given or in the block
that it hands out (`SharedStorage.Writes.covered`), since none of its copies is longer
than both have room.
-/

set_option autoImplicit false

namespace ExtensionHost

/-- The address of a place, given where the system has put the regions. -/
def Place.address (base : Nat → Nat) (q : Place) : Nat := base q.region + q.offset

namespace SharedStorage

variable {f f' : SharedStorage} {a b : Address} {command : Command Address} {made : Option Address}
  {x : Place}

/-! ### No byte is in two blocks -/

/-- Where blocks lie, those that are in use and those that wait: a small one with its
prefix in one arena, every one at a multiple of sixteen, and no byte in two of them. -/
structure Spread (f : SharedStorage) (base : Nat → Nat) : Prop where
  small : ∀ a cls, f.process.smallClass? a = some cls → ∃ arena ∈ f.arenas,
    (f.process.front a).region = arena.region ∧
      (f.process.place a).offset + cls.bytes ≤ arena.size ∧
      16 ∣ (f.process.place a).address base
  large : ∀ a size, f.process.kind a = .heap size → 16 ∣ (f.process.place a).address base
  apart : ∀ a b x y, a ≠ b → f.process.kind a ≠ .foreign → f.process.kind b ≠ .foreign →
    f.process.Covers a x → f.process.Covers b y → x.address base ≠ y.address base

/-- In storage that is sound no byte lies in two blocks. -/
theorem Sound.spread {base : Nat → Nat} (h : f.Sound) (hplaced : f.Placed base) :
    f.Spread base where
  small a cls ha := by
    obtain ⟨arena, harena, offset, hextent, hroom, hstop, haligned⟩ :=
      (h.separated hplaced).small a cls ha
    have hne : f.process.kind a ≠ .foreign := fun heq => by simp [Process.smallClass?, heq] at ha
    rw [h.layout.extent?_front hne, Option.some.injEq, Extent.mk.injEq] at hextent
    obtain ⟨hregion, hstart, -⟩ := hextent
    have hoffset : (f.process.place a).offset = offset := by
      simp only [Process.place, Place.payload, Place.shift]
      omega
    refine ⟨arena, harena, hregion, hoffset ▸ hstop, ?_⟩
    rw [Place.address, hoffset]
    exact hregion ▸ haligned
  large a size ha := by
    obtain ⟨region, hextent, haligned⟩ := (h.separated hplaced).large a size ha
    rw [h.layout.extent?_front (Process.ne_foreign_of_live (Process.live_heap ha)),
      Option.some.injEq, Extent.mk.injEq] at hextent
    obtain ⟨hregion, hstart, -⟩ := hextent
    have hoffset : (f.process.place a).offset = 16 := by
      simp only [Process.place, Place.payload, Place.shift, blockPrefixSize]
      omega
    rw [Place.address, hoffset]
    exact Nat.dvd_add (hregion ▸ haligned) (Nat.dvd_refl 16)
  apart a b x y hab ha hb hx hy := by
    -- extents are apart as intervals of addresses, so no address is in both
    have hapart := (h.separated hplaced).apart a b _ _ hab (h.layout.extent?_front ha)
      (h.layout.extent?_front hb)
    obtain ⟨hregion, hle, hlt⟩ := hx
    obtain ⟨hregion', hle', hlt'⟩ := hy
    rw [Extent.Apart] at hapart
    simp only at hapart
    rw [Place.address, Place.address, hregion, hregion']
    omega

/-! ### What is written -/

/-- What an operation is given is in use. -/
theorem Step.target_held (h : f.Step command made f') (ha : command.target = some a) :
    a ∈ f.held := by
  cases h with
  | start settings => cases ha
  | drop hi => cases ha
  | alloc hi hrun => cases ha
  | allocZeroed hi hrun => cases ha
  | realloc hi hheld hrun =>
    cases ha
    exact hheld
  | free hi hheld hrun =>
    cases ha
    exact hheld
  | write hheld hoffset cell =>
    cases ha
    exact hheld

/-- The first bytes of a block that was asked for lie in it. -/
theorem Sound.covers_made {size count : Nat} (h : f'.Sound) (hkeeps : f.Keeps command made f')
    (hb : made = some b) (hsize : command.size? = some size) (hcount : count ≤ size)
    (hx : x.Within (f'.process.place b) count) : f'.process.Covers b x := by
  refine Process.covers_of_payload ?_ hx
  rw [BlockKind.room_of_isLive ((h.live b).1 (hkeeps.handed b hb))]
  exact Nat.le_trans hcount (hkeeps.room b size hb hsize)

/-- What an operation writes lies in the block that it is given or in the block that it
hands out. -/
theorem Writes.covered (h : Writes f f' command made x) (hsound : f.Sound)
    (hstep : f.Step command made f') :
    (∃ a, command.target = some a ∧ f.process.Covers a x) ∨
      ∃ b, made = some b ∧ f'.process.Covers b x := by
  have hsound' := sound_step hsound hstep
  have hkeeps := hsound.keeps hstep
  cases h with
  | handed htarget hb hx => exact .inr ⟨_, hb, Process.covers_of_front hx⟩
  | zeroed hcommand hb hx =>
    subst hcommand
    exact .inr ⟨_, hb, hsound'.covers_made hkeeps hb rfl (Nat.le_refl _) hx⟩
  | resized hcommand hb hwrites =>
    subst hcommand
    cases hwrites with
    | made hx => exact .inr ⟨_, hb, Process.covers_of_front hx⟩
    | ended hx => exact .inl ⟨_, rfl, Process.covers_of_front hx⟩
    | copied hba hx =>
      exact .inr ⟨_, hb, hsound'.covers_made hkeeps hb rfl (Nat.min_le_right _ _) hx⟩
    | stretched hba hx =>
      -- the bytes that were added lie between the old size and the new one
      refine .inr ⟨_, hb, hsound'.covers_made hkeeps hb rfl (Nat.le_refl _) ?_⟩
      obtain ⟨hregion, hle, hlt⟩ := hx
      refine ⟨hregion, ?_, ?_⟩ <;> simp only [Place.shift] at hle hlt <;> omega
  | freed hcommand hx =>
    subst hcommand
    exact .inl ⟨_, rfl, Process.covers_of_front hx⟩
  | @written a offset cell hcommand hx =>
    subst hcommand
    cases hstep with
    | write ha hoffset _ =>
      refine .inl ⟨a, rfl, ?_⟩
      have hroom : (f.process.kind a).room = (f.process.kind a).usable :=
        BlockKind.room_of_isLive ((hsound.live a).1 ha)
      refine Process.covers_of_payload (Nat.le_of_eq hroom.symm) ?_
      obtain ⟨hregion, hle, hlt⟩ := hx
      refine ⟨hregion, ?_, ?_⟩ <;> simp only [Place.shift] at hle hlt <;> omega

/-- No operation writes to a block that it is not about, be it in use or freed. -/
theorem Writes.not_covers (h : Writes f f' command made x) (hsound : f.Sound)
    (hstep : f.Step command made f') (hb : f.process.kind b ≠ .foreign)
    (htarget : command.target ≠ some b) (hmade : made ≠ some b) : ¬ f.process.Covers b x := by
  intro hx
  rcases h.covered hsound hstep with ⟨a, ha, hcovers⟩ | ⟨c, hc, hcovers⟩
  · have hba : b ≠ a := fun heq => htarget (heq ▸ ha)
    have hlive := (hsound.live a).1 (hstep.target_held ha)
    exact hsound.layout.not_covers hba (Process.ne_foreign_of_live hlive) hb hx hcovers
  · have hbc : b ≠ c := fun heq => hmade (heq ▸ hc)
    have hblock := (hsound.keeps hstep).others b htarget hmade
    have hsound' := sound_step hsound hstep
    have hlive := (hsound'.live c).1 ((hsound.keeps hstep).handed c hc)
    exact hsound'.layout.not_covers hbc (Process.ne_foreign_of_live hlive)
      (Process.kind_congr hblock ▸ hb) ((Process.covers_congr hblock).2 hx) hcovers

/-! ### Memory that shows an allocator at work -/

/-- A list does not need the links that lead out of the table. -/
theorem Linked.filter {link : Address → Option Address} {list : List Address} {count : Nat}
    (h : Linked link list) (hlist : ∀ b ∈ list, b < count) :
    Linked (fun b => (link b).filter (· < count)) list := by
  induction list with
  | nil => trivial
  | cons b rest ih =>
    refine ⟨?_, ih h.2 fun c hc => hlist c (List.mem_cons_of_mem _ hc)⟩
    show (link b).filter (· < count) = rest.head?
    rw [h.1]
    cases rest with
    | nil => rfl
    | cons c _ =>
      have hc : c < count := hlist c (List.mem_cons_of_mem _ List.mem_cons_self)
      simp only [List.head?_cons, Option.filter_some, decide_eq_true hc, if_true]

/-- There is a memory that shows what an allocator works on. -/
theorem Sound.exists_shown {i : Nat} {allocator : Allocator} (h : f.Sound)
    (hi : f.Has i allocator) :
    ∃ link memory, Storage.Shown ⟨allocator, f.process⟩ link (f.otherArenas i) memory := by
  have hlayout := h.layout.perm (arenas_perm hi)
  have hlisted := h.listed i allocator hi
  obtain ⟨memory, hshown⟩ := hlayout.exists_shown
    (fun a => (f.link a).filter (· < f.process.blocks.size)) fun a b hb => by
      simpa using (Option.filter_eq_some_iff.1 hb).2
  refine ⟨_, memory, hlisted, fun cls => ?_, hlayout, hshown⟩
  exact (h.linked i allocator cls hi).filter fun b hb =>
    Process.lt_size_of_kind (Process.ne_foreign_of_freed (hlisted.freed cls b hb))

/-- In memory that shows what an allocator works on, a block that is resized is resized as
it is in the table. No byte is written but those that are to be written, and none of another
block, be it in use or freed. -/
theorem Sound.realloc_inMemory {i size : Nat} {allocator : Allocator} {s : Storage}
    {moved : Option Address}
    {link : Address → Option Address} {memory : FlatMemory} (h : f.Sound) (hi : f.Has i allocator)
    (ha : a ∈ f.held) (hrun : Storage.realloc a size ⟨allocator, f.process⟩ = .ok moved s)
    (hshown : Storage.Shown ⟨allocator, f.process⟩ link (f.otherArenas i) memory) :
    ∃ memory', FlatStorage.realloc (f.process.place a) size
        (Storage.flat ⟨allocator, f.process⟩ memory) =
          .ok (moved.map s.process.place) (s.flat memory') ∧
      (∀ x, memory' x ≠ memory x →
        ∃ b, moved = some b ∧ f.process.ResizeWrites s.process a b size x) ∧
      ∀ b x, b ≠ a → moved ≠ some b → f.process.kind b ≠ .foreign → f.process.Covers b x →
        memory' x = memory x := by
  obtain ⟨memory', hran, -, hwritten⟩ := hshown.realloc ((h.live a).1 ha) hrun
    (FlatSharedStorage.relinks_exchange { f with link } allocator a size moved)
  refine ⟨memory', hran, hwritten, fun b x hba hmoved hb hx => ?_⟩
  by_contra hne
  obtain ⟨c, hc, hwrites⟩ := hwritten x hne
  refine Writes.not_covers (.resized rfl hc hwrites) h (.realloc hi ha hrun) hb ?_ hmoved hx
  exact fun heq => hba (Option.some.inj heq).symm

end SharedStorage

namespace FlatSharedStorage

open SharedStorage (Command Linked Writes)

variable {g g' : FlatSharedStorage} {f f' : SharedStorage} {i j : Nat} {a b : Address}
  {made : Option Address}
  {command : Command Address}

/-! ### The links -/

/-- A list as it lies in memory: from its head on each prefix says that its block is
freed, of the class of the list, and where the next prefix is. -/
inductive Chain (memory : FlatMemory) (cls : SizeClass) : Option Place → List Place → Prop
  | nil : Chain memory cls none []
  | cons {front : Place} {next : Option Place} {rest : List Place}
      (hfront : memory front = .start (.freed cls next)) (hrest : Chain memory cls next rest) :
      Chain memory cls (some front) (front :: rest)

/-- The links lead one way. -/
theorem Chain.unique {memory : FlatMemory} {cls : SizeClass} {head : Option Place}
    {list list' : List Place} (h : Chain memory cls head list) (h' : Chain memory cls head list') :
    list = list' := by
  induction h generalizing list' with
  | nil =>
    cases h'
    rfl
  | cons hfront _ ih =>
    cases h' with
    | cons hfront' hrest' =>
      rw [hfront] at hfront'
      cases hfront'
      rw [ih hrest']

/-- The links in memory are those of a list, whose blocks are all freed. -/
theorem chain_of_linked {p : Process} {link : Address → Option Address} {arenas : List Arena}
    {memory : FlatMemory} {cls : SizeClass} {list : List Address}
    (hshown : p.Shown link arenas memory) (hlinked : Linked link list)
    (hfreed : ∀ a ∈ list, p.kind a = .freed cls) :
    Chain memory cls (list.head?.map p.front) (list.map p.front) := by
  induction list with
  | nil => exact .nil
  | cons a rest ih =>
    have ha := hfreed a List.mem_cons_self
    have hfront : memory (p.front a) = .start (.freed cls (rest.head?.map p.front)) := by
      rw [(hshown.block a).front (Process.ne_foreign_of_freed ha), Process.prefixOf, ha, hlinked.1]
    exact .cons hfront (ih hlinked.2 fun b hb => hfreed b (List.mem_cons_of_mem _ hb))

/-- What the links in memory come to. The classes that blocks were cut for are those of
shared storage. -/
structure InOrder (g : FlatSharedStorage) (f : SharedStorage) : Prop where
  /-- The prefix of a block in use says so, and a small one has the class that it was cut
  for. -/
  used : ∀ a ∈ f.held,
    (∃ cls, g.process.prefixOf (f.process.place a) = .pool cls ∧ f.cutAs a = some cls) ∨
      ∃ size, g.process.prefixOf (f.process.place a) = .heap size
  /-- The links of a list end, after they have led once through each of its blocks. None of
  them is in use, and all were cut for the class of the list. -/
  chained : ∀ i allocator cls, g.Has i allocator → ∃ list,
    Chain g.process.memory cls allocator.heads[cls] list ∧ list.Nodup ∧
      ∀ front ∈ list, front.payload ∉ g.held ∧
        ∃ a, f.process.front a = front ∧ f.cutAs a = some cls
  /-- Two lists have no block in common. -/
  apart : ∀ i j allocator other c d list list', (i, c) ≠ (j, d) → g.Has i allocator →
    g.Has j other → Chain g.process.memory c allocator.heads[c] list →
    Chain g.process.memory d other.heads[d] list' → ∀ front ∈ list, front ∉ list'

/-- The links of a list lead through the list. -/
theorem Shows.chain (h : g.Shows f) (hsound : f.Sound) {flat : FlatAllocator} (hi : g.Has i flat)
    (cls : SizeClass) : ∃ allocator, f.Has i allocator ∧ Chain g.process.memory cls flat.heads[cls]
      ((allocator.freeLists[cls]).map f.process.front) := by
  obtain ⟨allocator, hi', rfl⟩ := h.exists_has (Option.join_eq_some_iff.2 hi)
  refine ⟨allocator, hi', ?_⟩
  rw [Allocator.getElem_heads]
  exact chain_of_linked h.shown (hsound.linked i allocator cls hi')
    ((hsound.listed i allocator hi').freed cls)

/-- The prefixes of two freed blocks are in different places. -/
theorem front_inj {p : Process} {arenas : List Arena} {c d : SizeClass} (hlayout : p.Layout arenas)
    (ha : p.kind a = .freed c) (hb : p.kind b = .freed d) (hfront : p.front b = p.front a) :
    b = a := by
  by_contra hba
  exact hlayout.place_ne hba (Process.ne_foreign_of_freed ha)
    (Process.ne_foreign_of_freed hb) hfront

/-- What a sound storage is shown by has its links in order. -/
theorem Shows.inOrder (h : g.Shows f) (hsound : f.Sound) : g.InOrder f where
  used a ha := by
    rw [h.prefixOf hsound ha]
    rcases hsound.inOrder.used a ha with ⟨cls, hkind, hcut⟩ | ⟨size, hkind⟩
    · exact .inl ⟨cls, by rw [Process.prefixOf, hkind], hcut⟩
    · exact .inr ⟨size, by rw [Process.prefixOf, hkind]⟩
  chained i flat cls hi := by
    obtain ⟨allocator, hi', hchain⟩ := h.chain hsound hi cls
    have hlisted := hsound.listed i allocator hi'
    refine ⟨_, hchain, ?_, fun front hfront => ?_⟩
    · refine List.Nodup.map_on (fun a ha b hb heq => ?_) (hlisted.nodup cls)
      exact front_inj hsound.layout (hlisted.freed cls b hb) (hlisted.freed cls a ha) heq
    · obtain ⟨a, ha, rfl⟩ := List.mem_map.1 hfront
      obtain ⟨-, hkind, hcut⟩ := hsound.inOrder.waiting i allocator cls hi' a ha
      refine ⟨fun hmem => ?_, a, rfl, hcut⟩
      -- a block in use that starts there would be this one
      obtain ⟨b, hb, hplace⟩ := (h.held _).1 hmem
      have hlive := (hsound.live b).1 hb
      have hne := Process.ne_foreign_of_live hlive
      have hba : b ≠ a := by
        rintro rfl
        exact Process.not_live_freed hkind hlive
      refine hsound.layout.place_ne hba (Process.ne_foreign_of_freed hkind) hne ?_
      rw [← Place.front_payload (f.process.front b), ← Place.front_payload (f.process.front a)]
      exact congrArg Place.front hplace
  apart i j flat other c d list list' hne hi hj hlist hlist' front hfront hfront' := by
    obtain ⟨allocator, hi', hchain⟩ := h.chain hsound hi c
    obtain ⟨allocator', hj', hchain'⟩ := h.chain hsound hj d
    rw [hlist.unique hchain] at hfront
    rw [hlist'.unique hchain'] at hfront'
    obtain ⟨a, ha, rfl⟩ := List.mem_map.1 hfront
    obtain ⟨b, hb, heq⟩ := List.mem_map.1 hfront'
    obtain rfl := front_inj hsound.layout ((hsound.listed i allocator hi').freed c a ha)
      ((hsound.listed j allocator' hj').freed d b hb) heq
    exact hsound.inOrder.apart i j allocator allocator' c d b hne hi' hj' ha hb

/-! ### Operations -/

/-- What an operation does in memory and to the storage that memory shows. -/
structure Carries (g g' : FlatSharedStorage) (f f' : SharedStorage) (command : Command Address)
    (made : Option Address) : Prop where
  step : f.Step command made f'
  shows : g'.Shows f'
  keeps : f.Keeps command made f'
  /-- What is handed out lies over no block in use. -/
  apart : ∀ base, f'.Placed base → ∀ a b x y, made = some a → b ∈ f.held →
    command.target ≠ some b → f'.process.Covers a x → f.process.Covers b y →
    x.address base ≠ y.address base
  /-- No byte is written but those that are to be written. -/
  writes : ∀ x, g'.process.memory x ≠ g.process.memory x → Writes f f' command made x
  /-- Neither the prefix nor the payload of a block is written that the operation is not
  about, be it in use or freed. -/
  untouched : ∀ b x, f.process.kind b ≠ .foreign → command.target ≠ some b → made ≠ some b →
    f.process.Covers b x → g'.process.memory x = g.process.memory x

/-- Bytes that may be written are in no block but those that the operation is about. -/
theorem carries_of_writes (hsound : f.Sound) (hstep : f.Step command made f') (hshows : g'.Shows f')
    (hwrites : ∀ x, g'.process.memory x ≠ g.process.memory x → Writes f f' command made x) :
    Carries g g' f f' command made where
  step := hstep
  shows := hshows
  keeps := hsound.keeps hstep
  apart base hplaced a b x y ha hb htarget hx hy := by
    have hkeeps := hsound.keeps hstep
    have hmade := hkeeps.not_made hb htarget
    have hsound' := SharedStorage.sound_step hsound hstep
    have hblock := hkeeps.others b htarget hmade
    have hused : ∀ c ∈ f'.held, f'.process.kind c ≠ .foreign := fun c hc =>
      Process.ne_foreign_of_live ((hsound'.live c).1 hc)
    have hab : a ≠ b := fun heq => hmade (heq ▸ ha)
    exact (hsound'.spread hplaced).apart a b x y hab (hused a (hkeeps.handed a ha))
      (hused b (hkeeps.held b hb htarget)) hx ((Process.covers_congr hblock).2 hy)
  writes := hwrites
  untouched b x hb htarget hmade hx := by
    by_contra hne
    exact (hwrites x hne).not_covers hsound hstep hb htarget hmade hx

/-- In any memory that comes about, and there is one for all shared storage that comes
about: the links and the prefixes are in order; no byte lies in two blocks, as long as
the system keeps its regions apart; an operation hands out what lies over nothing in
use, and writes to no block that it is not about; and whoever holds a block can give it
back or resize it through any allocator. -/
theorem isolated_of_reachable (h : g.Reachable) :
    (∀ f : SharedStorage, f.Reachable → ∃ g : FlatSharedStorage, g.Reachable ∧ g.Shows f) ∧
      ∃ f : SharedStorage, f.Reachable ∧ g.Shows f ∧ g.InOrder f ∧
        (∀ base, f.Placed base → f.Spread base) ∧
        (∀ command answer g', g.perform command = some (answer, g') →
          ∃ command' made f', command'.map f.process.place = command ∧
            made.map f'.process.place = answer ∧ Carries g g' f f' command' made) ∧
        ∀ i allocator q, g.Has i allocator → q ∈ g.held →
          (∃ g', g.perform (.free i q) = some (none, g')) ∧
            ∀ size, ∃ answer g', g.perform (.realloc i q size) = some (answer, g') := by
  obtain ⟨f, hf, hshows⟩ := exists_shared_of_reachable h
  have hsound := SharedStorage.sound_of_reachable hf
  refine ⟨fun _ => exists_shows_of_reachable, f, hf, hshows, hshows.inOrder hsound,
    fun base hplaced => hsound.spread hplaced, fun command answer g' hrun => ?_,
    fun i flat q hi hq => ?_⟩
  · obtain ⟨command', made, f', hcommand, hanswer, hstep, hshows', hwrites⟩ :=
      hshows.follow hsound hrun
    exact ⟨command', made, f', hcommand, hanswer, carries_of_writes hsound hstep hshows' hwrites⟩
  · obtain ⟨allocator, hi', -⟩ := hshows.exists_has (Option.join_eq_some_iff.2 hi)
    obtain ⟨a, ha, rfl⟩ := (hshows.held q).1 hq
    have hlive := (hsound.live a).1 ha
    refine ⟨?_, fun size => ?_⟩
    · obtain ⟨s, hrun, -⟩ := Storage.freed_free (s := ⟨allocator, f.process⟩) hlive
      obtain ⟨g', hran, -⟩ := hshows.step hsound (.free hi' ha hrun)
      exact ⟨g', hran⟩
    · obtain ⟨moved, s, hrun, -⟩ := Storage.resized_realloc (s := ⟨allocator, f.process⟩) hlive
        (hsound.listed i allocator hi') size
      obtain ⟨g', hran, -⟩ := hshows.step hsound (.realloc hi' ha hrun)
      exact ⟨_, g', hran⟩

/-! ### A run -/

/-- All arenas of flat shared storage. -/
def arenas (g : FlatSharedStorage) : List Arena :=
  g.process.orphans ++ g.allocators.flatMap (·.elim [] (·.arenas.arenas.toList))

/-- The allocators in memory have the arenas of those that they show. -/
theorem Shows.arenas (h : g.Shows f) : g.arenas = f.arenas := by
  have hlists : (fun allocator : Option Allocator =>
      (allocator.map (·.flat f.process.front)).elim [] (·.arenas.arenas.toList))
        = SharedStorage.arenasOf := by
    funext allocator
    cases allocator <;> rfl
  rw [FlatSharedStorage.arenas, SharedStorage.arenas, h.allocators, List.flatMap_map, h.process]
  exact congrArg (fun list => f.process.orphans ++ f.allocators.flatMap list) hlists

/-- A single arena lies over nothing when no large block is in use. -/
theorem Shows.placed_of_single {arena : Arena} {base : Nat → Nat} (h : g.Shows f)
    (hsound : f.Sound) (harenas : g.arenas = [arena])
    (hsmall : ∀ q ∈ g.held, ∃ cls, g.process.prefixOf q = .pool cls)
    (haligned : 16 ∣ base arena.region) : f.Placed base := by
  have hregion : ∀ region size, f.Region region size → region = arena.region := by
    intro region size hused
    cases hused with
    | arena hmem =>
      rw [← h.arenas, harenas, List.mem_singleton] at hmem
      rw [hmem]
    | @large a _ _ hkind _ =>
      have ha := (hsound.live a).2 (Process.live_heap hkind)
      obtain ⟨cls, hpool⟩ := hsmall _ ((h.held _).2 ⟨a, ha, rfl⟩)
      rw [h.prefixOf hsound ha, Process.prefixOf, hkind] at hpool
      cases hpool
  refine ⟨fun region size hused => ?_, fun region size region' size' hused hused' hne => ?_⟩
  · rw [hregion region size hused]
    exact haligned
  · exact absurd ((hregion _ _ hused).trans (hregion _ _ hused').symm) hne

/-- Flat shared storage after several commands. -/
def performAll (g : FlatSharedStorage) : List (Command Place) → Option FlatSharedStorage
  | [] => some g
  | command :: rest => (g.perform command).bind fun (_, g') => g'.performAll rest

/-- Commands that run one after the other lead to what comes about. -/
theorem reachable_performAll {commands : List (Command Place)} (h : g.Reachable)
    (hrun : g.performAll commands = some g') : g'.Reachable := by
  induction commands generalizing g with
  | nil =>
    cases hrun
    exact h
  | cons command rest ih =>
    obtain ⟨⟨answer, next⟩, hperform, hrest⟩ := Option.bind_eq_some_iff.1 hrun
    exact ih (.step h hperform) hrest

/-- Two allocators, the first of which has cut three blocks. The second one has taken back
the first and the third, and the last byte of the block between them is written. -/
def crossed : Option FlatSharedStorage :=
  performAll { process := { system := .bounded 4096, memory := .given (.bounded 4096) } }
    [.start ⟨1024, 1024, none⟩, .start ⟨1024, 1024, none⟩, .alloc 0 16, .alloc 0 16, .alloc 0 16,
      .write ⟨0, 48⟩ 15 (.byte 7), .free 1 ⟨0, 16⟩, .free 1 ⟨0, 80⟩]

/-- The links lead from the third block to the first one. The second allocator hands the
third one out again and writes to its prefix, which starts right behind the byte that was
written. That one stays, and the block lies over no byte of the one in front of it. -/
theorem isolated_crossed : ∃ (g g' : FlatSharedStorage) (f f' : SharedStorage) (a b : Address),
    crossed = some g ∧ Chain g.process.memory 0 (some ⟨0, 64⟩) [⟨0, 64⟩, ⟨0, 0⟩] ∧
      g.perform (.alloc 1 16) = some (some ⟨0, 80⟩, g') ∧
      Carries g g' f f' (.alloc 1 16) (some a) ∧ f'.process.place a = ⟨0, 80⟩ ∧
      f.process.place b = ⟨0, 48⟩ ∧ g'.process.memory ⟨0, 64⟩ = .start (.pool 0) ∧
      g'.process.memory ⟨0, 63⟩ = .cell (.byte 7) ∧
      ∀ x y, f'.process.Covers a x → f.process.Covers b y →
        x.address (· * 4096) ≠ y.address (· * 4096) := by
  obtain ⟨g, hg⟩ : ∃ g, crossed = some g := Option.isSome_iff_exists.1 (by decide)
  have hread : ∀ {α : Type} (read : FlatSharedStorage → α), crossed.map read = some (read g) := by
    intro α read
    rw [hg]
    rfl
  obtain ⟨⟨answer, g'⟩, hstep⟩ : ∃ next, crossed.bind (·.perform (.alloc 1 16)) = some next :=
    Option.isSome_iff_exists.1 (by decide)
  have hnext : ∀ {α : Type} (read : Option Place × FlatSharedStorage → α),
      (crossed.bind (·.perform (.alloc 1 16))).map read = some (read (answer, g')) := by
    intro α read
    rw [hstep]
    rfl
  obtain rfl : answer = some ⟨0, 80⟩ := Option.some.inj ((hnext (·.1)).symm.trans (by decide))
  have hrun : g.perform (.alloc 1 16) = some (some ⟨0, 80⟩, g') := by rwa [hg] at hstep
  obtain ⟨-, f, hf, hshows, -, -, hcarries, -⟩ :=
    isolated_of_reachable (reachable_performAll (.start _ _) hg)
  obtain ⟨command, made, f', hcommand, hanswer, hcarried⟩ := hcarries _ _ g' hrun
  obtain rfl : command = .alloc 1 16 := by
    cases command <;> cases hcommand
    rfl
  obtain ⟨a, rfl, ha⟩ := Option.map_eq_some_iff.1 hanswer
  -- the block between the two that were freed
  have hheld : g.held = [⟨0, 48⟩] := Option.some.inj ((hread (·.held)).symm.trans (by decide))
  obtain ⟨b, hb, hplace⟩ := (hshows.held ⟨0, 48⟩).1 (by rw [hheld]; exact List.mem_cons_self)
  have hsound := SharedStorage.sound_of_reachable hf
  have hkind : f.process.kind b = .pool 0 := by
    have hfront : g.process.prefixOf ⟨0, 48⟩ = .pool 0 :=
      Option.some.inj ((hread (·.process.prefixOf ⟨0, 48⟩)).symm.trans (by decide))
    rw [← hplace, hshows.prefixOf hsound hb] at hfront
    rw [← Process.kind_prefixOf f.process f.link b, hfront]
    rfl
  have hcovers : f.process.Covers b ⟨0, 63⟩ := by
    have hlast := f.process.covers_shift (a := b) (i := 15) (by rw [hkind]; decide)
    rwa [hplace] at hlast
  have htarget : (Command.alloc 1 16 : Command Address).target ≠ some b :=
    (Option.some_ne_none b).symm
  have hstays := hcarried.untouched b ⟨0, 63⟩ (Process.ne_foreign_of_live (Process.live_pool hkind))
    htarget (hcarried.keeps.not_made hb htarget) hcovers
  have hplaced : f'.Placed (· * 4096) := by
    have harenas : g'.arenas = [⟨0, 1024, 96⟩] :=
      Option.some.inj ((hnext (·.2.arenas)).symm.trans (by decide))
    have hpools : g'.held.map g'.process.prefixOf = [.pool 0, .pool 0] :=
      Option.some.inj ((hnext fun r => r.2.held.map r.2.process.prefixOf).symm.trans (by decide))
    refine hcarried.shows.placed_of_single
      (SharedStorage.sound_of_reachable (.step hf hcarried.step))
      harenas (fun q hq => ⟨0, ?_⟩) (Nat.dvd_zero 16)
    have hmem := List.mem_map_of_mem (f := g'.process.prefixOf) hq
    rw [hpools] at hmem
    simpa using hmem
  refine ⟨g, g', f, f', a, b, hg, ?chain, hrun, hcarried, ha, hplace, ?front, ?byte, fun x y =>
    hcarried.apart _ hplaced a b x y rfl hb htarget⟩
  case chain =>
    have hthird : g.process.memory ⟨0, 64⟩ = .start (.freed 0 (some ⟨0, 0⟩)) :=
      Option.some.inj ((hread (·.process.memory ⟨0, 64⟩)).symm.trans (by decide))
    have hfirst : g.process.memory ⟨0, 0⟩ = .start (.freed 0 none) :=
      Option.some.inj ((hread (·.process.memory ⟨0, 0⟩)).symm.trans (by decide))
    exact .cons hthird (.cons hfirst .nil)
  case front => exact Option.some.inj ((hnext (·.2.process.memory ⟨0, 64⟩)).symm.trans (by decide))
  case byte =>
    rw [hstays]
    exact Option.some.inj ((hread (·.process.memory ⟨0, 63⟩)).symm.trans (by decide))

end FlatSharedStorage

end ExtensionHost
