import ExtensionHost.Proofs.Storage.Separation
import ExtensionHost.Storage.Flat

/-!
# `ExtensionHost.Proofs.Storage.Image`: what memory shows of blocks and lists

Memory shows a process when the prefix of each block says what the table says, the
link in the prefix of a freed block leads to the prefix of the next one, the bytes
behind a prefix are what the block holds, and bytes that were not cut or not given
yet are as the system gives them (`Process.Shown`).

A change of the table is shown by writes to memory. They stay in the prefix and
the payload of the block that the change is about, and extents are apart, so the
other blocks are shown as before (`Shown.changed`). There is one lemma for each kind of
change: a block is marked (`Shown.setKind`), written to (`Shown.modifyPayload`), cut
or made (`Shown.addBlock`), or resized by the system (`Shown.stretched`,
`Shown.relocated`).
-/

set_option autoImplicit false

namespace ExtensionHost

/-- The bytes behind its prefix that a block takes up, in use or freed. -/
def BlockKind.room : BlockKind → Nat
  | pool cls | freed cls => cls.bytes
  | heap size => size
  | foreign => 0

/-- A block in use has room for what it can be used for. -/
theorem BlockKind.room_of_isLive {kind : BlockKind} (h : kind.isLive) :
    kind.room = kind.usable := by
  cases kind with
  | pool cls => rfl
  | heap size => rfl
  | freed cls => cases h
  | foreign => cases h

namespace Process

variable {p p' base : Process} {a b : Address} {arenas arenas' : List Arena}
  {link link' : Address → Option Address} {memory memory' : FlatMemory}

/-- Where the prefix of a block is. -/
def front (p : Process) (a : Address) : Place :=
  match p.site a with
  | .carved region offset => ⟨region, offset - blockPrefixSize⟩
  | .region region => ⟨region, 0⟩
  | .outside => ⟨0, 0⟩

/-- Where a block starts. -/
def place (p : Process) (a : Address) : Place := (p.front a).payload

/-- The prefix of a block. A freed one has the link that it is said to have. -/
def prefixOf (p : Process) (link : Address → Option Address) (a : Address) : BlockPrefix :=
  match p.kind a with
  | .pool cls => .pool cls
  | .heap size => .heap size
  | .freed cls => .freed cls ((link a).map p.front)
  | .foreign => .poisoned

/-- A place is in the prefix or the payload of a block. -/
def Covers (p : Process) (a : Address) (x : Place) : Prop :=
  x.Within (p.front a) (blockPrefixSize + (p.kind a).room)

/-- A block that lies at the same place starts at the same place. -/
theorem front_congr (h : p'.site a = p.site a) : p'.front a = p.front a := by
  simp only [front, h]

/-- A block that lies at the same place has its payload at the same place. -/
theorem place_congr (h : p'.site a = p.site a) : p'.place a = p.place a := by
  rw [place, place, front_congr h]

/-- A block that is the same covers the same bytes. -/
theorem covers_congr (h : p'.blocks[a]? = p.blocks[a]?) {x : Place} :
    p'.Covers a x ↔ p.Covers a x := by
  rw [Covers, Covers, front_congr (site_congr h), kind_congr h]

/-- The prefix of a block has its mark. -/
@[simp] theorem kind_prefixOf (p : Process) (link : Address → Option Address) (a : Address) :
    (p.prefixOf link a).kind = p.kind a := by
  unfold prefixOf
  cases p.kind a <;> rfl

/-- The prefix of a freed block has the link to the next one. -/
theorem next_prefixOf {cls : SizeClass} (h : p.kind a = .freed cls) :
    (p.prefixOf link a).next = (link a).map p.front := by
  simp only [prefixOf, h, BlockPrefix.next]

/-- A byte of a block lies in it. -/
theorem covers_shift {i : Nat} (h : i < (p.kind a).room) : p.Covers a ((p.place a).shift i) := by
  refine ⟨rfl, ?_, ?_⟩ <;> simp only [place, Place.payload, Place.shift] <;> omega

/-- The prefix of a block is in front of it. -/
theorem covers_of_front {x : Place} (h : x.Within (p.front a) blockPrefixSize) : p.Covers a x :=
  ⟨h.1, h.2.1, Nat.lt_of_lt_of_le h.2.2 (by omega)⟩

/-- A block covers its own prefix. -/
theorem covers_front (p : Process) (a : Address) : p.Covers a (p.front a) :=
  covers_of_front ⟨rfl, Nat.le_refl _, by simp [blockPrefixSize]⟩

/-- The first bytes of a block lie in it. -/
theorem covers_of_payload {count : Nat} {x : Place} (hcount : count ≤ (p.kind a).room)
    (h : x.Within (p.place a) count) : p.Covers a x := by
  obtain ⟨hregion, hle, hlt⟩ := h
  refine ⟨hregion, ?_, ?_⟩ <;> simp only [place, Place.payload, Place.shift] at hle hlt <;> omega

/-- What a block covers is its extent. -/
theorem Layout.extent?_front (h : p.Layout arenas) (ha : p.kind a ≠ .foreign) :
    p.extent? a = some ⟨(p.front a).region, (p.front a).offset,
      (p.front a).offset + (blockPrefixSize + (p.kind a).room)⟩ := by
  have hsmall : ∀ cls, p.smallClass? a = some cls → (p.kind a).room = cls.bytes →
      p.extent? a = some ⟨(p.front a).region, (p.front a).offset,
        (p.front a).offset + (blockPrefixSize + (p.kind a).room)⟩ := by
    intro cls hclass hroom
    obtain ⟨arena, offset, hcut, hextent⟩ := h.extent?_small hclass
    have hle := hcut.room
    rw [hextent, hroom]
    simp only [front, hcut.site, Option.some.injEq, Extent.mk.injEq, true_and]
    omega
  cases hkind : p.kind a with
  | pool cls => exact hkind ▸ hsmall cls (smallClass?_pool hkind) (by rw [hkind]; rfl)
  | freed cls => exact hkind ▸ hsmall cls (smallClass?_freed hkind) (by rw [hkind]; rfl)
  | heap size =>
    obtain ⟨region, hsite, -, hextent⟩ := h.extent?_large hkind
    simp only [hextent, front, hsite, BlockKind.room, Nat.zero_add]
  | foreign => exact absurd hkind ha

/-- No byte lies in two blocks. -/
theorem Layout.not_covers (h : p.Layout arenas) (hab : b ≠ a) (ha : p.kind a ≠ .foreign)
    (hb : p.kind b ≠ .foreign) {x : Place} (hx : p.Covers b x) : ¬ p.Covers a x := by
  rintro ⟨hregion, hle, hlt⟩
  obtain ⟨hregion', hle', hlt'⟩ := hx
  have hapart := h.apart_of_region hab (h.extent?_front hb) (h.extent?_front ha)
    (hregion'.symm.trans hregion)
  simp only at hapart
  omega

/-- Two blocks do not start at one place. -/
theorem Layout.place_ne (h : p.Layout arenas) (hab : b ≠ a) (ha : p.kind a ≠ .foreign)
    (hb : p.kind b ≠ .foreign) : p.front b ≠ p.front a :=
  fun heq => h.not_covers hab ha hb (p.covers_front b) (heq ▸ p.covers_front a)

/-- Bytes that are not cut lie in no block. -/
theorem Layout.not_covers_uncut {arena : Arena} {i : Nat} (h : p.Layout arenas)
    (harena : arena ∈ arenas) (hi : arena.used ≤ i) (ha : p.kind a ≠ .foreign) :
    ¬ p.Covers a ⟨arena.region, i⟩ := by
  rintro ⟨hregion, -, hlt⟩
  have hextent := h.extent?_front ha
  rcases extent?_cases hextent with ⟨cls, hclass⟩ | ⟨size, hkind⟩
  · obtain ⟨other, offset, hcut, hextent'⟩ := h.extent?_small hclass
    rw [hextent', Option.some.injEq, Extent.mk.injEq] at hextent
    obtain ⟨hother, -, hstop⟩ := hextent
    obtain rfl := List.inj_on_of_nodup_map h.regions hcut.mem harena (hother.trans hregion.symm)
    have hused := hcut.used
    simp only at hlt
    omega
  · obtain ⟨region, -, hnone, hextent'⟩ := h.extent?_large hkind
    rw [hextent', Option.some.injEq, Extent.mk.injEq] at hextent
    exact hnone (List.mem_map.2 ⟨arena, harena, hregion.trans hextent.1.symm⟩)

/-- Bytes that the system has not given yet lie in no block. -/
theorem Layout.not_covers_ungiven {region i : Nat} (h : p.Layout arenas)
    (hregion : p.requests ≤ region) (ha : p.kind a ≠ .foreign) : ¬ p.Covers a ⟨region, i⟩ := by
  rintro ⟨hsame, -, -⟩
  have hextent := h.extent?_front ha
  rcases extent?_cases hextent with ⟨cls, hclass⟩ | ⟨size, hkind⟩
  · obtain ⟨arena, offset, hcut, hextent'⟩ := h.extent?_small hclass
    rw [hextent', Option.some.injEq, Extent.mk.injEq] at hextent
    have hlt := h.given arena hcut.mem
    have hsame' : region = (p.front a).region := hsame
    omega
  · obtain ⟨used, hsite, hlt, -⟩ := h.large a size hkind
    simp only [front, hsite] at hsame
    omega

/-! ### What memory shows -/

/-- Memory shows the block at an address. -/
structure ShownAt (p : Process) (link : Address → Option Address) (memory : FlatMemory)
    (a : Address) : Prop where
  front : p.kind a ≠ .foreign → memory (p.front a) = .start (p.prefixOf link a)
  cells : ∀ i < (p.kind a).room, memory ((p.place a).shift i) = .cell ((p.payload a).cell i)

/-- Memory shows all blocks, and what is in no block is as the system gives it. -/
structure Shown (p : Process) (link : Address → Option Address) (arenas : List Arena)
    (memory : FlatMemory) : Prop where
  block : ∀ a, p.ShownAt link memory a
  links : ∀ a b, link a = some b → b < p.blocks.size
  uncut : ∀ arena ∈ arenas, ∀ i, arena.used ≤ i →
    memory ⟨arena.region, i⟩ = FlatMemory.given p.system ⟨arena.region, i⟩
  ungiven : ∀ region, p.requests ≤ region → ∀ i,
    memory ⟨region, i⟩ = FlatMemory.given p.system ⟨region, i⟩

/-- What stands in front of a block in memory. -/
theorem Shown.prefixOf_flat (h : p.Shown link arenas memory) (ha : p.kind a ≠ .foreign) :
    (p.flat memory).prefixOf (p.place a) = p.prefixOf link a := by
  have hfront : (p.flat memory).memory (p.front a) = .start (p.prefixOf link a) :=
    (h.block a).front ha
  rw [FlatProcess.prefixOf, place, Place.front_payload, FlatMemory.prefixAt, hfront]

/-- A process without blocks is shown by memory that nobody has written to. -/
theorem shown_empty (system : System) (timing : Bool) :
    Shown { system, timing } (fun _ => none) [] (.given system) where
  block a := by
    refine ⟨fun ha => absurd (by simp [kind]) ha, fun i hi => ?_⟩
    simp [kind, BlockKind.room] at hi
  links _ _ h := by cases h
  uncut _ h := by cases h
  ungiven _ _ _ := rfl

/-- A byte of a block is behind its prefix. -/
theorem shift_ne_front (p : Process) (a : Address) (i : Nat) : (p.place a).shift i ≠ p.front a := by
  intro heq
  have hoffset := congrArg Place.offset heq
  simp only [place, Place.payload, Place.shift, blockPrefixSize] at hoffset
  omega

/-- There is a memory that shows a table of blocks, since they are apart. -/
theorem Layout.exists_shown (h : p.Layout arenas) (link : Address → Option Address)
    (hlinks : ∀ a b, link a = some b → b < p.blocks.size) :
    ∃ memory, p.Shown link arenas memory := by
  have hspots : ∀ x : Place, ∃ spot : Spot,
      (∀ a, p.kind a ≠ .foreign → x = p.front a → spot = .start (p.prefixOf link a)) ∧
      (∀ a i, i < (p.kind a).room → x = (p.place a).shift i → spot = .cell ((p.payload a).cell i)) ∧
      ((∀ a, p.kind a ≠ .foreign → ¬ p.Covers a x) → spot = FlatMemory.given p.system x) := by
    intro x
    have hused : ∀ {b i}, i < (p.kind b).room → p.kind b ≠ .foreign := by
      intro b i hi heq
      rw [heq] at hi
      cases hi
    by_cases hx : ∃ a, p.kind a ≠ .foreign ∧ p.Covers a x
    · obtain ⟨a, ha, hcovers⟩ := hx
      -- no other block has this byte
      have hsame : ∀ {b}, p.kind b ≠ .foreign → p.Covers b x → b = a := by
        intro b hb hx
        by_contra hba
        exact h.not_covers hba ha hb hx hcovers
      by_cases hfront : x = p.front a
      · refine ⟨.start (p.prefixOf link a), fun b hb heq => ?_, fun b i hi heq => ?_, fun hnone =>
          absurd hcovers (hnone a ha)⟩
        · rw [hsame hb (heq ▸ p.covers_front b)]
        · obtain rfl := hsame (hused hi) (heq ▸ covers_shift hi)
          exact absurd (heq.symm.trans hfront) (p.shift_ne_front b i)
      · refine ⟨.cell ((p.payload a).cell (x.offset - (p.place a).offset)), fun b hb heq => ?_,
          fun b i hi heq => ?_, fun hnone => absurd hcovers (hnone a ha)⟩
        · obtain rfl := hsame hb (heq ▸ p.covers_front b)
          exact absurd heq hfront
        · obtain rfl := hsame (hused hi) (heq ▸ covers_shift hi)
          rw [heq, Place.shift, Nat.add_sub_cancel_left]
    · refine ⟨FlatMemory.given p.system x, fun b hb heq => ?_, fun b i hi heq => ?_, fun _ => rfl⟩
      · exact absurd ⟨b, hb, heq ▸ p.covers_front b⟩ hx
      · exact absurd ⟨b, hused hi, heq ▸ covers_shift hi⟩ hx
  choose memory hfront hcell hgiven using hspots
  refine ⟨memory, fun a => ⟨fun ha => hfront _ a ha rfl, fun i hi => hcell _ a i hi rfl⟩, hlinks,
    fun arena harena i hi => hgiven _ fun a ha => h.not_covers_uncut harena hi ha,
    fun region hregion i => hgiven _ fun a ha => h.not_covers_ungiven hregion ha⟩

/-- Of the table only the entry at `a` changes, and no block changes its place. -/
structure OnlyAt (p p' : Process) (a : Address) : Prop where
  others : ∀ b, b ≠ a → p'.blocks[b]? = p.blocks[b]?
  sites : ∀ b, b < p.blocks.size → p'.site b = p.site b
  size : p.blocks.size ≤ p'.blocks.size
  system : p'.system = p.system
  requests : p.requests ≤ p'.requests

/-- A block is shown as before when neither it nor its bytes have changed. -/
theorem ShownAt.congr (h : p.ShownAt link memory b) (honly : p.OnlyAt p' a) (hba : b ≠ a)
    (hlinks : ∀ c, link b = some c → c < p.blocks.size) (hlink : link' b = link b)
    (hmemory : ∀ x, p.Covers b x → memory' x = memory x) : p'.ShownAt link' memory' b := by
  have hblock := honly.others b hba
  have hfront : p'.front b = p.front b := front_congr (site_congr hblock)
  have hprefix : p'.prefixOf link' b = p.prefixOf link b := by
    have hnext : (link b).map p'.front = (link b).map p.front :=
      Option.map_congr fun c hc => front_congr (honly.sites c (hlinks c hc))
    simp only [prefixOf, kind_congr hblock, hlink, hnext]
  refine ⟨fun hb => ?_, fun i hi => ?_⟩
  · rw [hfront, hprefix, hmemory _ (p.covers_front b)]
    exact h.front (kind_congr hblock ▸ hb)
  · rw [kind_congr hblock] at hi
    have hplace : p'.place b = p.place b := by rw [place, place, hfront]
    rw [hplace, payload_congr hblock, hmemory _ (covers_shift hi)]
    exact h.cells i hi

/-- All is shown as before but one block, when only its bytes are written. Its extent
is what it is in `base`, which is the process before or after the change. -/
theorem Shown.changed (h : p.Shown link arenas memory) (honly : p.OnlyAt p' a)
    (hlayout : base.Layout arenas) (hbase : ∀ b, b ≠ a → base.blocks[b]? = p.blocks[b]?)
    (ha : base.kind a ≠ .foreign)
    (hrequests : base.requests ≤ p'.requests)
    (hmemory : ∀ x, ¬ base.Covers a x → memory' x = memory x)
    (hlink : ∀ b, b ≠ a → link' b = link b) (hself : p'.ShownAt link' memory' a)
    (hlinks : ∀ b, link' a = some b → b < p'.blocks.size) :
    p'.Shown link' arenas memory' where
  block b := by
    by_cases hba : b = a
    · exact hba ▸ hself
    -- nothing is written to the other blocks, since no byte is in two of them
    · have hold := h.block b
      by_cases hb : p.kind b = .foreign
      -- of a block that went back to the system memory has nothing to show
      · have hb' : p'.kind b = .foreign := (kind_congr (honly.others b hba)).trans hb
        refine ⟨fun hne => absurd hb' hne, fun i hi => ?_⟩
        rw [hb'] at hi
        cases hi
      · refine hold.congr honly hba (h.links b) (hlink b hba) fun x hx => hmemory x ?_
        have hsame := hbase b hba
        exact hlayout.not_covers hba ha (kind_congr hsame ▸ hb) ((covers_congr hsame).2 hx)
  links b c hc := by
    by_cases hba : b = a
    · exact hlinks c (hba ▸ hc)
    · exact Nat.lt_of_lt_of_le (h.links b c (hlink b hba ▸ hc)) honly.size
  uncut arena harena i hi := by
    rw [hmemory _ (hlayout.not_covers_uncut harena hi ha), honly.system]
    exact h.uncut arena harena i hi
  ungiven region hregion i := by
    rw [hmemory _ (hlayout.not_covers_ungiven (Nat.le_trans hrequests hregion) ha), honly.system]
    exact h.ungiven region (Nat.le_trans honly.requests hregion) i

/-! ### Changes of the table and writes to memory -/

/-- What changes at one block twice changes there. -/
theorem OnlyAt.trans {p'' : Process} (h : p.OnlyAt p' a) (h' : p'.OnlyAt p'' a) :
    p.OnlyAt p'' a where
  others b hb := (h'.others b hb).trans (h.others b hb)
  sites b hb := (h'.sites b (Nat.lt_of_lt_of_le hb h.size)).trans (h.sites b hb)
  size := Nat.le_trans h.size h'.size
  system := h'.system.trans h.system
  requests := Nat.le_trans h.requests h'.requests

/-- Marking a block changes things there only. -/
theorem onlyAt_setKind (p : Process) (a : Address) (kind : BlockKind) :
    p.OnlyAt (p.setKind a kind) a where
  others _ hb := getElem?_setKind_of_ne hb kind
  sites b _ := site_setKind p a kind b
  size := Nat.le_of_eq (size_setKind p a kind).symm
  system := rfl
  requests := Nat.le_refl _

/-- Writing to a block changes things there only. -/
theorem onlyAt_modifyPayload (p : Process) (a : Address) (f : Payload → Payload) :
    p.OnlyAt (p.modifyPayload a f) a where
  others _ hb := getElem?_modifyPayload_of_ne hb f
  sites b _ := site_modifyPayload p a f b
  size := Nat.le_of_eq (size_modifyPayload p a f).symm
  system := rfl
  requests := Nat.le_refl _

/-- Adding a block changes things there only. -/
theorem onlyAt_addBlock (p : Process) (block : Block) :
    p.OnlyAt (p.addBlock block).2 p.blocks.size where
  others b hb := by rw [getElem?_addBlock, if_neg hb]
  sites b hb := site_congr (by rw [getElem?_addBlock, if_neg (Nat.ne_of_lt hb)])
  size := by simp [addBlock]
  system := rfl
  requests := Nat.le_refl _

/-- The system was asked, and events were reported. -/
theorem Shown.sameBut (h : p.Shown link arenas memory) (hsame : p.SameBut p') :
    p'.Shown link arenas memory := by
  obtain ⟨requests, events, hle, rfl⟩ := hsame
  exact ⟨fun a => ⟨(h.block a).front, (h.block a).cells⟩, h.links, h.uncut,
    fun region hregion => h.ungiven region (Nat.le_trans hle hregion)⟩

/-- The order of the arenas does not matter. -/
theorem Shown.perm (h : p.Shown link arenas memory) (hperm : arenas.Perm arenas') :
    p.Shown link arenas' memory :=
  ⟨h.block, h.links, fun arena harena => h.uncut arena (hperm.mem_iff.2 harena), h.ungiven⟩

/-- A prefix is written: the block is marked with the same room, or is none any
more. -/
theorem Shown.setKind {kind : BlockKind} {block : BlockPrefix} (h : p.Shown link arenas memory)
    (hlayout : p.Layout arenas) (ha : p.kind a ≠ .foreign)
    (hblock : kind = .foreign ∨
      kind.room = (p.kind a).room ∧ block = (p.setKind a kind).prefixOf link' a)
    (hlink : ∀ b, b ≠ a → link' b = link b) (hlinks : ∀ b, link' a = some b → b < p.blocks.size) :
    (p.setKind a kind).Shown link' arenas (memory.writePrefix (p.front a) block) := by
  have hfront : (p.setKind a kind).front a = p.front a := front_congr (site_setKind p a kind a)
  have hkind := kind_setKind_self (lt_size_of_kind ha) kind
  refine h.changed (p.onlyAt_setKind a kind) hlayout (fun _ _ => rfl) ha (Nat.le_refl _)
    (fun x hx => FlatMemory.overwrite_of_not (fun hin => hx (covers_of_front hin)) _) hlink
    ⟨fun hne => ?_, fun i hi => ?_⟩ (by rwa [size_setKind])
  · rw [hkind] at hne
    obtain ⟨-, rfl⟩ := hblock.resolve_left hne
    rw [hfront, FlatMemory.writePrefix_self]
  · rw [hkind] at hi
    have hplace : (p.setKind a kind).place a = p.place a := by rw [place, place, hfront]
    rcases hblock with rfl | ⟨hroom, -⟩
    · cases hi
    · rw [hplace, payload_setKind, FlatMemory.writePrefix, FlatMemory.overwrite_of_not]
      · exact (h.block a).cells i (hroom ▸ hi)
      · rintro ⟨-, -, hlt⟩
        simp only [place, Place.payload, Place.shift] at hlt
        omega

/-- Bytes of a block are written. -/
theorem Shown.modifyPayload {f : Payload → Payload} {start count : Nat} {spot : Nat → Spot}
    (h : p.Shown link arenas memory) (hlayout : p.Layout arenas) (ha : p.kind a ≠ .foreign)
    (hroom : start + count ≤ (p.kind a).room)
    (hspot : ∀ i < count, spot i = .cell ((f (p.payload a)).cell (start + i)))
    (hf : ∀ i, i < start ∨ start + count ≤ i →
      (f (p.payload a)).cell i = (p.payload a).cell i) :
    (p.modifyPayload a f).Shown link arenas
      (memory.overwrite ((p.place a).shift start) count spot) := by
  have hfront : (p.modifyPayload a f).front a = p.front a :=
    front_congr (site_modifyPayload p a f a)
  have hplace : (p.modifyPayload a f).place a = p.place a := by rw [place, place, hfront]
  have hcovers : ∀ x : Place, x.Within ((p.place a).shift start) count → p.Covers a x := by
    rintro x ⟨hregion, hle, hlt⟩
    simp only [place, Place.payload, Place.shift] at hle hlt
    exact ⟨hregion, by omega, by omega⟩
  refine h.changed (p.onlyAt_modifyPayload a f) hlayout (fun _ _ => rfl) ha (Nat.le_refl _)
    (fun x hx => FlatMemory.overwrite_of_not (fun hin => hx (hcovers x hin)) _) (fun _ _ => rfl)
    ⟨fun _ => ?_, fun i hi => ?_⟩ fun b hb => by rw [size_modifyPayload]; exact h.links a b hb
  -- the bytes lie behind the prefix, which stays
  · have hprefix : (p.modifyPayload a f).prefixOf link a = p.prefixOf link a := by
      have hfronts : (p.modifyPayload a f).front = p.front :=
        funext fun b => front_congr (site_modifyPayload p a f b)
      rw [prefixOf, prefixOf, kind_modifyPayload, hfronts]
    rw [hfront, hprefix, FlatMemory.overwrite_of_not]
    · exact (h.block a).front ha
    · rintro ⟨-, hle, -⟩
      simp only [place, Place.payload, Place.shift, blockPrefixSize] at hle
      omega
  · rw [kind_modifyPayload] at hi
    rw [hplace, payload_modifyPayload_self (lt_size_of_kind ha)]
    -- a cell is one of those that were written, or neither side has changed it
    by_cases hin : start ≤ i ∧ i < start + count
    · obtain ⟨j, rfl⟩ := Nat.exists_eq_add_of_le hin.1
      have hshift : (p.place a).shift (start + j) = ((p.place a).shift start).shift j := by
        simp only [Place.shift, Nat.add_assoc]
      rw [hshift, FlatMemory.overwrite_shift (by omega), hspot j (by omega)]
    · rw [hf i (by omega), FlatMemory.overwrite_of_not]
      · exact (h.block a).cells i hi
      · rintro ⟨-, hle, hlt⟩
        simp only [Place.shift] at hle hlt
        omega

/-- A block is added where memory is as the system gives it, and its prefix is
written. -/
theorem Shown.addBlock {block : Block} (h : p.Shown link arenas memory)
    (honly : p.OnlyAt p' p.blocks.size) (hnew : p'.blocks[p.blocks.size]? = some block)
    (hlayout : p'.Layout arenas) (hkind : block.kind ≠ .foreign)
    (hcells : ∀ i < block.kind.room,
      memory ((p'.place p.blocks.size).shift i) = .cell (block.payload.cell i))
    (hlink : ∀ b, b ≠ p.blocks.size → link' b = link b) (hnone : link' p.blocks.size = none) :
    p'.Shown link' arenas
      (memory.writePrefix (p'.front p.blocks.size) (p'.prefixOf link' p.blocks.size)) := by
  have hkind' : p'.kind p.blocks.size = block.kind := by rw [kind, hnew]
  have hpayload : p'.payload p.blocks.size = block.payload := by rw [payload, hnew]
  refine h.changed honly hlayout honly.others (hkind' ▸ hkind) (Nat.le_refl _)
    (fun x hx => FlatMemory.overwrite_of_not (fun hin => hx (covers_of_front hin)) _) hlink
    ⟨fun _ => ?_, fun i hi => ?_⟩ fun b hb => by rw [hnone] at hb; cases hb
  · rw [FlatMemory.writePrefix_self]
  · rw [hkind'] at hi
    rw [hpayload, FlatMemory.writePrefix, FlatMemory.overwrite_of_not]
    · exact hcells i hi
    · rintro ⟨-, -, hlt⟩
      simp only [place, Place.payload, Place.shift] at hlt
      omega

end Process

/-! ### Arenas -/

namespace ArenaPool

variable {pool pool' : ArenaPool} {p p' : Process} {rest : List Arena} {memory : FlatMemory}
  {link : Address → Option Address}

/-- Arenas are acquired without a look at the blocks. -/
theorem acquireArena_books (p : Process) (memory : FlatMemory) (size : Nat) :
    (p.flat memory).books.acquireArena size =
      ((p.acquireArena size).1, ((p.acquireArena size).2.flat memory).books) := by
  unfold Process.acquireArena Process.request
  by_cases hsize : size = 0 ∨ Size.addressable - (Size.alignment - 1) < size
  · simp only [if_pos hsize]
  · simp only [if_neg hsize]
    cases hserved : p.system.serves p.requests size with
    | true =>
      have hserved' : (p.flat memory).books.system.serves (p.flat memory).books.requests size
          = true :=
        hserved
      simp only [hserved', if_true]
      rfl
    | false =>
      have hserved' : (p.flat memory).books.system.serves (p.flat memory).books.requests size
          = false :=
        hserved
      simp only [hserved', Bool.false_eq_true, if_false]
      rfl

/-- Growing a pool does not look at bytes. -/
theorem grow_books (pool : ArenaPool) (p : Process) (memory : FlatMemory) (least : Nat) :
    pool.grow (p.flat memory).books least =
      ((pool.grow p least).1, (pool.grow p least).2.1,
        ((pool.grow p least).2.2.flat memory).books) := by
  unfold grow
  cases Size.align? least with
  | none => rfl
  | some aligned =>
    by_cases hadmits : pool.admits (max pool.currentSize aligned) = true
    · simp only [if_pos hadmits, acquireArena_books]
      cases hacquire : p.acquireArena (max pool.currentSize aligned) with
      | mk found after =>
        have htiming : (after.flat memory).books.timing = after.timing := rfl
        cases found <;> cases ht : after.timing <;>
          simp only [Process.report, htiming, ht, if_true, Bool.false_eq_true, if_false] <;> rfl
    · simp only [if_neg hadmits]

/-- Cutting a piece does not look at bytes. -/
theorem carve_books (pool : ArenaPool) (p : Process) (memory : FlatMemory) (size : Nat) :
    pool.carve (p.flat memory).books size =
      ((pool.carve p size).1, (pool.carve p size).2.1,
        ((pool.carve p size).2.2.flat memory).books) := by
  unfold carve
  cases pool.carveNewest? size with
  | some cut => rfl
  | none =>
    simp only [grow_books]
    cases pool.grow p size with
    | mk grown after =>
      obtain ⟨larger, process⟩ := after
      cases grown with
      | false => rfl
      | true =>
        dsimp only
        cases larger.carveNewest? size <;> rfl

/-- A cursor that moves on leaves fewer bytes uncut, and where it was nothing has been
written. -/
theorem shown_carveNewest? {cls : SizeClass} {place : Nat × Nat}
    (h : pool.carveNewest? (blockPrefixSize + cls.bytes) = some (place, pool'))
    (hshown : p.Shown link (pool.arenas.toList ++ rest) memory) :
    p.Shown link (pool'.arenas.toList ++ rest) memory ∧
      ∀ i, place.2 ≤ i → memory ⟨place.1, i⟩ = FlatMemory.given p.system ⟨place.1, i⟩ := by
  obtain ⟨before, arena, cut, hbefore, hcarve, hregion, rfl⟩ := carveNewest?_cases h
  have hsize : 16 ∣ blockPrefixSize + cls.bytes :=
    ⟨cls.val + 2, by simp only [SizeClass.bytes, blockPrefixSize]; omega⟩
  obtain ⟨hoffset, rfl, -⟩ := Arena.carve?_cases hcarve hsize
  have hnewest : arena ∈ pool.arenas.toList ++ rest := by simp [hbefore]
  refine ⟨⟨hshown.block, hshown.links, fun other hother i hi => ?_, hshown.ungiven⟩,
    fun i hi => ?_⟩
  · simp only [Array.toList_push, List.append_assoc, List.mem_append, List.mem_singleton] at hother
    rcases hother with hother | rfl | hother
    · exact hshown.uncut other (by simp [hbefore, hother]) i hi
    · exact hshown.uncut arena hnewest i (by simp only at hi; omega)
    · exact hshown.uncut other (by simp [hother]) i hi
  · rw [hregion]
    exact hshown.uncut arena hnewest i (by omega)

/-- The system has just given the arena that a pool grows by. -/
theorem shown_grow {least : Nat} {grown : Bool} (h : pool.grow p least = (grown, pool', p'))
    (hshown : p.Shown link (pool.arenas.toList ++ rest) memory) :
    p'.Shown link (pool'.arenas.toList ++ rest) memory := by
  rcases grow_cases h with ⟨-, rfl, hsame⟩ | ⟨-, size, -, -, rfl, hsame, -, -⟩
  · exact hshown.sameBut hsame
  · have hafter := hshown.sameBut hsame
    refine ⟨hafter.block, hafter.links, fun other hother i hi => ?_, hafter.ungiven⟩
    simp only [Array.toList_push, List.append_assoc, List.mem_append, List.mem_singleton] at hother
    rcases hother with hother | rfl | hother
    · exact hafter.uncut other (by simp [hother]) i hi
    · obtain ⟨_, _, -, rfl⟩ := hsame
      exact hshown.ungiven p.requests (Nat.le_refl _) i
    · exact hafter.uncut other (by simp [hother]) i hi

/-- A piece that is cut is as the system gave it. -/
theorem shown_carve {cls : SizeClass} {place : Nat × Nat}
    (h : pool.carve p (blockPrefixSize + cls.bytes) = (some place, pool', p'))
    (hshown : p.Shown link (pool.arenas.toList ++ rest) memory) :
    p'.Shown link (pool'.arenas.toList ++ rest) memory ∧
      ∀ i, place.2 ≤ i → memory ⟨place.1, i⟩ = FlatMemory.given p'.system ⟨place.1, i⟩ := by
  rcases carve_cases h with
    ⟨found, hfound, hnewest, rfl⟩ | ⟨larger, found, hgrow, hfound, hnewest⟩ |
    ⟨hnone, -⟩
  · cases hfound
    exact shown_carveNewest? hnewest hshown
  · cases hfound
    exact shown_carveNewest? hnewest (shown_grow hgrow hshown)
  · cases hnone

/-- A pool that cut nothing is shown by the same bytes. -/
theorem shown_carve_none {size : Nat} (h : pool.carve p size = (none, pool', p'))
    (hshown : p.Shown link (pool.arenas.toList ++ rest) memory) :
    p'.Shown link (pool'.arenas.toList ++ rest) memory := by
  rcases carve_cases h with ⟨_, hfound, -, -⟩ | ⟨_, _, -, hfound, -⟩ | ⟨-, rfl, hsame⟩
  · cases hfound
  · cases hfound
  · exact hshown.sameBut hsame

end ArenaPool

/-! ### Large blocks -/

namespace Process

variable {p p' : Process} {a b : Address} {arenas : List Arena} {size old : Nat}
  {link link' : Address → Option Address} {memory memory' : FlatMemory} {moved : Option Address}

/-- Memory refuses a large block when the table does. -/
theorem flat_heapAlloc_none (h : p.heapAlloc size = (none, p')) (memory : FlatMemory) :
    (p.flat memory).heapAlloc size = (none, p'.flat memory) := by
  unfold heapAlloc request at h
  unfold FlatProcess.heapAlloc FlatProcess.request
  simp only at h ⊢
  cases hregion : regionSize? (max size 1) with
  | none =>
    simp only [hregion] at h
    cases h
    rfl
  | some total =>
    simp only [hregion] at h ⊢
    cases hserved : p.system.serves p.requests total with
    | true =>
      simp only [hserved, if_true] at h
      cases h
    | false =>
      have hserved' : (p.flat memory).system.serves (p.flat memory).requests total = false :=
        hserved
      simp only [hserved, Bool.false_eq_true, if_false] at h
      cases h
      simp only [hserved', Bool.false_eq_true, if_false]
      rfl

/-- Memory makes a large block where the table does, and writes its prefix. -/
theorem flat_heapAlloc_some (h : p.heapAlloc size = (some a, p')) (memory : FlatMemory) :
    (p.flat memory).heapAlloc size = (some (p'.place a),
      p'.flat (memory.writePrefix (p'.front a) (.heap (max size 1)))) := by
  have hcases := heapAlloc_cases h
  unfold heapAlloc request at h
  unfold FlatProcess.heapAlloc FlatProcess.request
  simp only at h ⊢
  cases hregion : regionSize? (max size 1) with
  | none =>
    simp only [hregion] at h
    cases h
  | some total =>
    simp only [hregion] at h ⊢
    cases hserved : p.system.serves p.requests total with
    | false =>
      simp only [hserved, Bool.false_eq_true, if_false] at h
      cases h
    | true =>
      have hserved' : (p.flat memory).system.serves (p.flat memory).requests total = true := hserved
      simp only [hserved', if_true]
      -- both sides are past the same two checks, so only the place has to be compared
      rcases hcases with ⟨hnone, -⟩ | ⟨hmade, rfl⟩
      · cases hnone
      · cases hmade
        have hfront : (p.withLarge (max size 1)).front p.blocks.size = ⟨p.requests, 0⟩ := by
          simp [front, site, withLarge]
        rw [place, hfront]
        rfl

/-- A large block that is made is shown, and its prefix alone was written. -/
theorem Shown.heapAlloc (h : p.Shown link arenas memory) (hlayout : p.Layout arenas)
    (hmade : p.heapAlloc size = (some a, p')) (hlink : ∀ b, b ≠ a → link' b = link b)
    (hnone : link' a = none) :
    p'.Shown link' arenas (memory.writePrefix (p'.front a) (.heap (max size 1))) := by
  rcases heapAlloc_cases hmade with ⟨hnothing, -⟩ | ⟨heq, rfl⟩
  · cases hnothing
  · cases heq
    have honly : p.OnlyAt (p.withLarge (max size 1)) p.blocks.size := by
      refine ⟨fun b hb => ?_, fun b hb => site_congr ?_, ?_, rfl, Nat.le_succ _⟩
      · simp only [withLarge, Array.getElem?_push, if_neg hb]
      · simp only [withLarge, Array.getElem?_push, if_neg (Nat.ne_of_lt hb)]
      · simp [withLarge]
    have hnew : (p.withLarge (max size 1)).blocks[p.blocks.size]? = some
        ⟨.region p.requests, .heap (max size 1), p.system.fresh p.requests blockPrefixSize⟩ := by
      simp [withLarge]
    have hfront : (p.withLarge (max size 1)).front p.blocks.size = ⟨p.requests, 0⟩ := by
      simp only [front, site, hnew]
    have hprefix : (p.withLarge (max size 1)).prefixOf link' p.blocks.size =
        .heap (max size 1) := by
      simp only [prefixOf, kind, hnew]
    rw [← hprefix]
    refine h.addBlock honly hnew (hlayout.addLarge rfl rfl) (by simp) (fun i _ => ?_) hlink
      hnone
    -- a region that was not given yet holds what the system gives
    rw [place, hfront, Place.payload, Place.shift, Place.shift, Nat.zero_add,
      h.ungiven p.requests (Nat.le_refl _)]
    simp only [FlatMemory.given, System.fresh, Payload.cell_mk_empty]

/-- Memory refuses to resize a large block when the table does. -/
theorem flat_heapRealloc_none (h : p.heapRealloc a old size = (none, p')) (memory : FlatMemory)
    (q : Place) : (p.flat memory).heapRealloc q old size = (none, p'.flat memory) := by
  unfold heapRealloc request at h
  unfold FlatProcess.heapRealloc FlatProcess.request
  simp only at h ⊢
  cases hregion : regionSize? (max size 1) with
  | none =>
    simp only [hregion] at h
    cases h
    rfl
  | some total =>
    simp only [hregion] at h ⊢
    cases hserved : p.system.serves p.requests total with
    | true =>
      simp only [hserved, if_true] at h
      split at h <;> cases h
    | false =>
      have hserved' : (p.flat memory).system.serves (p.flat memory).requests total = false :=
        hserved
      simp only [hserved, Bool.false_eq_true, if_false] at h
      cases h
      simp only [hserved', Bool.false_eq_true, if_false]
      rfl

/-- The process after the system has resized the block at `a` in place. -/
def stretched (p : Process) (a : Address) (old size : Nat) : Process :=
  ((p.afterResize old size).setKind a (.heap size)).modifyPayload a
    fun _ => p.resizedPayload a old size

/-- The process after the system has moved the block at `a` to a new region. -/
def relocated (p : Process) (a : Address) (old size : Nat) : Process :=
  (((p.afterResize old size).setKind a .foreign).addBlock
    ⟨.region p.requests, .heap size, p.resizedPayload a old size⟩).2

/-- A large block that was resized stays where it is or moves, as the system has
it. -/
theorem heapRealloc_place (h : p.heapRealloc a old size = (some b, p'))
    (ha : a < p.blocks.size) :
    regionSize? (max size 1) = some (max size 1 + blockPrefixSize) ∧
      p.system.serves p.requests (max size 1 + blockPrefixSize) = true ∧
      (p.system.keepsPlace p.requests = true ∧ b = a ∧ p' = p.stretched a old (max size 1) ∨
        p.system.keepsPlace p.requests = false ∧ b = p.blocks.size ∧
          p' = p.relocated a old (max size 1)) := by
  have hcases := heapRealloc_cases h
  unfold heapRealloc request at h
  simp only at h
  cases hregion : regionSize? (max size 1) with
  | none =>
    simp only [hregion] at h
    cases h
  | some total =>
    obtain rfl := regionSize?_eq_some hregion
    simp only [hregion] at h
    cases hserved : p.system.serves p.requests (max size 1 + blockPrefixSize) with
    | false =>
      simp only [hserved, Bool.false_eq_true, if_false] at h
      cases h
    | true =>
      refine ⟨rfl, rfl, ?_⟩
      simp only [hserved, if_true] at h
      -- whether the block stays decides which of the two it was, as no old address is a new
      -- one
      cases hstays : p.system.keepsPlace p.requests with
      | true =>
        simp only [hstays, if_true] at h
        obtain rfl : a = b := Option.some.inj (Prod.mk.inj h).1
        rcases hcases with ⟨hnone, -⟩ | ⟨-, hprocess⟩ | ⟨hnew, -⟩
        · cases hnone
        · exact .inl ⟨rfl, rfl, hprocess⟩
        · exact absurd (Option.some.inj hnew) (Nat.ne_of_lt ha)
      | false =>
        simp only [hstays, Bool.false_eq_true, if_false, addBlock, size_setKind] at h
        obtain rfl : p.blocks.size = b := Option.some.inj (Prod.mk.inj h).1
        rcases hcases with ⟨hnone, -⟩ | ⟨hsame, -⟩ | ⟨-, hprocess⟩
        · cases hnone
        · exact absurd (Option.some.inj hsame) (Nat.ne_of_gt ha)
        · exact .inr ⟨rfl, rfl, hprocess⟩

/-- A block that the system resized in place starts where it did. -/
theorem front_stretched (p : Process) (a : Address) (old size : Nat) (b : Address) :
    (p.stretched a old size).front b = p.front b :=
  front_congr ((site_modifyPayload _ _ _ _).trans (site_setKind _ _ _ _))

/-- A block that the system moved is new in the table, with what was copied. -/
theorem getElem?_relocated (p : Process) (a : Address) (old size : Nat) :
    (p.relocated a old size).blocks[p.blocks.size]? =
      some ⟨.region p.requests, .heap size, p.resizedPayload a old size⟩ := by
  have hsize : ((p.afterResize old size).setKind a .foreign).blocks.size = p.blocks.size :=
    size_setKind _ _ _
  rw [relocated, getElem?_addBlock, hsize, if_pos rfl]

/-- A block that the system moved starts its own region. -/
theorem front_relocated (p : Process) (a : Address) (old size : Nat) :
    (p.relocated a old size).front p.blocks.size = ⟨p.requests, 0⟩ := by
  simp only [front, site, getElem?_relocated]

/-- No other block lies elsewhere after the system moved one. -/
theorem site_relocated (p : Process) (a : Address) (old size : Nat) {b : Address}
    (hb : b < p.blocks.size) : (p.relocated a old size).site b = p.site b := by
  have hsize : ((p.afterResize old size).setKind a .foreign).blocks.size = p.blocks.size :=
    size_setKind _ _ _
  have hblock : (p.relocated a old size).blocks[b]? =
      ((p.afterResize old size).setKind a .foreign).blocks[b]? := by
    rw [relocated, getElem?_addBlock, hsize, if_neg (Nat.ne_of_lt hb)]
  exact (site_congr hblock).trans (site_setKind _ _ _ _)

/-- The memory after the system has resized the block at `a` in place. -/
def stretchedMemory (p : Process) (a : Address) (old size : Nat) (memory : FlatMemory) :
    FlatMemory :=
  (memory.overwrite ((p.place a).shift (min old size)) (size - old) fun i =>
    FlatMemory.given p.system ⟨p.requests, blockPrefixSize + min old size + i⟩).writePrefix
      (p.front a) (.heap size)

/-- The memory after the system has moved the block at `a` to a new region. -/
def relocatedMemory (p : Process) (a : Address) (old size : Nat) (memory : FlatMemory) :
    FlatMemory :=
  (memory.copy (p.front a) ⟨p.requests, 0⟩ (blockPrefixSize + min old size)).writePrefix
    ⟨p.requests, 0⟩ (.heap size)

/-- The system writes behind the old bytes, and the allocator writes the prefix. -/
theorem within_stretchedMemory {x : Place}
    (h : p.stretchedMemory a old size memory x ≠ memory x) :
    x.Within (p.front a) blockPrefixSize ∨
      x.Within ((p.place a).shift (min old size)) (size - old) := by
  by_contra hout
  obtain ⟨hfront, hadded⟩ := not_or.1 hout
  refine h ?_
  rw [stretchedMemory, FlatMemory.writePrefix, FlatMemory.overwrite_of_not hfront,
    FlatMemory.overwrite_of_not hadded]

/-- The system writes what is kept, and the allocator writes the prefix. -/
theorem within_relocatedMemory {x : Place}
    (h : p.relocatedMemory a old size memory x ≠ memory x) :
    x.Within ⟨p.requests, 0⟩ blockPrefixSize ∨
      x.Within (Place.payload ⟨p.requests, 0⟩) (min old size) := by
  by_contra hout
  obtain ⟨hfront, hkept⟩ := not_or.1 hout
  refine h ?_
  rw [relocatedMemory, FlatMemory.writePrefix, FlatMemory.overwrite_of_not hfront, FlatMemory.copy,
    FlatMemory.overwrite_of_not]
  -- what is copied is a prefix and what is kept behind it
  rintro ⟨hregion, hle, hlt⟩
  by_cases hin : x.offset < blockPrefixSize
  · exact hfront ⟨hregion, hle, by simpa using hin⟩
  · refine hkept ⟨hregion, ?_, ?_⟩ <;> simp only [Place.payload, Place.shift] at hlt ⊢ <;> omega

/-- Memory resizes a large block in place when the system does. -/
theorem flat_heapRealloc_stays (a : Address) (old : Nat)
    (hregion : regionSize? (max size 1) = some (max size 1 + blockPrefixSize))
    (hserved : p.system.serves p.requests (max size 1 + blockPrefixSize) = true)
    (hstays : p.system.keepsPlace p.requests = true) (memory : FlatMemory) :
    (p.flat memory).heapRealloc (p.place a) old size =
      (some (p.place a), (p.stretched a old (max size 1)).flat
        (p.stretchedMemory a old (max size 1) memory)) := by
  have hserved' : (p.flat memory).system.serves (p.flat memory).requests
      (max size 1 + blockPrefixSize) = true := hserved
  have hstays' : (p.flat memory).system.keepsPlace (p.flat memory).requests = true := hstays
  have hmin : min (old + blockPrefixSize) (max size 1 + blockPrefixSize)
      = blockPrefixSize + min old (max size 1) := by omega
  have hsub : max size 1 + blockPrefixSize - (old + blockPrefixSize) = max size 1 - old := by omega
  have hshift : (p.front a).shift (blockPrefixSize + min old (max size 1))
      = (p.place a).shift (min old (max size 1)) := by
    simp only [place, Place.payload, Place.shift, Nat.add_assoc]
  simp only [FlatProcess.heapRealloc, FlatProcess.request, hregion, hserved', if_true, hstays',
    FlatProcess.resizeRegion, hmin, hsub]
  rw [place, Place.front_payload, hshift]
  rfl

/-- Memory moves a large block when the system does. -/
theorem flat_heapRealloc_moves (a : Address) (old : Nat)
    (hregion : regionSize? (max size 1) = some (max size 1 + blockPrefixSize))
    (hserved : p.system.serves p.requests (max size 1 + blockPrefixSize) = true)
    (hmoves : p.system.keepsPlace p.requests = false) (memory : FlatMemory) :
    (p.flat memory).heapRealloc (p.place a) old size =
      (some ((p.relocated a old (max size 1)).place p.blocks.size),
        (p.relocated a old (max size 1)).flat (p.relocatedMemory a old (max size 1) memory)) := by
  have hserved' : (p.flat memory).system.serves (p.flat memory).requests
      (max size 1 + blockPrefixSize) = true := hserved
  have hmoves' : (p.flat memory).system.keepsPlace (p.flat memory).requests = false := hmoves
  have hmin : min (old + blockPrefixSize) (max size 1 + blockPrefixSize)
      = blockPrefixSize + min old (max size 1) := by omega
  simp only [FlatProcess.heapRealloc, FlatProcess.request, hregion, hserved', if_true, hmoves',
    Bool.false_eq_true, if_false, FlatProcess.resizeRegion, hmin]
  rw [place, Place.front_payload, place, front_relocated]
  rfl

/-- What a resized block holds where its old bytes end. -/
theorem cell_resizedPayload_of_le {i : Nat} (h : min old size ≤ i) :
    (p.resizedPayload a old size).cell i =
      .byte (p.system.content p.requests (blockPrefixSize + i)) := by
  rw [resizedPayload, Payload.cell_copyFrom, if_neg (Nat.not_lt.2 h)]
  exact Payload.cell_mk_empty _ i

/-- A block that the system resizes in place is shown. -/
theorem Shown.stretched (h : p.Shown link arenas memory) (hkind : p.kind a = .heap old)
    (hlayout : (p.stretched a old size).Layout arenas) :
    (p.stretched a old size).Shown link arenas (p.stretchedMemory a old size memory) := by
  have ha : a < p.blocks.size := lt_size_of_live (live_heap hkind)
  -- three changes of the table, all of them about the one block
  have hafter : a < ((p.afterResize old size).setKind a (.heap size)).blocks.size := by
    rw [size_setKind]
    exact ha
  have honly : p.OnlyAt (p.stretched a old size) a := by
    have hbefore : p.OnlyAt (p.afterResize old size) a :=
      ⟨fun _ _ => rfl, fun _ _ => rfl, Nat.le_refl _, rfl, Nat.le_succ _⟩
    exact (hbefore.trans (onlyAt_setKind _ a _)).trans (onlyAt_modifyPayload _ a _)
  have hkind' : (p.stretched a old size).kind a = .heap size := by
    rw [Process.stretched, kind_modifyPayload]
    exact kind_setKind_self ha _
  have hfront := p.front_stretched a old size a
  have hplace : (p.stretched a old size).place a = p.place a := by rw [place, place, hfront]
  have hpayload : (p.stretched a old size).payload a = p.resizedPayload a old size :=
    payload_modifyPayload_self hafter _
  refine h.changed honly hlayout honly.others (ne_foreign_of_live (live_heap hkind'))
    (Nat.le_refl _)
    (fun x hx => ?outside) (fun _ _ => rfl) ⟨fun _ => ?front, fun i hi => ?cells⟩
    fun b hb => Nat.lt_of_lt_of_le (h.links a b hb) honly.size
  case outside =>
    have hroom : ((p.stretched a old size).kind a).room = size := by rw [hkind']; rfl
    rw [stretchedMemory, FlatMemory.writePrefix, FlatMemory.overwrite_of_not,
      FlatMemory.overwrite_of_not]
    · rintro ⟨hregion, hle, hlt⟩
      simp only [place, Place.payload, Place.shift] at hregion hle hlt
      refine hx ⟨by rw [hfront, hregion], ?_, ?_⟩ <;> rw [hfront] <;> omega
    · intro hin
      exact hx (covers_of_front (hfront ▸ hin))
  case front =>
    rw [hfront, stretchedMemory, FlatMemory.writePrefix_self, prefixOf, hkind']
  case cells =>
    rw [hkind'] at hi
    rw [hplace, hpayload, stretchedMemory, FlatMemory.writePrefix, FlatMemory.overwrite_of_not]
    · by_cases hkept : i < min old size
      · rw [FlatMemory.overwrite_of_not, cell_resizedPayload hkept]
        · exact (h.block a).cells i (by rw [hkind]; exact (Nat.lt_min.1 hkept).1)
        · rintro ⟨-, hle, -⟩
          simp only [Place.shift] at hle
          omega
      -- behind the old bytes the memory of the request begins where they end
      · have hi' : i < size := hi
        obtain ⟨j, rfl⟩ := Nat.exists_eq_add_of_le (Nat.not_lt.1 hkept)
        have hshift : (p.place a).shift (min old size + j)
            = ((p.place a).shift (min old size)).shift j := by
          simp only [Place.shift, Nat.add_assoc]
        rw [hshift, FlatMemory.overwrite_shift (by omega), cell_resizedPayload_of_le (by omega),
          FlatMemory.given, Nat.add_assoc]
    · rintro ⟨-, -, hlt⟩
      simp only [place, Place.payload, Place.shift] at hlt
      omega

/-- A block that the system has moved away is shown no more, with all bytes as they were. -/
theorem Shown.moved_away (h : p.Shown link arenas memory) (ha : a < p.blocks.size)
    (old size : Nat) :
    ((p.afterResize old size).setKind a .foreign).Shown link arenas memory := by
  have hbefore : p.OnlyAt (p.afterResize old size) a :=
    ⟨fun _ _ => rfl, fun _ _ => rfl, Nat.le_refl _, rfl, Nat.le_succ _⟩
  have honly := hbefore.trans (onlyAt_setKind (p.afterResize old size) a .foreign)
  have hforeign : ((p.afterResize old size).setKind a .foreign).kind a = .foreign :=
    kind_setKind_self ha _
  refine ⟨fun b => ?_, fun b c hc => ?_, h.uncut,
    fun region hregion => h.ungiven region (Nat.le_of_succ_le hregion)⟩
  · by_cases hba : b = a
    · subst hba
      refine ⟨fun hne => absurd hforeign hne, fun i hi => ?_⟩
      rw [hforeign] at hi
      cases hi
    · exact (h.block b).congr honly hba (h.links b) rfl fun _ _ => rfl
  · rw [size_setKind]
    exact h.links b c hc

/-- In the new region stands what was kept, and behind it what the system gave. -/
theorem Shown.cell_relocatedMemory (h : p.Shown link arenas memory) (hkind : p.kind a = .heap old)
    (i : Nat) :
    p.relocatedMemory a old size memory ⟨p.requests, blockPrefixSize + i⟩ =
      .cell ((p.resizedPayload a old size).cell i) := by
  rw [relocatedMemory, FlatMemory.writePrefix, FlatMemory.overwrite_of_not, FlatMemory.copy]
  · by_cases hkept : i < min old size
    · have hstart : (⟨p.requests, blockPrefixSize + i⟩ : Place)
          = Place.shift ⟨p.requests, 0⟩ (blockPrefixSize + i) := by
        simp only [Place.shift, Nat.zero_add]
      have hsource : (p.front a).shift (blockPrefixSize + i) = (p.place a).shift i := by
        simp only [place, Place.payload, Place.shift, Nat.add_assoc]
      rw [hstart, FlatMemory.overwrite_shift (by omega), hsource, cell_resizedPayload hkept]
      exact (h.block a).cells i (by rw [hkind]; exact (Nat.lt_min.1 hkept).1)
    · rw [FlatMemory.overwrite_of_not, cell_resizedPayload_of_le (Nat.not_lt.1 hkept),
        h.ungiven p.requests (Nat.le_refl _), FlatMemory.given]
      rintro ⟨-, -, hlt⟩
      simp only at hlt
      omega
  · rintro ⟨-, -, hlt⟩
    simp only at hlt
    omega

/-- A block that the system moves to a new region is shown there, and its old bytes are
those of no block. -/
theorem Shown.relocated (h : p.Shown link arenas memory) (hkind : p.kind a = .heap old)
    (hlayout : (p.relocated a old size).Layout arenas)
    (hlink : ∀ b, b ≠ p.blocks.size → link' b = link b)
    (hnone : link' p.blocks.size = none) :
    (p.relocated a old size).Shown link' arenas (p.relocatedMemory a old size memory) := by
  -- first the block at the old address goes, then one is added that has what was copied
  have hgone := h.moved_away (lt_size_of_live (live_heap hkind)) old size
  have hsize : ((p.afterResize old size).setKind a .foreign).blocks.size = p.blocks.size :=
    size_setKind _ _ _
  have honly := onlyAt_addBlock ((p.afterResize old size).setKind a .foreign)
    ⟨.region p.requests, .heap size, p.resizedPayload a old size⟩
  rw [hsize] at honly
  have hnew := p.getElem?_relocated a old size
  have hkind' : (p.relocated a old size).kind p.blocks.size = .heap size := by
    rw [Process.kind, hnew]
  have hpayload : (p.relocated a old size).payload p.blocks.size = p.resizedPayload a old size := by
    rw [payload, hnew]
  have hfront := p.front_relocated a old size
  refine hgone.changed honly hlayout honly.others (ne_foreign_of_live (live_heap hkind'))
    (Nat.le_refl _)
    (fun x hx => ?outside) hlink ⟨fun _ => ?front, fun i _ => ?cells⟩
    fun b hb => by rw [hnone] at hb; cases hb
  case outside =>
    have hroom : ((p.relocated a old size).kind p.blocks.size).room = size := by rw [hkind']; rfl
    rw [relocatedMemory, FlatMemory.writePrefix, FlatMemory.overwrite_of_not, FlatMemory.copy,
      FlatMemory.overwrite_of_not]
    · rintro ⟨hregion, hle, hlt⟩
      refine hx ⟨by rw [hfront, hregion], ?_, ?_⟩ <;> rw [hfront] <;> omega
    · intro hin
      exact hx (covers_of_front (hfront ▸ hin))
  case front =>
    rw [hfront, relocatedMemory, FlatMemory.writePrefix_self, prefixOf, hkind']
  case cells =>
    have hplace : ((p.relocated a old size).place p.blocks.size).shift i
        = ⟨p.requests, blockPrefixSize + i⟩ := by
      simp only [place, hfront, Place.payload, Place.shift, Nat.zero_add]
    rw [hplace, hpayload]
    exact h.cell_relocatedMemory hkind i

end Process

end ExtensionHost
