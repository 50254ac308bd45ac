import ExtensionHost.Proofs.Storage.Balance

/-!
# `ExtensionHost.Proofs.Storage.Reuse`: what is freed last is used first

Whoever uses an allocator can keep a record of each class of small blocks: which blocks
of it are held (`out`), which were given back and not got again, the last one first
(`back`), and how many were held at most at one time (`peak`). All three follow from the
history of requests and answers alone.

The free lists are that record. A list is the stack of what was given back, so a request
gets the block that was freed last, and a block is cut from an arena only if the stack is
empty. Then all blocks of the class that there are are held, and one more than before is
needed. So the blocks that were ever cut are as many as were held at most, class by
class, and the counter of the allocator is the sum over the classes.

What a request does to one class is one of four things (`Turn`). A resize that moves a
block is two of them, but never for the same class, so that no class has more blocks in
use in between than before or afterwards.
-/

set_option autoImplicit false

namespace ExtensionHost

namespace Storage

/-! ### The record of a class -/

/-- The small block of a class that comes into use when a request for `size` bytes is
answered. A block that is resized where it is does not. -/
def gained (cls : SizeClass) (size : Nat) (ended made : Option Address) : List Address :=
  if made ≠ ended ∧ SizeClass.ofSize? size = some cls then made.toList else []

/-- The block that goes out of use when a request is answered. -/
def lost (ended made : Option Address) : List Address :=
  if made = ended then [] else ended.toList

/-- The blocks of a class that are held. -/
def out (cls : SizeClass) : History → List Address
  | [] => []
  | (request, made) :: past =>
    gained cls (request.bytes .own) (request.ended made) made ++
      (out cls past).diff (lost (request.ended made) made)

/-- The blocks of a class that were given back and not got again, the last one first. -/
def back (cls : SizeClass) : History → List Address
  | [] => []
  | (request, made) :: past =>
    ((lost (request.ended made) made).filter fun a => decide (a ∈ out cls past)) ++
      (back cls past).diff (gained cls (request.bytes .own) (request.ended made) made)

/-- All blocks of a class that ever came into use, as often as they did. -/
def handed (cls : SizeClass) : History → List Address
  | [] => []
  | (request, made) :: past =>
    gained cls (request.bytes .own) (request.ended made) made ++ handed cls past

/-- How many blocks of a class were held at most at one time. -/
def peak (cls : SizeClass) : History → Nat
  | [] => 0
  | entry :: past => max (peak cls past) (out cls (entry :: past)).length

/-- Whether a request needs a small block of a class: it asks for one, or it resizes a
block of another kind. -/
def Draws (cls : SizeClass) (past : History) : Request → Prop
  | .malloc size | .calloc _ size => SizeClass.ofSize? size = some cls
  | .realloc block size =>
    SizeClass.ofSize? size = some cls ∧ ∀ a, block = some a → a ∉ out cls past
  | .free _ => False

/-! ### What can happen to a class -/

/-- What a request does to the blocks of a class that are held and to those that were
given back: nothing, or one of these is got again, or one is cut, or one is given
back. -/
inductive Turn (out back : List Address) :
    (got out' back' : List Address) → Prop
  | rests : Turn out back [] out back
  | reuses {b : Address} {rest : List Address} (hback : back = b :: rest) (hb : b ∉ out) :
      Turn out back [b] (b :: out) rest
  | cuts {b : Address} (hback : back = []) (hb : b ∉ out) : Turn out back [b] (b :: out) []
  | ends {a : Address} (ha : a ∈ out) : Turn out back [] (out.erase a) (a :: back)

namespace Turn

variable {out back got out' back' : List Address}

/-- A turn holds no block twice. -/
theorem nodup (h : Turn out back got out' back') (hout : out.Nodup) : out'.Nodup := by
  cases h with
  | rests => exact hout
  | reuses hback hb => exact List.nodup_cons.2 ⟨hb, hout⟩
  | cuts hback hb => exact List.nodup_cons.2 ⟨hb, hout⟩
  | ends ha => exact hout.erase _

/-- What has ever been got is held or was given back. -/
theorem mem_iff (h : Turn out back got out' back') (hout : out.Nodup) (a : Address) :
    a ∈ out' ∨ a ∈ back' ↔ a ∈ got ∨ a ∈ out ∨ a ∈ back := by
  cases h with
  | rests => simp
  | reuses hback hb =>
    subst hback
    simp only [List.mem_cons, List.not_mem_nil, or_false]
    tauto
  | cuts hback hb =>
    subst hback
    simp only [List.mem_cons, List.not_mem_nil, or_false]
  | @ends b hb =>
    rw [hout.mem_erase_iff]
    simp only [List.mem_cons, List.not_mem_nil, false_or]
    by_cases hab : a = b
    · subst hab
      simp [hb]
    · simp [hab]

/-- One more block is cut only if more are held than ever before. -/
theorem length_eq (h : Turn out back got out' back') {most : Nat}
    (hmost : out.length + back.length = most) :
    out'.length + back'.length = max most out'.length := by
  cases h with
  | rests => omega
  | reuses hback hb =>
    subst hback
    simp only [List.length_cons] at hmost ⊢
    omega
  | cuts hback hb =>
    subst hback
    simp only [List.length_cons, List.length_nil] at hmost ⊢
    omega
  | ends ha =>
    have hlength := List.length_erase_of_mem ha
    have hpos := List.length_pos_of_mem ha
    simp only [List.length_cons]
    omega

end Turn

/-! ### What a request does to all classes -/

section FreeListEffect

variable {s s₁ s' : Storage} {a b : Address} {size count : Nat} {made ended : Option Address}
  {cls : SizeClass}

/-- A block that is answered with as it was comes from no list. -/
@[simp] theorem gained_self (cls : SizeClass) (size : Nat) (made : Option Address) :
    gained cls size made made = [] := if_neg fun h => h.1 rfl

/-- An answer with nothing takes nothing off a list. -/
@[simp] theorem gained_none (cls : SizeClass) (size : Nat) (ended : Option Address) :
    gained cls size ended none = [] := ite_self []

/-- A block that is answered with as it was does not go out of use. -/
@[simp] theorem lost_self (made : Option Address) : lost made made = [] := if_pos rfl

/-- If no block was given, none goes out of use. -/
@[simp] theorem lost_none (made : Option Address) : lost none made = [] := ite_self []

/-- Another block is taken off the list of the class that serves the size. -/
theorem gained_some (h : some b ≠ ended) :
    gained cls size ended (some b) = if SizeClass.ofSize? size = some cls then [b] else [] := by
  simp [gained, h]

/-- A block that is not answered with goes out of use. -/
theorem lost_some (h : made ≠ some a) : lost (some a) made = [a] := if_neg h

/-- At most one block is taken off a list. -/
theorem gained_cases (cls : SizeClass) (size : Nat) (ended made : Option Address) :
    gained cls size ended made = [] ∨ ∃ b, made = some b ∧ gained cls size ended made = [b] := by
  cases made with
  | none => exact .inl (gained_none cls size ended)
  | some b =>
    rw [gained]
    split
    · exact .inr ⟨b, rfl, rfl⟩
    · exact .inl rfl

/-- At most one block goes out of use. -/
theorem lost_cases (ended made : Option Address) :
    lost ended made = [] ∨ ∃ a, ended = some a ∧ lost ended made = [a] := by
  cases ended with
  | none => exact .inl (lost_none made)
  | some a =>
    rw [lost]
    split
    · exact .inl rfl
    · exact .inr ⟨a, rfl, rfl⟩

/-- What is taken off a list is what is answered with. -/
theorem eq_of_mem_gained (h : b ∈ gained cls size ended made) : made = some b := by
  rcases gained_cases cls size ended made with hnone | ⟨c, hmade, hsome⟩
  · rw [hnone] at h
    cases h
  · rw [hsome] at h
    rw [hmade, List.mem_singleton.1 h]

/-- What goes out of use is what was given. -/
theorem eq_of_mem_lost (h : a ∈ lost ended made) : ended = some a := by
  rcases lost_cases ended made with hnone | ⟨c, hended, hsome⟩
  · rw [hnone] at h
    cases h
  · rw [hsome] at h
    rw [hended, List.mem_singleton.1 h]

/-- What is taken off a list is of the class that serves the size. -/
theorem class_of_mem_gained (h : b ∈ gained cls size ended made) :
    SizeClass.ofSize? size = some cls := by
  rw [gained] at h
  split at h
  · next hgained => exact hgained.2
  · cases h

/-- What is taken off a list is not what was given. -/
theorem ne_of_mem_gained (h : b ∈ gained cls size ended made) : made ≠ ended := by
  rintro rfl
  rw [gained_self] at h
  cases h

/-- What is done to the lists of an allocator and to the marks of small blocks when
`size` bytes are asked for. -/
structure FreeListEffect (s : Storage) (size : Nat) (ended made : Option Address) (s' : Storage) :
    Prop where
  /-- What comes into use is taken off its list, and what goes out of use is put in
  front. -/
  lists : ∀ cls : SizeClass, s'.allocator.freeLists[cls] =
    ((lost ended made).filter fun a => decide (s.process.kind a = .pool cls)) ++
      s.allocator.freeLists[cls].diff (gained cls size ended made)
  kind : ∀ cls a, s'.process.kind a = .pool cls ↔
    a ∈ gained cls size ended made ∨ s.process.kind a = .pool cls ∧ a ∉ lost ended made
  /-- Another block that is answered with was not in use. -/
  fresh : made ≠ ended → ∀ b, made = some b → ¬s.process.Live b
  /-- No class has a block come into use and one go out of use. -/
  apart : ∀ cls, gained cls size ended made ≠ [] → ∀ a ∈ lost ended made,
    s.process.kind a ≠ .pool cls
  /-- A block that comes into use is the first on its list, or the list is empty and a
  block is cut. -/
  draws : ∀ cls, ∀ b ∈ gained cls size ended made,
    (∃ rest, s.allocator.freeLists[cls] = b :: rest ∧
      s'.allocator.carved = s.allocator.carved ∧
      s'.allocator.arenas.arenas = s.allocator.arenas.arenas) ∨
    (s.allocator.freeLists[cls] = [] ∧ s'.allocator.carved = s.allocator.carved + 1)
  /-- Nothing is cut for anything else. -/
  idle : (∀ cls, gained cls size ended made = []) →
    s'.allocator.carved = s.allocator.carved ∧
    s'.allocator.arenas.arenas = s.allocator.arenas.arenas

/-- Nothing changes hands. -/
theorem freeListEffect_still (hsame : made = ended)
    (hlists : s'.allocator.freeLists = s.allocator.freeLists)
    (hkind : ∀ cls a, s'.process.kind a = .pool cls ↔ s.process.kind a = .pool cls)
    (hcarved : s'.allocator.carved = s.allocator.carved)
    (harenas : s'.allocator.arenas.arenas = s.allocator.arenas.arenas) :
    FreeListEffect s size ended made s' := by
  subst hsame
  refine ⟨fun cls => ?_, fun cls a => ?_, ?_, ?_, ?_, fun _ => ⟨hcarved, harenas⟩⟩
  · rw [hlists]
    simp
  · rw [hkind]
    simp
  all_goals simp

/-- A request that is refused changes nothing: a pool that could cut nothing has not. -/
theorem freeListEffect_refused (h : Served s size none s') :
    FreeListEffect s size none none s' := by
  have hkind : ∀ cls a, s'.process.kind a = .pool cls ↔ s.process.kind a = .pool cls :=
    fun cls a => by
      have hsame : s'.process.kind a = s.process.kind a :=
        Process.kind_congr (by rw [h.blocks_of_none])
      rw [hsame]
  cases h with
  | uncarved hcls hlist hcarve =>
    rcases ArenaPool.carve_cases hcarve with ⟨_, hsome, -⟩ | ⟨_, _, -, hsome, -⟩ | ⟨-, rfl, -⟩
    · cases hsome
    · cases hsome
    · exact freeListEffect_still rfl rfl hkind rfl rfl
  | refused hcls hsame => exact freeListEffect_still rfl rfl hkind rfl rfl

/-- A request takes what it is served with off the list of its class, and touches no
other list. -/
theorem Served.lists (h : Served s size (some b) s') (cls : SizeClass) :
    s'.allocator.freeLists[cls] =
      s.allocator.freeLists[cls].diff (if SizeClass.ofSize? size = some cls then [b] else []) := by
  cases h with
  | @reused served _ rest hcls hlist =>
    rw [hcls]
    by_cases hc : served = cls
    · subst hc
      simp [hlist, PerClass.getElem_set]
    · simp [hc, PerClass.getElem_set]
  | @carved served _ _ _ _ hcls hlist hcarve =>
    rw [hcls]
    by_cases hc : served = cls
    · subst hc
      simp [hlist]
    · simp [hc]
  | large hcls hlimit =>
    rw [hcls]
    simp [Allocator.setHeapLive]

/-- A small block that is served was the first on its list, or the list is empty and it
was cut. -/
theorem Served.drawn (h : Served s size (some b) s') (hcls : SizeClass.ofSize? size = some cls) :
    (∃ rest, s.allocator.freeLists[cls] = b :: rest ∧
      s'.allocator.carved = s.allocator.carved ∧
      s'.allocator.arenas.arenas = s.allocator.arenas.arenas) ∨
    (s.allocator.freeLists[cls] = [] ∧ s'.allocator.carved = s.allocator.carved + 1) := by
  cases h with
  | reused hserved hlist =>
    obtain rfl := Option.some.inj (hserved.symm.trans hcls)
    exact .inl ⟨_, hlist, rfl, rfl⟩
  | carved hserved hlist hcarve =>
    obtain rfl := Option.some.inj (hserved.symm.trans hcls)
    exact .inr ⟨hlist, rfl⟩
  | large hserved hlimit =>
    rw [hserved] at hcls
    cases hcls

/-- Nothing is cut for a large block. -/
theorem Served.uncut (h : Served s size (some b) s')
    (hlarge : ∀ cls, SizeClass.ofSize? size ≠ some cls) :
    s'.allocator.carved = s.allocator.carved ∧
      s'.allocator.arenas.arenas = s.allocator.arenas.arenas := by
  cases h with
  | reused hcls hlist => exact absurd hcls (hlarge _)
  | carved hcls hlist hcarve => exact absurd hcls (hlarge _)
  | large hcls hlimit => exact ⟨rfl, rfl⟩

/-- The only block whose mark changes is the one that is served. -/
theorem Served.kind_iff (h : Served s size (some b) s') (hlisted : s.allocator.Listed s.process)
    (cls : SizeClass) (a : Address) : s'.process.kind a = .pool cls ↔
      a = b ∧ SizeClass.ofSize? size = some cls ∨ s.process.kind a = .pool cls := by
  by_cases hab : a = b
  · subst hab
    have hnot : s.process.kind a ≠ .pool cls := fun hpool =>
      h.not_live hlisted (Process.live_pool hpool)
    rw [h.kind hlisted]
    cases SizeClass.ofSize? size <;> simp [hnot]
  · have hsame : s'.process.kind a = s.process.kind a :=
      Process.kind_congr (h.getElem?_of_ne fun heq => hab (Option.some.inj heq).symm)
    simp [hsame, hab]

/-- A request that ends no block does to the lists what it should. -/
theorem freeListEffect_served (h : Served s size made s') (hlisted : s.allocator.Listed s.process) :
    FreeListEffect s size none made s' := by
  cases made with
  | none => exact freeListEffect_refused h
  | some b =>
    -- no block ends, so the one that is handed out is gained by its class, if it has one
    have hgained (cls : SizeClass) : gained cls size none (some b) =
        if SizeClass.ofSize? size = some cls then [b] else [] := gained_some (Option.some_ne_none b)
    have hmem {cls : SizeClass} {c : Address} :
        c ∈ gained cls size none (some b) ↔ c = b ∧ SizeClass.ofSize? size = some cls := by
      rw [hgained]
      split <;> simp [*]
    refine ⟨fun cls => ?_, fun cls a => ?_, fun _ c hc => ?_, fun cls _ a ha => ?_,
      fun cls c hc => ?_, fun hnone => h.uncut fun cls hcls => ?_⟩
    · rw [lost_none, List.filter_nil, List.nil_append, hgained, h.lists]
    · rw [lost_none, hmem, h.kind_iff hlisted]
      simp
    · obtain rfl := Option.some.inj hc
      exact h.not_live hlisted
    · rw [lost_none] at ha
      cases ha
    · obtain ⟨rfl, hsize⟩ := hmem.1 hc
      exact h.drawn hsize
    · have hgot : b ∈ gained cls size none (some b) := hmem.2 ⟨rfl, hcls⟩
      rw [hnone cls] at hgot
      cases hgot

/-- A small block that is released is put on its list, and nothing is cut. -/
theorem Freed.returns (h : Freed s a s') :
    (∀ cls : SizeClass, s'.allocator.freeLists[cls] =
      ([a].filter fun a => decide (s.process.kind a = .pool cls)) ++
        s.allocator.freeLists[cls]) ∧
    (∀ cls b, s'.process.kind b = .pool cls ↔ s.process.kind b = .pool cls ∧ b ≠ a) ∧
    s'.allocator.carved = s.allocator.carved ∧
    s'.allocator.arenas.arenas = s.allocator.arenas.arenas := by
  refine ⟨fun cls => ?_, fun cls b => ?_, ?_⟩
  · cases h with
    | @pool freed hkind =>
      by_cases hc : freed = cls
      · subst hc
        simp [withFreed, PerClass.getElem_set, hkind]
      · simp [withFreed, PerClass.getElem_set, hkind, hc]
    | heap hkind => simp [withReturned, Allocator.setHeapLive, hkind]
  -- the block is of no class any more, and the others are of the classes they were
  · by_cases hba : b = a
    · subst hba
      have hdead : s'.process.kind b ≠ .pool cls := fun hpool =>
        h.frees.ended (Process.live_pool hpool)
      simp [hdead]
    · have hsame : s'.process.kind b = s.process.kind b :=
        Process.kind_congr (h.frees.others b hba)
      simp [hsame, hba]
  · cases h with
    | pool => exact ⟨rfl, rfl⟩
    | heap => exact ⟨rfl, rfl⟩

/-- A release does to the lists what it should. -/
theorem freeListEffect_freed (h : Freed s a s') : FreeListEffect s size (some a) none s' := by
  obtain ⟨hlists, hkind, hidle⟩ := h.returns
  have hlost : lost (some a) none = [a] := lost_some nofun
  refine ⟨fun cls => ?_, fun cls b => ?_, nofun, fun cls hgained => ?_, fun cls b hb => ?_,
    fun _ => hidle⟩
  · rw [hlists, hlost, gained_none, List.diff_nil]
  · rw [hkind, hlost, gained_none]
    simp
  · exact absurd (gained_none cls size (some a)) hgained
  · rw [gained_none] at hb
    cases hb

/-- A block that moves is got and then given back. It is not of the class of the block
that it moves to, so no class has both. -/
theorem freeListEffect_moved (hlive : s.process.Live a) (hlisted : s.allocator.Listed s.process)
    (hkind : ∀ cls, s.process.kind a = .pool cls → SizeClass.ofSize? size ≠ some cls)
    (hserved : Served s size (some b) s₁) (hfreed : Freed (s₁.withCopy a b count) a s') :
    FreeListEffect s size (some a) (some b) s' := by
  have hab : a ≠ b := fun heq => hserved.not_live hlisted (heq ▸ hlive)
  have hne : some b ≠ some a := fun heq => hab (Option.some.inj heq).symm
  have hserves := freeListEffect_served hserved hlisted
  obtain ⟨hlists, hkinds, hcarved, harenas⟩ := hfreed.returns
  have hlost : lost (some a) (some b) = [a] := lost_some hne
  have hgained (cls : SizeClass) :
      gained cls size (some a) (some b) = gained cls size none (some b) := by
    rw [gained_some hne, gained_some (Option.some_ne_none b)]
  have hcopied := kind_withCopy s₁ a b count
  have hold : s₁.process.kind a = s.process.kind a :=
    Process.kind_congr (hserved.getElem?_of_ne fun heq => hab (Option.some.inj heq).symm)
  -- what is got is not what is given back, so the two steps do not get in the way of each
  -- other
  have hfresh := hserves.fresh (Option.some_ne_none b)
  refine ⟨fun cls => ?lists, fun cls c => ?kind, fun _ => hfresh, fun cls hc c hmem => ?apart,
    fun cls c hc => ?draws, fun hnone => ?idle⟩
  case lists =>
    have hfirst := hserves.lists cls
    rw [lost_none, List.filter_nil, List.nil_append] at hfirst
    rw [hlists, hlost, hgained, ← hfirst]
    simp only [hcopied, List.filter_cons, List.filter_nil, hold]
    rfl
  case kind =>
    have hfirst := hserves.kind cls c
    rw [lost_none] at hfirst
    rw [hkinds, hcopied, hfirst, hlost, hgained]
    have hnot : c ∈ gained cls size none (some b) → c ≠ a := by
      rintro hc rfl
      exact hfresh c (eq_of_mem_gained hc) hlive
    simp only [List.mem_singleton, List.not_mem_nil, not_false_eq_true, and_true]
    tauto
  case apart =>
    rw [hlost] at hmem
    obtain rfl := List.mem_singleton.1 hmem
    intro hpool
    refine hc ?_
    rw [gained_some hne, if_neg (hkind cls hpool)]
  case draws =>
    rw [hgained] at hc
    rw [hcarved, harenas]
    exact hserves.draws cls c hc
  case idle =>
    rw [hcarved, harenas]
    refine hserves.idle fun cls => ?_
    rw [← hgained]
    exact hnone cls

/-- A large block that the system resizes is of no class, and neither is the one that it
becomes. -/
theorem freeListEffect_heapRealloc {old : Nat} {process : Process}
    (hkind : s.process.kind a = .heap old)
    (hcls : SizeClass.ofSize? size = none)
    (hheap : s.process.heapRealloc a old size = (some b, process)) {bytes : Nat} :
    FreeListEffect s size (some a) (some b)
      { allocator := s.allocator.setHeapLive bytes, process } := by
  have hgained (cls : SizeClass) : gained cls size (some a) (some b) = [] := by
    refine if_neg fun h => ?_
    have hsome := h.2
    rw [hcls] at hsome
    cases hsome
  have hlost : ∀ c ∈ lost (some a) (some b), ∀ cls, s.process.kind c ≠ .pool cls := by
    intro c hc cls
    rw [lost] at hc
    split at hc
    · cases hc
    · obtain rfl := List.mem_singleton.1 hc
      rw [hkind]
      nofun
  obtain ⟨hplace, hnew, -, hothers⟩ := Process.heapRealloc_some hheap hkind
  refine ⟨fun cls => ?_, fun cls c => ?_, fun hne c hc => ?_, fun cls hc => absurd (hgained cls) hc,
    fun cls c hc => ?_, fun _ => ⟨rfl, rfl⟩⟩
  · rw [hgained, List.diff_nil, List.filter_eq_nil_iff.2 fun c hc => by simpa using hlost c hc cls]
    rfl
  · rw [hgained]
    -- neither the old address nor the new one is ever that of a small block
    have hsame : process.kind c = .pool cls ↔ s.process.kind c = .pool cls := by
      by_cases hcb : c = b
      · subst hcb
        have hbefore : s.process.kind c ≠ .pool cls := by
          rcases hplace with rfl | ⟨rfl, -⟩
          · rw [hkind]
            nofun
          · exact fun hpool => Process.not_live_size _ (Process.live_pool hpool)
        simp [hnew, hbefore]
      · by_cases hca : c = a
        · subst hca
          have hended : process.kind c = .foreign :=
            (hplace.resolve_left fun heq => hcb heq.symm).2
          simp [hended, hkind]
        · rw [Process.kind_congr (hothers c hca hcb)]
    rw [hsame]
    have hkept : s.process.kind c = .pool cls → c ∉ lost (some a) (some b) :=
      fun hpool hmem => hlost c hmem cls hpool
    simp only [List.not_mem_nil, false_or]
    tauto
  · obtain rfl := Option.some.inj hc
    rcases hplace with rfl | ⟨rfl, -⟩
    · exact absurd rfl hne
    · exact Process.not_live_size _
  · rw [hgained] at hc
    cases hc

/-- Whatever answers a request does to the lists what it should. -/
theorem RequestEffect.freeListEffect (h : RequestEffect s size ended made s')
    (hlisted : s.allocator.Listed s.process)
    (hlive : ∀ a, ended = some a → s.process.Live a) : FreeListEffect s size ended made s' := by
  cases h with
  | served hserved => exact freeListEffect_served hserved hlisted
  | @resized a b _ hresized =>
    cases hresized with
    | stays hkind hcls => exact freeListEffect_still rfl rfl (fun _ _ => .rfl) rfl rfl
    | moved hkind hserved hfreed =>
      exact freeListEffect_moved (hlive a rfl) hlisted hkind hserved hfreed
    | resized hkind hcls hlimit hheap => exact freeListEffect_heapRealloc hkind hcls hheap
  | unresized hresized =>
    cases hresized with
    | unmoved hserved => exact freeListEffect_served hserved hlisted
    | refused hsame =>
      refine freeListEffect_still rfl rfl (fun cls a => ?_) rfl rfl
      have hkind : _ = s.process.kind a := Process.kind_congr (by rw [hsame.blocks])
      rw [hkind]
  | freed hfreed => exact freeListEffect_freed hfreed

/-- What is written to blocks besides makes no difference. -/
theorem FreeListEffect.alike (h : FreeListEffect s size ended made s₁) (halike : s₁.Alike s') :
    FreeListEffect s size ended made s' where
  lists cls := by
    rw [halike.allocator]
    exact h.lists cls
  kind cls a := by
    rw [halike.process.kind]
    exact h.kind cls a
  fresh := h.fresh
  apart := h.apart
  draws cls a ha := by
    rw [halike.allocator]
    exact h.draws cls a ha
  idle hnone := by
    rw [halike.allocator]
    exact h.idle hnone

/-- An answer to a request does to the lists what it should. -/
theorem freeListEffect_answer {request : Request} (hlisted : s.allocator.Listed s.process)
    (hlive : ∀ a, request.target = some a → s.process.Live a)
    (hrun : answer request s = .ok made s') :
    FreeListEffect s (request.bytes .own) (request.ended made) made s' := by
  obtain ⟨made', s₁, next, hran, heffect, halike⟩ := effect_answer hlisted request hlive
  rw [hran] at hrun
  cases hrun
  have hended : ∀ a, request.ended made = some a → s.process.Live a :=
    fun a ha => hlive a (Request.target_of_ended ha)
  exact (heffect.freeListEffect hlisted hended).alike halike

/-- A block moves to the one that serves a request. -/
theorem served_of_move {old : Nat} (h : move a old size s = .ok made s') :
    ∃ s₁, Served s size made s₁ := by
  cases hmade : s.alloc size with
  | mk found s₁ =>
    cases found with
    | none =>
      rw [move_none hmade] at h
      cases h
      exact ⟨_, served_alloc hmade⟩
    | some b =>
      simp only [move, hmade] at h
      split at h
      · cases h
        exact ⟨_, served_alloc hmade⟩
      · cases h

/-- A block that is not of the class of a small size moves when it is resized to it. -/
theorem served_of_realloc (hlive : s.process.Live a) (hkind : s.process.kind a ≠ .pool cls)
    (hcls : SizeClass.ofSize? size = some cls) (h : realloc a size s = .ok made s') :
    ∃ s₁, Served s size made s₁ := by
  rcases Process.live_cases hlive with ⟨other, hpool⟩ | ⟨old, hheap⟩
  · have hother : SizeClass.ofSize? size ≠ some other := fun heq => by
      rw [hcls] at heq
      cases heq
      exact hkind hpool
    simp only [realloc, hpool, if_neg hother] at h
    exact served_of_move h
  · simp only [realloc, hheap, hcls] at h
    exact served_of_move h

end FreeListEffect

/-! ### The record is right -/

/-- The record of each class says what the allocator has of it. -/
structure Recorded (s : Storage) (history : History) : Prop where
  live : ∀ cls a, a ∈ out cls history ↔ a ∈ held history ∧ s.process.kind a = .pool cls
  once : ∀ cls, (out cls history).Nodup
  lists : ∀ cls : SizeClass, s.allocator.freeLists[cls] = back cls history
  ever : ∀ cls a, a ∈ handed cls history ↔ a ∈ out cls history ∨ a ∈ back cls history
  most : ∀ cls, (out cls history).length + (back cls history).length = peak cls history

section Recorded

variable {settings : AllocatorSettings} {s s₁ s' : Storage} {a b : Address} {size : Nat}
  {made ended : Option Address} {past history : History} {request : Request} {cls : SizeClass}

/-- A new allocator has nothing recorded. -/
theorem recorded_new (settings : AllocatorSettings) (process : Process) :
    Recorded ⟨.new settings, process⟩ [] where
  live cls a := by simp [out, held]
  once cls := List.nodup_nil
  lists cls := Allocator.getElem_new settings cls
  ever cls a := by simp [handed, out, back]
  most cls := rfl

/-- The record depends on the memory only through the marks of the blocks that are
held. -/
theorem Recorded.of_kind {process : Process} (h : Recorded s history)
    (hheld : ∀ a ∈ held history, process.kind a = s.process.kind a) :
    Recorded { s with process } history where
  live cls a := by
    rw [h.live]
    exact and_congr_right fun ha => by rw [hheld a ha]
  once := h.once
  lists := h.lists
  ever := h.ever
  most := h.most

/-- What a request does to the record of a class. -/
theorem Recorded.turn (h : Recorded s past) (hbooks : Books settings s (held past) (drawn past))
    (hended : ∀ a, ended = some a → a ∈ held past)
    (hlistEffect : FreeListEffect s size ended made s') (cls : SizeClass) :
    Turn (out cls past) (back cls past) (gained cls size ended made)
      (gained cls size ended made ++ (out cls past).diff (lost ended made))
      (((lost ended made).filter fun a => decide (a ∈ out cls past)) ++
        (back cls past).diff (gained cls size ended made)) := by
  rcases gained_cases cls size ended made with hgained | ⟨b, rfl, hgained⟩
  · rw [hgained, List.diff_nil]
    rcases lost_cases ended made with hlost | ⟨a, rfl, hlost⟩
    · rw [hlost]
      exact .rests
    · rw [hlost]
      by_cases ha : a ∈ out cls past
      · simp only [ha, List.filter_cons, decide_true, if_true, List.filter_nil, List.nil_append,
          List.diff_cons, List.diff_nil]
        exact .ends ha
      · simp only [List.filter_cons, ha, decide_false, Bool.false_eq_true, if_false,
          List.filter_nil, List.nil_append, List.diff_cons, List.diff_nil,
          List.erase_of_not_mem ha]
        exact .rests
  · have hmem : b ∈ gained cls size ended (some b) := by
      rw [hgained]
      exact List.mem_singleton_self b
    have hfresh : b ∉ out cls past := fun hb =>
      hlistEffect.fresh (ne_of_mem_gained hmem) b rfl (hbooks.live b ((h.live cls b).1 hb).1)
    -- what goes out of use is of another class, so this one only gains
    have hother : ∀ a ∈ lost ended (some b), a ∉ out cls past := fun a ha hout =>
      hlistEffect.apart cls (by rw [hgained]; nofun) a ha ((h.live cls a).1 hout).2
    have hkept : (out cls past).diff (lost ended (some b)) = out cls past := by
      rcases lost_cases ended (some b) with hlost | ⟨a, -, hlost⟩
      · rw [hlost, List.diff_nil]
      · rw [hlost, List.diff_cons, List.diff_nil,
          List.erase_of_not_mem (hother a (by rw [hlost]; exact List.mem_singleton_self a))]
    rw [hkept, List.filter_eq_nil_iff.2 fun a ha => by simpa using hother a ha, hgained]
    have hdraws := hlistEffect.draws cls b hmem
    rw [h.lists cls] at hdraws
    rcases hdraws with ⟨rest, hback, -⟩ | ⟨hback, -⟩
    · rw [hback, List.diff_cons, List.diff_nil, List.erase_cons_head]
      exact .reuses rfl hfresh
    · rw [hback, List.nil_diff]
      exact .cuts rfl hfresh

/-- The record stays right. -/
theorem Recorded.freeListEffect (h : Recorded s past)
    (hbooks : Books settings s (held past) (drawn past))
    (hended : ∀ a, request.ended made = some a → a ∈ held past)
    (hlistEffect : FreeListEffect s (request.bytes .own) (request.ended made) made s') :
    Recorded s' ((request, made) :: past) := by
  have hturn := h.turn hbooks hended hlistEffect
  refine ⟨fun cls a => ?live, fun cls => (hturn cls).nodup (h.once cls), fun cls => ?lists,
    fun cls a => ?ever, fun cls => ?most⟩
  case live =>
    rw [out, held, List.mem_append, List.mem_append, (h.once cls).mem_sdiff_iff, h.live,
      hlistEffect.kind, hbooks.once.mem_sdiff_iff, Option.mem_toList, Option.mem_toList]
    constructor
    · rintro (hgained | ⟨⟨hheld, hkind⟩, hlost⟩)
      · exact ⟨.inl (eq_of_mem_gained hgained), .inl hgained⟩
      · refine ⟨?_, .inr ⟨hkind, hlost⟩⟩
        -- the block that ends is in use afterwards only if it is the one that is handed out
        by_cases hend : request.ended made = some a
        · by_cases hsame : made = request.ended made
          · exact .inl (hsame.trans hend)
          · rw [hend, lost_some (hend ▸ hsame)] at hlost
            exact absurd (List.mem_singleton_self a) hlost
        · exact .inr ⟨hheld, hend⟩
    · rintro ⟨hheld, hgained | ⟨hkind, hlost⟩⟩
      · exact .inl hgained
      · refine .inr ⟨⟨?_, hkind⟩, hlost⟩
        rcases hheld with hmade | ⟨hheld, -⟩
        · by_cases hsame : made = request.ended made
          · exact hended a (hsame.symm.trans hmade)
          · exact absurd (Process.live_pool hkind) (hlistEffect.fresh hsame a hmade)
        · exact hheld
  case lists =>
    rw [hlistEffect.lists, h.lists]
    refine congrArg (· ++ _) (List.filter_congr fun a ha => ?_)
    simp [h.live, hended a (eq_of_mem_lost ha)]
  case ever =>
    rw [handed, List.mem_append, h.ever]
    exact ((hturn cls).mem_iff (h.once cls) a).symm
  case most => exact (hturn cls).length_eq (h.most cls)

/-- The record is right at any time of any run. -/
theorem Run.recorded {process : Process} (h : Run ⟨.new settings, process⟩ history s) :
    Recorded s history := by
  induction h with
  | start => exact recorded_new settings process
  | request hpast hheld hrun ih =>
    have hbooks := hpast.books
    refine ih.freeListEffect hbooks (fun a ha => hheld a (Request.target_of_ended ha)) ?_
    exact freeListEffect_answer hbooks.listed (fun a ha => hbooks.live a (hheld a ha)) hrun
  | elsewhere hpast hheld hwaiting ih => exact ih.of_kind hheld

/-! ### Blocks that are cut -/

/-- The small blocks among others are those of all classes. -/
theorem smallCount_eq_sum (process : Process) (blocks : List Address) :
    process.smallCount blocks =
      ∑ cls : SizeClass, blocks.countP fun a => decide (process.kind a = .pool cls) := by
  induction blocks with
  | nil => simp
  | cons a blocks ih =>
    have hone : process.smallCount [a] =
        ∑ cls : SizeClass, if process.kind a = .pool cls then 1 else 0 := by
      rw [Process.smallCount_singleton]
      cases process.kind a <;> simp [BlockKind.isSmall]
    rw [← List.singleton_append, Process.smallCount_append, hone, ih, ← Finset.sum_add_distrib]
    refine Finset.sum_congr rfl fun cls _ => ?_
    rw [List.countP_append, List.countP_singleton]
    simp

/-- The record of a class has as many blocks out as are held of it. -/
theorem Recorded.length_out (h : Recorded s history) (hheld : (held history).Nodup)
    (cls : SizeClass) :
    (out cls history).length =
      (held history).countP fun a => decide (s.process.kind a = .pool cls) := by
  rw [List.countP_eq_length_filter]
  refine List.Perm.length_eq ((List.perm_ext_iff_of_nodup (h.once cls) (hheld.filter _)).2 ?_)
  intro a
  rw [h.live, List.mem_filter, decide_eq_true_iff]

/-- The record of a class has no block twice. -/
theorem Recorded.nodup (h : Recorded s history)
    (hbooks : Books settings s (held history) (drawn history)) (cls : SizeClass) :
    (out cls history ++ back cls history).Nodup := by
  refine List.nodup_append.2 ⟨h.once cls, ?_, fun a hout b hback heq => ?_⟩
  · rw [← h.lists]
    exact hbooks.listed.nodup cls
  · subst heq
    rw [← h.lists] at hback
    exact hbooks.listed.not_live hback (hbooks.live a ((h.live cls a).1 hout).1)

/-- As many blocks of a class were handed out as were held at most at one time. -/
theorem Recorded.card_handed (h : Recorded s history)
    (hbooks : Books settings s (held history) (drawn history)) (cls : SizeClass) :
    (handed cls history).toFinset.card = peak cls history := by
  have hsame : (handed cls history).toFinset = (out cls history ++ back cls history).toFinset := by
    ext a
    rw [List.mem_toFinset, List.mem_toFinset, List.mem_append, h.ever]
  rw [hsame, List.toFinset_card_of_nodup (h.nodup hbooks cls), List.length_append, h.most]

/-- As many blocks were cut as the peaks of all classes add up to. -/
theorem Recorded.carved (h : Recorded s history)
    (hbooks : Books settings s (held history) (drawn history)) :
    s.allocator.carved = ∑ cls : SizeClass, peak cls history := by
  have hwaiting : s.allocator.waiting = ∑ cls : SizeClass, (back cls history).length :=
    Finset.sum_congr rfl fun cls _ => by rw [Allocator.freeCount, h.lists]
  rw [hbooks.carved, hbooks.inUse, smallCount_eq_sum, hwaiting, ← Finset.sum_add_distrib]
  refine Finset.sum_congr rfl fun cls _ => ?_
  rw [← h.length_out hbooks.once, h.most]

/-- A request that needs a block of a class is one to its list and the arenas. -/
theorem Recorded.served (h : Recorded s past)
    (hbooks : Books settings s (held past) (drawn past))
    (hheld : ∀ a, request.target = some a → a ∈ held past) (hdraws : Draws cls past request)
    (hrun : answer request s = .ok made s') :
    SizeClass.ofSize? (request.bytes .own) = some cls ∧
      ∃ s₁, Served s (request.bytes .own) made s₁ := by
  cases request with
  | malloc size =>
    refine ⟨hdraws, ?_⟩
    cases hmade : s.alloc size with
    | mk found s₁ =>
      simp only [answer, hmade] at hrun
      cases hrun
      exact ⟨_, served_alloc hmade⟩
  | calloc count size =>
    refine ⟨hdraws, ?_⟩
    cases hmade : s.allocZeroed size with
    | mk found s₁ =>
      simp only [answer, hmade] at hrun
      cases hrun
      obtain ⟨s₂, hserved, -⟩ := allocZeroed_cases hmade
      exact ⟨_, hserved⟩
  | realloc block size =>
    -- a resize needs a block only if the old one is not of that class already
    obtain ⟨hcls, hother⟩ := hdraws
    refine ⟨hcls, ?_⟩
    cases block with
    | none =>
      cases hmade : s.alloc size with
      | mk found s₁ =>
        simp only [answer, hmade] at hrun
        cases hrun
        exact ⟨_, served_alloc hmade⟩
    | some a =>
      have ha := hheld a rfl
      refine served_of_realloc (hbooks.live a ha) (fun hpool => ?_) hcls hrun
      exact hother a rfl ((h.live cls a).2 ⟨ha, hpool⟩)
  | free a => exact hdraws.elim

/-- What comes into use was needed. -/
theorem Recorded.draws (h : Recorded s past)
    (hlistEffect : FreeListEffect s (request.bytes .own) (request.ended made) made s')
    (hrun : answer request s = .ok made s')
    (hb : b ∈ gained cls (request.bytes .own) (request.ended made) made) :
    Draws cls past request := by
  have hcls := class_of_mem_gained hb
  cases request with
  | malloc size => exact hcls
  | calloc count size => exact hcls
  | realloc block size =>
    refine ⟨hcls, ?_⟩
    -- if the old block were of the class it would not have been given up for another one
    rintro a rfl hout
    have hmade := eq_of_mem_gained hb
    have hne := ne_of_mem_gained hb
    have hlost : a ∈ lost ((Request.realloc (some a) size).ended made) made := by
      rw [lost, if_neg hne, hmade]
      exact List.mem_singleton_self a
    exact hlistEffect.apart cls (List.ne_nil_of_mem hb) a hlost ((h.live cls a).1 hout).2
  | free a =>
    have hnone : made = none := by
      simp only [answer] at hrun
      split at hrun
      · cases hrun
        rfl
      · cases hrun
    rw [hnone, gained_none] at hb
    cases hb

/-- A request that needs a block of a class gets the one that was given back last. If
none was, a block is cut that was never got before, or there is none to be had. -/
theorem Recorded.got (h : Recorded s past) (hbooks : Books settings s (held past) (drawn past))
    (hheld : ∀ a, request.target = some a → a ∈ held past) (hdraws : Draws cls past request)
    (hrun : answer request s = .ok made s') :
    (∃ a rest, back cls past = a :: rest ∧ made = some a ∧
        s'.allocator.carved = s.allocator.carved ∧
        s'.allocator.arenas.arenas = s.allocator.arenas.arenas) ∨
      back cls past = [] ∧ ((made = none ∧ s'.allocator.carved = s.allocator.carved ∧
          s'.allocator.arenas.arenas = s.allocator.arenas.arenas) ∨
        ∃ a, made = some a ∧ a ∉ handed cls past ∧
          s'.allocator.carved = s.allocator.carved + 1) := by
  obtain ⟨hcls, s₁, hserved⟩ := h.served hbooks hheld hdraws hrun
  have hlistEffect :=
    freeListEffect_answer hbooks.listed (fun a ha => hbooks.live a (hheld a ha)) hrun
  rw [← h.lists]
  cases made with
  | none =>
    -- a list with a block on it is never refused
    have hempty : s.allocator.freeLists[cls] = [] := by
      cases hserved with
      | uncarved hother hlist hcarve =>
        obtain rfl := Option.some.inj (hother.symm.trans hcls)
        exact hlist
      | refused hother hsame =>
        rw [hcls] at hother
        cases hother
    exact .inr ⟨hempty, .inl ⟨rfl, hlistEffect.idle fun c => gained_none c _ _⟩⟩
  | some b =>
    have hfresh := hserved.not_live hbooks.listed
    have hne : some b ≠ request.ended (some b) := fun heq =>
      hfresh (hbooks.live b (hheld b (Request.target_of_ended heq.symm)))
    have hb : b ∈ gained cls (request.bytes .own) (request.ended (some b)) (some b) := by
      rw [gained_some hne, if_pos hcls]
      exact List.mem_singleton_self b
    rcases hlistEffect.draws cls b hb with ⟨rest, hlist, hidle⟩ | ⟨hlist, hcarved⟩
    · exact .inl ⟨b, rest, hlist, rfl, hidle⟩
    · refine .inr ⟨hlist, .inr ⟨b, rfl, fun hever => ?_, hcarved⟩⟩
      -- whoever was ever got is in use or on the list, and this block is neither
      rcases (h.ever cls b).1 hever with hout | hback
      · exact hfresh (hbooks.live b ((h.live cls b).1 hout).1)
      · rw [← h.lists, hlist] at hback
        cases hback

/-- At any time of any run of one allocator, for every class of small blocks: a request
that needs a block of the class gets the one that was given back last and not got again
since, and only if there is none a block is cut, which nobody has had before. So the
blocks of the class that were ever got, each of which was cut once, are as many as were
held at most at one time; the counter of cut blocks is the sum of these numbers over the
classes; and no arena is touched for any other request. -/
theorem reuse_of_run {process : Process} (h : Run ⟨.new settings, process⟩ history s) :
    (∀ cls a, a ∈ out cls history ↔ a ∈ held history ∧ s.process.kind a = .pool cls) ∧
    (∀ cls, (handed cls history).toFinset.card = peak cls history) ∧
    s.allocator.carved = ∑ cls : SizeClass, peak cls history ∧
    ∀ request made s', (∀ a, request.target = some a → a ∈ held history) →
      answer request s = .ok made s' →
      (∀ cls, Draws cls history request →
        (∃ a rest, back cls history = a :: rest ∧ made = some a ∧
          s'.allocator.carved = s.allocator.carved ∧
          s'.allocator.arenas.arenas = s.allocator.arenas.arenas) ∨
        back cls history = [] ∧ ((made = none ∧ s'.allocator.carved = s.allocator.carved ∧
            s'.allocator.arenas.arenas = s.allocator.arenas.arenas) ∨
          ∃ a, made = some a ∧ a ∉ handed cls history ∧
            s'.allocator.carved = s.allocator.carved + 1)) ∧
      ((∀ cls, ¬Draws cls history request) →
        s'.allocator.carved = s.allocator.carved ∧
        s'.allocator.arenas.arenas = s.allocator.arenas.arenas) := by
  have hrec := h.recorded
  have hbooks := h.books
  refine ⟨hrec.live, hrec.card_handed hbooks, hrec.carved hbooks,
    fun request made s' hheld hrun => ⟨fun cls hdraws => hrec.got hbooks hheld hdraws hrun,
      fun hnone => ?_⟩⟩
  -- nothing is gained by a class that is not drawn on, so nothing is cut
  have hlistEffect :=
    freeListEffect_answer hbooks.listed (fun a ha => hbooks.live a (hheld a ha)) hrun
  refine hlistEffect.idle fun cls => List.eq_nil_iff_forall_not_mem.2 fun b hb => ?_
  exact hnone cls (hrec.draws hlistEffect hrun hb)

/-- Two blocks of sixteen bytes are given back, and a third block moves to the one that
was given back last. -/
def shuffle : Option (History × Storage) :=
  follow [.malloc 16, .malloc 10, .malloc 100, .free 0, .free 1, .realloc (some 2) 16]
    ([], ⟨.new ⟨4096, 4096, none⟩, { system := .bounded 8192 }⟩)

/-- Three blocks were cut then, since two of one class and one of another were held at
one time, and the next small request gets the block that was given back first. -/
theorem reuse_shuffle : ∃ history s, shuffle = some (history, s) ∧
    Run ⟨.new ⟨4096, 4096, none⟩, { system := .bounded 8192 }⟩ history s ∧
    held history = [1] ∧ back 0 history = [0] ∧ (handed 0 history).toFinset.card = 2 ∧
    ∑ cls : SizeClass, peak cls history = 3 ∧
    ∃ s', answer (.malloc 12) s = .ok (some 0) s' ∧
      s'.allocator.carved = s.allocator.carved := by
  obtain ⟨⟨history, s⟩, hrun⟩ : ∃ now, shuffle = some now := Option.isSome_iff_exists.1 (by decide)
  have hread : ∀ {α : Type} (g : History × Storage → α), shuffle.map g = some (g (history, s)) := by
    intro α g
    rw [hrun]
    rfl
  have hreach := run_follow .start hrun
  obtain ⟨-, hcard, hcarved, hanswers⟩ := reuse_of_run hreach
  have hheld : held history = [1] :=
    Option.some.inj ((hread fun now => held now.1).symm.trans (by decide))
  have hback : back 0 history = [0] :=
    Option.some.inj ((hread fun now => back 0 now.1).symm.trans (by decide))
  have hpeak : peak 0 history = 2 :=
    Option.some.inj ((hread fun now => peak 0 now.1).symm.trans (by decide))
  have hcount : s.allocator.carved = 3 :=
    Option.some.inj ((hread fun now => now.2.allocator.carved).symm.trans (by decide))
  obtain ⟨made, s', hnext⟩ : ∃ made s', answer (.malloc 12) s = .ok made s' := ⟨_, _, rfl⟩
  have hdraws : Draws 0 history (.malloc 12) := by
    show SizeClass.ofSize? 12 = some 0
    decide
  obtain ⟨hgot, -⟩ := hanswers (.malloc 12) made s' nofun hnext
  rcases hgot 0 hdraws with ⟨a, rest, hfirst, rfl, hsame, -⟩ | ⟨hnone, -⟩
  · rw [hback] at hfirst
    cases hfirst
    exact ⟨history, s, hrun, hreach, hheld, hback, (hcard 0).trans hpeak,
      hcarved.symm.trans hcount, s', hnext, hsame⟩
  · rw [hback] at hnone
    cases hnone

end Recorded

end Storage

end ExtensionHost
