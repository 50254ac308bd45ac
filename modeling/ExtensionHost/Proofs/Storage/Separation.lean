import ExtensionHost.Proofs.Storage.SharedStorage
import Mathlib.Data.List.Perm.Basic

/-!
# `ExtensionHost.Proofs.Storage.Separation`: blocks never share memory

`sound_step` carries `SharedStorage.Sound` through one operation, and
`sound_of_reachable` through every run of any number of allocators. The
cases of the step differ in how the record of the users changes, so they
all go through `Sound.work`, which asks for the record after the operation
to agree with the process.

The system is trusted with one thing (`SharedStorage.Placed`): regions that are in
use at the same time start at multiples of sixteen and do not overlap.
Given that, blocks in use and blocks that wait never overlap
(`Sound.separated`). The lists are what their links say (`Sound.inOrder`), and
no operation touches a block that it is not about (`Sound.keeps`). What this
comes to in memory, where the lists are links and a write goes wherever it is told
to, is in `ExtensionHost.Proofs.Storage.Isolation`.
-/

set_option autoImplicit false

namespace ExtensionHost

/-! ### Links -/

/-- Links that are the same for a list link it alike. -/
theorem SharedStorage.Linked.congr {link link' : Address → Option Address} {list : List Address}
    (h : Linked link list) (hsame : ∀ b ∈ list, link' b = link b) : Linked link' list := by
  induction list with
  | nil => trivial
  | cons a rest ih =>
    refine ⟨?_, ih h.2 fun b hb => hsame b (List.mem_cons_of_mem _ hb)⟩
    rw [hsame a List.mem_cons_self]
    exact h.1

namespace Storage

variable {s s' : Storage} {a : Address} {size : Nat} {made : Option Address} {cls : SizeClass}
  {link link' : Address → Option Address}

/-- A request touches the list of its own class only. -/
theorem Served.lists_of_ne (h : Served s size made s') (hcls : SizeClass.ofSize? size ≠ some cls) :
    s'.allocator.freeLists[cls] = s.allocator.freeLists[cls] := by
  cases h with
  | @reused served _ rest hserved hlist =>
    have hne : served ≠ cls := fun heq => hcls (heq ▸ hserved)
    show (s.allocator.freeLists.set served rest)[cls] = _
    rw [PerClass.getElem_set, if_neg hne]
  | carved hserved hlist hcarve => rfl
  | uncarved hserved hlist hcarve => rfl
  | large hserved hlimit => rfl
  | refused hserved hsame => rfl

/-- A request leaves each list as it is, or takes off its head. -/
theorem Served.linked (h : Served s size made s')
    (hlinked : SharedStorage.Linked link s.allocator.freeLists[cls]) :
    SharedStorage.Linked link s'.allocator.freeLists[cls] := by
  by_cases hcls : SizeClass.ofSize? size = some cls
  · cases h with
    | @reused served _ rest hserved hlist =>
      obtain rfl : served = cls := by
        rw [hserved] at hcls
        exact Option.some.inj hcls
      show SharedStorage.Linked link (s.allocator.freeLists.set served rest)[served]
      rw [PerClass.getElem_set, if_pos rfl]
      rw [hlist] at hlinked
      exact hlinked.2
    | carved hserved hlist hcarve => exact hlinked
    | uncarved hserved hlist hcarve => exact hlinked
    | large hserved hlimit => exact hlinked
    | refused hserved hsame => exact hlinked
  · rw [h.lists_of_ne hcls]
    exact hlinked

/-- A release puts a block in front of its list, so its prefix has to point
at what was in front before. -/
theorem Freed.linked (h : Freed s a s') (hlive : s.process.Live a)
    (hlisted : s.allocator.Listed s.process) (hothers : ∀ b, b ≠ a → link' b = link b)
    (hhead : ∀ c : SizeClass, s.process.kind a = .pool c →
      link' a = (s.allocator.freeLists[c]).head?)
    (hlinked : SharedStorage.Linked link s.allocator.freeLists[cls]) :
    SharedStorage.Linked link' s'.allocator.freeLists[cls] := by
  have hold : SharedStorage.Linked link' s.allocator.freeLists[cls] := by
    refine hlinked.congr fun b hb => hothers b ?_
    rintro rfl
    exact hlisted.not_live hb hlive
  cases h with
  | @pool freed hkind =>
    show SharedStorage.Linked link' (s.allocator.freeLists.set freed _)[cls]
    rw [PerClass.getElem_set]
    split
    · rename_i heq
      subst heq
      exact ⟨hhead freed hkind, hold⟩
    · exact hold
  | heap hkind => exact hold

end Storage

namespace SharedStorage

open Storage (Served Freed Resized SparesOthers)

variable {f f' g : SharedStorage} {i j : Nat} {allocator other : Allocator} {a b : Address}
  {size : Nat}
  {made moved : Option Address} {s : Storage} {p' : Process}

/-! ### One allocator at work -/

/-- The allocator that has worked is there. -/
theorem has_withStorage_self (hi : f.Has i allocator) : (f.withStorage i s).Has i s.allocator := by
  have hlt : i < f.allocators.length := (List.getElem?_eq_some_iff.1 hi).1
  show (f.allocators.set i (some s.allocator))[i]? = some (some s.allocator)
  rw [List.getElem?_set_self hlt]

/-- The allocators after one has worked: that one, and the others as they
were. -/
theorem has_withStorage (hj : (f.withStorage i s).Has j other) :
    j = i ∧ other = s.allocator ∨ j ≠ i ∧ f.Has j other := by
  change (f.allocators.set i (some s.allocator))[j]? = some (some other) at hj
  by_cases hji : j = i
  · subst hji
    have hlt : j < f.allocators.length := by
      have := (List.getElem?_eq_some_iff.1 hj).1
      rwa [List.length_set] at this
    rw [List.getElem?_set_self hlt] at hj
    exact .inl ⟨rfl, by cases hj; rfl⟩
  · rw [List.getElem?_set_ne (Ne.symm hji)] at hj
    exact .inr ⟨hji, hj⟩

/-- The arenas of shared storage are those of one allocator and all others. -/
theorem arenas_perm (hi : f.Has i allocator) :
    f.arenas.Perm (allocator.arenas.arenas.toList ++ f.otherArenas i) := by
  obtain ⟨hlt, hget⟩ := List.getElem?_eq_some_iff.1 hi
  have hperm := ((List.getElem_cons_eraseIdx_perm hlt).flatMap_right arenasOf).symm
  rw [hget, List.flatMap_cons] at hperm
  exact (hperm.append_left f.process.orphans).trans (List.perm_append_comm_assoc _ _ _)

/-- The invariant after one allocator has worked and the record of the users
has followed. -/
theorem Sound.work (h : f.Sound) (hi : f.Has i allocator)
    (hspares : SparesOthers ⟨allocator, f.process⟩ size s) (hsame : g.allocators = f.allocators)
    (hlive : ∀ b, b ∈ g.held ↔ s.process.Live b) (honce : g.held.Nodup)
    (hcut : ∀ b cls, s.process.smallClass? b = some cls → g.cutAs b = some cls)
    (hlinked : ∀ cls : SizeClass, Linked g.link s.allocator.freeLists[cls])
    (hlink : ∀ b cls, f.process.kind b = .freed cls → s.process.kind b = .freed cls →
      g.link b = f.link b) : (g.withStorage i s).Sound := by
  have hgi : g.Has i allocator := by rw [Has, hsame]; exact hi
  have hgf : ∀ {j other}, g.Has j other → f.Has j other := fun hj => by rwa [Has, hsame] at hj
  -- A block on the list of another allocator is not on one of this one, so it goes on waiting.
  have hwaits : ∀ {j other} (c : SizeClass) b, j ≠ i → f.Has j other → b ∈ other.freeLists[c] →
      f.process.kind b = .freed c ∧ s.process.kind b = .freed c := by
    intro j other c b hji hj hb
    have hfreed := (h.listed j other hj).freed c b hb
    exact ⟨hfreed, hspares.elsewhere b c hfreed fun d =>
      h.apart j i other allocator c d b hji hj hi hb⟩
  -- What is on a list of this one was there before or was in use, so no other list has it.
  have hjoins : ∀ {j other} (c d : SizeClass) b, j ≠ i → f.Has j other →
      b ∈ s.allocator.freeLists[c] → b ∉ other.freeLists[d] := by
    intro j other c d b hji hj hb hmem
    rcases hspares.joins c b hb with hold | hlive
    · exact h.apart i j allocator other c d b (Ne.symm hji) hi hj hold hmem
    · exact (h.listed j other hj).not_live hmem hlive
  refine ⟨?listed, ?apart, ?layout, hlive, honce, hcut, ?linked⟩
  case listed =>
    intro j other hj
    rcases has_withStorage hj with ⟨rfl, rfl⟩ | ⟨hji, hj'⟩
    · exact hspares.listed
    · refine (h.listed j other (hgf hj')).of_kind fun c b hb => ?_
      obtain ⟨hold, hnew⟩ := hwaits c b hji (hgf hj') hb
      exact hnew.trans hold.symm
  case apart =>
    intro j k other third c d b hjk hj hk hb
    rcases has_withStorage hj with ⟨rfl, rfl⟩ | ⟨hji, hj'⟩
    · rcases has_withStorage hk with ⟨rfl, rfl⟩ | ⟨hki, hk'⟩
      · exact absurd rfl hjk
      · exact hjoins c d b hki (hgf hk') hb
    · rcases has_withStorage hk with ⟨rfl, rfl⟩ | ⟨hki, hk'⟩
      · exact fun hmem => hjoins d c b hji (hgf hj') hmem hb
      · exact h.apart j k other third c d b hjk (hgf hj') (hgf hk') hb
  case layout =>
    have hothers : (g.withStorage i s).otherArenas i = f.otherArenas i := by
      show s.process.orphans ++ ((g.allocators.set i _).eraseIdx i).flatMap arenasOf = _
      rw [List.eraseIdx_set_eq, hsame, hspares.orphans]
      rfl
    have hlayout := hspares.layout _ (h.layout.perm (arenas_perm hi))
    rw [← hothers] at hlayout
    exact hlayout.perm (arenas_perm (has_withStorage_self hgi)).symm
  case linked =>
    intro j other c hj
    rcases has_withStorage hj with ⟨rfl, rfl⟩ | ⟨hji, hj'⟩
    · exact hlinked c
    · refine (h.linked j other c (hgf hj')).congr fun b hb => ?_
      obtain ⟨hold, hnew⟩ := hwaits c b hji (hgf hj') hb
      exact hlink b c hold hnew

/-! ### The record of the users -/

/-- After a block was handed out, the users have that one and those that they had. -/
theorem mem_handOut : b ∈ (f.handOut size made).held ↔ made = some b ∨ b ∈ f.held := by
  cases made with
  | none => simp [handOut]
  | some a =>
    show b ∈ a :: f.held ↔ _
    rw [List.mem_cons, Option.some.injEq, eq_comm]

/-- Giving a block back changes the link of that block only. -/
theorem link_takeBack_of_ne (hb : b ≠ a) : (f.takeBack allocator a).link b = f.link b := by
  cases hkind : f.process.kind a with
  | pool cls => simp only [takeBack, hkind, if_neg hb]
  | heap size => simp only [takeBack, hkind]
  | freed cls => simp only [takeBack, hkind]
  | foreign => simp only [takeBack, hkind]

/-- A block that was given back points at the one that was in front of its list. -/
theorem link_takeBack_self {cls : SizeClass} (hkind : f.process.kind a = .pool cls) :
    (f.takeBack allocator a).link a = (allocator.freeLists[cls]).head? := by
  simp only [takeBack, hkind, if_pos]

/-- An exchange of blocks leaves the allocators. -/
theorem allocators_exchange : (f.exchange allocator a size moved).allocators = f.allocators := by
  cases moved with
  | none => rfl
  | some b =>
    simp only [exchange]
    split <;> rfl

/-- What was handed out is in use, and so is what was in use before. -/
theorem Sound.held_handOut (h : f.Sound) (hhands : f.process.Hands size made p') :
    (∀ b, b ∈ (f.handOut size made).held ↔ p'.Live b) ∧ (f.handOut size made).held.Nodup := by
  refine ⟨fun b => ?_, ?_⟩
  · rw [mem_handOut]
    by_cases hb : made = some b
    · exact ⟨fun _ => hhands.live b hb, fun _ => .inl hb⟩
    · rw [Process.live_congr (hhands.others b hb), ← h.live]
      exact ⟨fun hmem => hmem.resolve_left hb, .inr⟩
  · cases made with
    | none => exact h.once
    | some a => exact List.nodup_cons.2 ⟨fun hmem => hhands.fresh a rfl ((h.live a).1 hmem), h.once⟩

/-- What was given back is not in use any more, and all else is. -/
theorem Sound.held_takeBack (h : f.Sound) (allocator : Allocator) (hfrees : f.process.Frees a p') :
    (∀ b, b ∈ (f.takeBack allocator a).held ↔ p'.Live b) ∧
      (f.takeBack allocator a).held.Nodup := by
  refine ⟨fun b => ?_, h.once.erase a⟩
  show b ∈ f.held.erase a ↔ _
  rw [h.once.mem_erase_iff]
  by_cases hb : b = a
  · subst hb
    exact ⟨fun hmem => absurd rfl hmem.1, fun hlive => absurd hlive hfrees.ended⟩
  · rw [Process.live_congr (hfrees.others b hb), ← h.live]
    exact ⟨And.right, fun hmem => ⟨hb, hmem⟩⟩

/-- A block that moved is in use at its new address, and the old one is not. -/
theorem Sound.held_moved (h : f.Sound) (hmoves : f.process.Moves a size (some b) p')
    (hba : b ≠ a) :
    (∀ c, c ∈ (b :: f.held).erase a ↔ p'.Live c) ∧ ((b :: f.held).erase a).Nodup := by
  obtain ⟨hfresh, hended⟩ := hmoves.fresh b rfl hba
  have hnodup : (b :: f.held).Nodup :=
    List.nodup_cons.2 ⟨fun hmem => hfresh ((h.live b).1 hmem), h.once⟩
  refine ⟨fun c => ?_, hnodup.erase a⟩
  rw [hnodup.mem_erase_iff, List.mem_cons]
  by_cases hca : c = a
  · subst hca
    exact ⟨fun hmem => absurd rfl hmem.1, fun hlive => absurd hlive hended⟩
  · by_cases hcb : c = b
    · subst hcb
      exact ⟨fun _ => hmoves.live c rfl, fun _ => ⟨hca, .inl rfl⟩⟩
    · have hne : some b ≠ some c := fun heq => hcb (by cases heq; rfl)
      rw [Process.live_congr (hmoves.others c hca hne), ← h.live]
      exact ⟨fun hmem => hmem.2.resolve_left hcb, fun hmem => ⟨hca, .inr hmem⟩⟩

/-- After a resize the users have the blocks in use, and each of them once. -/
theorem Sound.held_exchange (h : f.Sound) (allocator : Allocator) (ha : a ∈ f.held)
    (hmoves : f.process.Moves a size moved p') :
    (∀ c, c ∈ (f.exchange allocator a size moved).held ↔ p'.Live c) ∧
      (f.exchange allocator a size moved).held.Nodup := by
  -- a block that stays in place is still held, as are all the others
  have hstays (hother : ∀ c, c ≠ a → moved ≠ some c) (hlive : p'.Live a) (c : Address) :
      c ∈ f.held ↔ p'.Live c := by
    by_cases hc : c = a
    · subst hc
      exact ⟨fun _ => hlive, fun _ => ha⟩
    · rw [Process.live_congr (hmoves.others c hc (hother c hc)), h.live]
  cases moved with
  | none =>
    refine ⟨hstays nofun ?_, h.once⟩
    rw [Process.live_congr (hmoves.unmoved rfl), ← h.live]
    exact ha
  | some b =>
    by_cases hba : b = a
    · subst hba
      have hsame : f.exchange allocator b size (some b) = f := if_pos rfl
      rw [hsame]
      exact ⟨hstays (fun c hc heq => hc (by cases heq; rfl)) (hmoves.live b rfl), h.once⟩
    · have hheld : (f.exchange allocator a size (some b)).held = (b :: f.held).erase a := by
        simp only [exchange, if_neg hba]
        rfl
      rw [hheld]
      exact h.held_moved hmoves hba

/-- The record knows the class of each small block, if it did before. -/
theorem Sound.cutAs_handOut (h : f.Sound) (hmade : made = none →
      ∀ b, p'.smallClass? b = f.process.smallClass? b)
    (hcut : ∀ b cls, p'.smallClass? b = some cls → f.process.smallClass? b = some cls ∨
      b = f.process.blocks.size ∧ SizeClass.ofSize? size = some cls) :
    ∀ b cls, p'.smallClass? b = some cls → (f.handOut size made).cutAs b = some cls := by
  intro b cls hb
  cases made with
  | none => exact h.cut b cls ((hmade rfl b).symm.trans hb)
  | some a =>
    show (if b = f.process.blocks.size then SizeClass.ofSize? size else f.cutAs b) = some cls
    rcases hcut b cls hb with hold | ⟨rfl, hcls⟩
    · have hlt : b < f.process.blocks.size := by
        refine Process.lt_size_of_kind fun hkind => ?_
        simp [Process.smallClass?, hkind] at hold
      rw [if_neg (Nat.ne_of_lt hlt)]
      exact h.cut b cls hold
    · rw [if_pos rfl, hcls]

/-- A resize leaves it known what each small block was cut for. -/
theorem Sound.cutAs_exchange (h : f.Sound) (ha : a ∈ f.held)
    (hmoves : f.process.Moves a size moved p')
    (hcut : ∀ b cls, p'.smallClass? b = some cls → f.process.smallClass? b = some cls ∨
      b = f.process.blocks.size ∧ SizeClass.ofSize? size = some cls) :
    ∀ b cls, p'.smallClass? b = some cls →
      (f.exchange allocator a size moved).cutAs b = some cls := by
  by_cases hplace : moved = none ∨ moved = some a
  · -- nothing is new in the table
    have hsame : (f.exchange allocator a size moved).cutAs = f.cutAs := by
      rcases hplace with rfl | rfl
      · rfl
      · simp only [exchange, if_pos]
    intro b cls hb
    rw [hsame]
    refine h.cut b cls ((hcut b cls hb).resolve_right ?_)
    rintro ⟨rfl, -⟩
    have hne : f.process.blocks.size ≠ a :=
      Ne.symm (Nat.ne_of_lt (Process.lt_size_of_live ((h.live a).1 ha)))
    have hmoved : moved ≠ some f.process.blocks.size := by
      rcases hplace with rfl | rfl
      · exact fun heq => by cases heq
      · exact fun heq => hne (by cases heq; rfl)
    rw [Process.smallClass?_congr (Process.kind_congr (hmoves.others _ hne hmoved))] at hb
    simp [Process.smallClass?, Process.kind] at hb
  · obtain ⟨b, rfl⟩ : ∃ b, moved = some b := Option.ne_none_iff_exists'.1 fun h => hplace (.inl h)
    have hba : b ≠ a := fun heq => hplace (.inr (by rw [heq]))
    have hsame : (f.exchange allocator a size (some b)).cutAs =
        (f.handOut size (some b)).cutAs := by
      simp only [exchange, if_neg hba]
      rfl
    rw [hsame]
    exact h.cutAs_handOut (fun hmade => by cases hmade) hcut

/-! ### The step -/

/-- Allocators that are new have neither blocks nor arenas. -/
theorem Sound.joined {allocators : List (Option Allocator)} (h : f.Sound)
    (settings : AllocatorSettings) (hcases : ∀ j other, allocators[j]? = some (some other) →
      f.Has j other ∨ other = .new settings)
    (harenas : (f.allocators.flatMap arenasOf).Perm (allocators.flatMap arenasOf)) :
    Sound { f with allocators } := by
  have hempty (c : SizeClass) (a : Address) : a ∉ (Allocator.new settings).freeLists[c] := by
    rw [Allocator.getElem_new]
    exact List.not_mem_nil
  refine ⟨fun j other hj => ?_, fun j k other third c d a hjk hj hk ha => ?_,
    h.layout.perm (harenas.append_left _), h.live, h.once, h.cut, fun j other c hj => ?_⟩
  · rcases hcases j other hj with hj | rfl
    · exact h.listed j other hj
    · exact Allocator.listed_new settings _
  · rcases hcases j other hj with hj | rfl
    · rcases hcases k third hk with hk | rfl
      · exact h.apart j k other third c d a hjk hj hk ha
      · exact hempty d a
    · exact absurd ha (hempty c a)
  · rcases hcases j other hj with hj | rfl
    · exact h.linked j other c hj
    · rw [Allocator.getElem_new]
      trivial

/-- Shared storage is sound when another allocator starts. -/
theorem Sound.started (h : f.Sound) (settings : AllocatorSettings) :
    Sound { f with allocators := f.allocators ++ [some (.new settings)] } := by
  refine h.joined settings (fun j other hj => ?_) ?_
  · rw [List.getElem?_append] at hj
    split at hj
    · exact .inl hj
    · rw [List.getElem?_singleton] at hj
      split at hj
      · exact .inr (by cases hj; rfl)
      · cases hj
  · simp [arenasOf, Allocator.new, ArenaPool.new]

/-- The arenas of an allocator that goes are still there. -/
theorem arenas_dropped (hi : f.Has i allocator) :
    f.arenas.Perm (SharedStorage.arenas { f with
      allocators := f.allocators.set i none
      process := { f.process with
        orphans := f.process.orphans ++ allocator.arenas.arenas.toList } }) := by
  have hlt : i < f.allocators.length := (List.getElem?_eq_some_iff.1 hi).1
  have hgone : ((f.allocators.set i none).flatMap arenasOf).Perm
      ((f.allocators.eraseIdx i).flatMap arenasOf) :=
    (List.set_perm_cons_eraseIdx hlt none).flatMap_right arenasOf
  show f.arenas.Perm ((f.process.orphans ++ allocator.arenas.arenas.toList)
    ++ (f.allocators.set i none).flatMap arenasOf)
  rw [List.append_assoc]
  refine (arenas_perm hi).trans ?_
  refine (List.perm_append_comm_assoc _ _ _).trans ?_
  exact (hgone.symm.append_left _).append_left _

/-- Shared storage is sound when an allocator is dropped: its arenas stay, and nobody
has its lists. -/
theorem Sound.dropped (h : f.Sound) (hi : f.Has i allocator) :
    Sound { f with
      allocators := f.allocators.set i none
      process := { f.process with
        orphans := f.process.orphans ++ allocator.arenas.arenas.toList } } := by
  have hold : ∀ {j other}, (f.allocators.set i none)[j]? = some (some other) → f.Has j other := by
    intro j other hj
    by_cases hji : j = i
    · subst hji
      rw [List.getElem?_set_self (List.getElem?_eq_some_iff.1 hi).1] at hj
      cases hj
    · rwa [List.getElem?_set_ne (Ne.symm hji)] at hj
  refine ⟨fun j other hj => ?_, fun j k other third c d a hjk hj hk => ?_, ?_, h.live, h.once,
    h.cut, fun j other c hj => h.linked j other c (hold hj)⟩
  · obtain ⟨hnodup, hfreed⟩ := h.listed j other (hold hj)
    exact ⟨hnodup, hfreed⟩
  · exact h.apart j k other third c d a hjk (hold hj) (hold hk)
  · exact (h.layout.perm (arenas_dropped hi)).congr (Nat.le_refl _) (fun _ => rfl)
      (fun b n hb => ⟨n, hb⟩) fun _ => rfl

/-- A block that an allocator hands out. -/
theorem Sound.handed (h : f.Sound) (hi : f.Has i allocator)
    (hserved : Served ⟨allocator, f.process⟩ size made s) :
    ((f.handOut size made).withStorage i s).Sound := by
  have hlisted := h.listed i allocator hi
  have hhands := hserved.hands hlisted
  obtain ⟨hlive, honce⟩ := h.held_handOut hhands
  have hallocators : (f.handOut size made).allocators = f.allocators := by cases made <;> rfl
  have hlink : ∀ b cls, s.process.kind b = .freed cls →
      (f.handOut size made).link b = f.link b := by
    intro b cls hb
    cases made with
    | none => rfl
    | some a =>
      refine if_neg ?_
      rintro rfl
      exact Process.not_live_freed hb (hhands.live b rfl)
  refine h.work hi (hserved.sparesOthers hlisted) hallocators hlive honce ?_ (fun cls => ?_)
    fun b cls _ hb => hlink b cls hb
  · refine h.cutAs_handOut (fun hmade b => ?_) fun b cls => hserved.cut hlisted
    subst hmade
    exact Process.smallClass?_congr (Process.kind_congr (by rw [hserved.blocks_of_none]))
  · refine (hserved.linked (h.linked i allocator cls hi)).congr fun b hb => ?_
    exact hlink b cls ((hserved.listed hlisted).freed cls b hb)

/-- A block that an allocator takes back. -/
theorem Sound.taken (h : f.Sound) (hi : f.Has i allocator) (ha : a ∈ f.held)
    (hfreed : Freed ⟨allocator, f.process⟩ a s) :
    ((f.takeBack allocator a).withStorage i s).Sound := by
  have hlisted := h.listed i allocator hi
  have hused := (h.live a).1 ha
  obtain ⟨hlive, honce⟩ := h.held_takeBack allocator hfreed.frees
  have hothers : ∀ b, b ≠ a → (f.takeBack allocator a).link b = f.link b :=
    fun b hb => link_takeBack_of_ne hb
  refine h.work hi (hfreed.sparesOthers hused hlisted 0) rfl hlive honce
    (fun b cls hb => h.cut b cls (hfreed.cut hb)) (fun cls => ?_) fun b cls hb _ => ?_
  · refine hfreed.linked hused hlisted hothers (fun c hkind => ?_) (h.linked i allocator cls hi)
    exact link_takeBack_self hkind
  · refine hothers b ?_
    rintro rfl
    exact Process.not_live_freed hb hused

/-- Blocks that waited and still wait point to what they pointed to. -/
theorem link_exchange {c : Address} {cls : SizeClass} (hused : f.process.Live a)
    (hmoves : f.process.Moves a size moved p') (hold : f.process.kind c = .freed cls)
    (hnew : p'.kind c = .freed cls) : (f.exchange allocator a size moved).link c = f.link c := by
  cases moved with
  | none => rfl
  | some b =>
    have hca : c ≠ a := by
      rintro rfl
      exact Process.not_live_freed hold hused
    have hcb : c ≠ b := by
      rintro rfl
      exact Process.not_live_freed hnew (hmoves.live c rfl)
    simp only [exchange]
    split
    · rfl
    · rw [link_takeBack_of_ne hca]
      exact if_neg hcb

/-- A block that moves comes off one list, and the old one goes onto another, in
front of what was there. -/
theorem Sound.linked_moved {s₁ : Storage} (h : f.Sound) (hi : f.Has i allocator) (ha : a ∈ f.held)
    (hkind : ∀ c, f.process.kind a = .pool c → SizeClass.ofSize? size ≠ some c)
    (hserved : Served ⟨allocator, f.process⟩ size (some b) s₁)
    (hfreed : Freed (s₁.withCopy a b (min (f.process.kind a).usable size)) a s) (cls : SizeClass) :
    Linked (f.exchange allocator a size (some b)).link s.allocator.freeLists[cls] := by
  have hlisted := h.listed i allocator hi
  have hlisted₁ := hserved.listed hlisted
  have hused := (h.live a).1 ha
  have hhands := hserved.hands hlisted
  have hba : b ≠ a := by
    rintro rfl
    exact hhands.fresh b rfl hused
  have hsame : s₁.process.blocks[a]? = f.process.blocks[a]? :=
    hhands.others a (by simpa using hba)
  have hexchange : (f.exchange allocator a size (some b)).link
      = ((f.handOut size (some b)).takeBack allocator a).link := by
    simp only [exchange, if_neg hba]
  have hlinked₁ : Linked (f.handOut size (some b)).link s₁.allocator.freeLists[cls] := by
    refine (hserved.linked (h.linked i allocator cls hi)).congr fun c hc => if_neg ?_
    rintro rfl
    exact hlisted₁.not_live hc (hhands.live c rfl)
  rw [hexchange]
  refine hfreed.linked (hserved.live_withCopy hba hused _) (Storage.listed_withCopy hlisted₁ _)
    (fun c hc => link_takeBack_of_ne hc) (fun c hpool => ?_) hlinked₁
  have hpool' : f.process.kind a = .pool c := by
    rw [← Process.kind_congr hsame, ← hpool]
    exact (Storage.kind_withCopy _ _ _ _ _).symm
  -- the request was for another class, so it left this list alone
  have hlist : s₁.allocator.freeLists[c] = allocator.freeLists[c] :=
    hserved.lists_of_ne (hkind c hpool')
  show _ = (s₁.allocator.freeLists[c]).head?
  rw [hlist]
  exact link_takeBack_self hpool'

/-- A block that an allocator resizes. -/
theorem Sound.exchanged (h : f.Sound) (hi : f.Has i allocator) (ha : a ∈ f.held)
    (hresized : Resized ⟨allocator, f.process⟩ a size moved s) :
    ((f.exchange allocator a size moved).withStorage i s).Sound := by
  have hlisted := h.listed i allocator hi
  have hused := (h.live a).1 ha
  have hmoves := hresized.moves hused hlisted
  have hspares := hresized.sparesOthers hused hlisted
  obtain ⟨hlive, honce⟩ := h.held_exchange allocator ha hmoves
  -- where the lists stay, only the links of the blocks on them matter
  have hkept (hsame : ∀ cls : SizeClass, s.allocator.freeLists[cls] = allocator.freeLists[cls])
      (cls : SizeClass) :
      Linked (f.exchange allocator a size moved).link s.allocator.freeLists[cls] := by
    rw [hsame cls]
    refine (h.linked i allocator cls hi).congr fun c hc => ?_
    exact link_exchange hused hmoves (hlisted.freed cls c hc)
      (hspares.listed.freed cls c (by rwa [hsame cls]))
  refine h.work hi hspares allocators_exchange hlive honce (h.cutAs_exchange ha hmoves hspares.cut)
    ?_ fun c cls => link_exchange hused hmoves
  cases hresized with
  | stays hkind hcls => exact hkept fun _ => rfl
  | moved hkind hserved hfreed => exact h.linked_moved hi ha hkind hserved hfreed
  | unmoved hserved => exact fun cls => hserved.linked (h.linked i allocator cls hi)
  | resized hkind hcls hlimit hheap => exact hkept fun _ => rfl
  | refused hsame => exact hkept fun _ => rfl

/-- Writing to a block changes nothing that the record is about. -/
theorem Sound.modifyPayload (h : f.Sound) (a : Address) (fill : Payload → Payload) :
    Sound { f with process := f.process.modifyPayload a fill } := by
  have hkind : ∀ b, (f.process.modifyPayload a fill).kind b = f.process.kind b :=
    fun b => Process.kind_modifyPayload _ _ _ _
  refine ⟨fun j other hj => (h.listed j other hj).of_kind fun _ b _ => hkind b, h.apart,
    h.layout.modifyPayload a fill, fun b => ?_, h.once, fun b cls hb => h.cut b cls ?_, h.linked⟩
  · exact (h.live b).trans (Process.live_modifyPayload _ _ _ _).symm
  · exact (Process.smallClass?_congr (hkind b)).symm.trans hb

/-- Every operation keeps shared storage sound. -/
theorem sound_step {command : Command Address} (h : f.Sound) (hstep : f.Step command made f') :
    f'.Sound := by
  cases hstep with
  | start settings => exact h.started settings
  | drop hi => exact h.dropped hi
  | alloc hi hrun => exact h.handed hi (Storage.served_alloc hrun)
  | @allocZeroed i size _ _ _ hi hrun =>
    obtain ⟨s₁, hserved, ⟨rfl, rfl⟩ | ⟨a, rfl, rfl⟩⟩ := Storage.allocZeroed_cases hrun
    · exact h.handed hi hserved
    · exact (h.handed hi hserved).modifyPayload a (·.zero size)
  | @realloc i size a allocator moved s hi ha hrun =>
    obtain ⟨moved', s', hran, hresized⟩ :=
      Storage.resized_realloc (s := ⟨allocator, f.process⟩) ((h.live a).1 ha)
        (h.listed i allocator hi) size
    rw [hran] at hrun
    cases hrun
    exact h.exchanged hi ha hresized
  | @free i a allocator s hi ha hrun =>
    obtain ⟨s', hran, hfreed⟩ := Storage.freed_free (s := ⟨allocator, f.process⟩) ((h.live a).1 ha)
    rw [hran] at hrun
    cases hrun
    exact h.taken hi ha hfreed
  | write ha hoffset cell => exact h.modifyPayload _ _

/-- All shared storage that comes about is sound. -/
theorem sound_of_reachable (h : Reachable f) : f.Sound := by
  induction h with
  | start system timing =>
    refine ⟨fun i allocator hi => ?_, fun i j allocator other c d a _ hi => ?_, ?_, fun a => ?_,
      List.nodup_nil, fun a cls ha => ?_, fun i allocator cls hi => ?_⟩
    · cases hi
    · cases hi
    · exact (Process.layout_empty system).congr (Nat.le_refl _) (fun _ => rfl)
        (fun b n hb => ⟨n, hb⟩) fun _ => rfl
    · exact ⟨nofun, fun hlive => absurd (Process.lt_size_of_live hlive) (Nat.not_lt_zero _)⟩
    · simp [Process.smallClass?, Process.kind] at ha
    · cases hi
  | step hreach hstep ih => exact sound_step ih hstep

/-! ### What the users see -/

/-- A region that is in use, with its bytes: an arena, or the region of a
large block. -/
inductive Region (f : SharedStorage) : Nat → Nat → Prop
  | arena {arena : Arena} (hmem : arena ∈ f.arenas) : f.Region arena.region arena.size
  | large {a : Address} {size region : Nat} (hkind : f.process.kind a = .heap size)
      (hsite : f.process.site a = .region region) : f.Region region (blockPrefixSize + size)

/-- Where the system has put the regions in use: at multiples of sixteen,
and none over another one. -/
structure Placed (f : SharedStorage) (place : Nat → Nat) : Prop where
  aligned : ∀ region size, f.Region region size → 16 ∣ place region
  apart : ∀ region size region' size', f.Region region size → f.Region region' size' →
    region ≠ region' → place region + size ≤ place region' ∨ place region' + size' ≤ place region

/-- The bytes that a command asks for. -/
def Command.size? {α : Type} : Command α → Option Nat
  | alloc _ size | allocZeroed _ size | realloc _ _ size => some size
  | start _ | drop _ | free _ _ | write _ _ _ => none

/-- The prefixes say what the users know, and the lists are finite chains
of prefixes through blocks that are not in use, no two through one block. -/
structure InOrder (f : SharedStorage) : Prop where
  used : ∀ a ∈ f.held, (∃ cls, f.process.kind a = .pool cls ∧ f.cutAs a = some cls) ∨
    ∃ size, f.process.kind a = .heap size
  waiting : ∀ (i : Nat) (allocator : Allocator) (cls : SizeClass), f.Has i allocator →
    ∀ a ∈ allocator.freeLists[cls],
      a ∉ f.held ∧ f.process.kind a = .freed cls ∧ f.cutAs a = some cls
  nodup : ∀ (i : Nat) (allocator : Allocator) (cls : SizeClass), f.Has i allocator →
    (allocator.freeLists[cls]).Nodup
  linked : ∀ (i : Nat) (allocator : Allocator) (cls : SizeClass), f.Has i allocator →
    Linked f.link allocator.freeLists[cls]
  apart : ∀ (i j : Nat) (allocator other : Allocator) (c d : SizeClass) (a : Address),
    (i, c) ≠ (j, d) → f.Has i allocator → f.Has j other →
    a ∈ allocator.freeLists[c] → a ∉ other.freeLists[d]

/-- Where blocks lie, those that are in use and those that wait: a small one
with its prefix in one arena, a large one in its region, and no two of them
over each other. -/
structure Separated (f : SharedStorage) (place : Nat → Nat) : Prop where
  small : ∀ a cls, f.process.smallClass? a = some cls → ∃ arena ∈ f.arenas, ∃ offset,
    f.process.extent? a = some ⟨arena.region, offset - blockPrefixSize, offset + cls.bytes⟩ ∧
      blockPrefixSize ≤ offset ∧ offset + cls.bytes ≤ arena.size ∧
      16 ∣ place arena.region + offset
  large : ∀ a size, f.process.kind a = .heap size → ∃ region,
    f.process.extent? a = some ⟨region, 0, blockPrefixSize + size⟩ ∧ 16 ∣ place region
  apart : ∀ a b x y, a ≠ b → f.process.extent? a = some x → f.process.extent? b = some y →
    x.Apart place y

/-- What an operation leaves alone, and what it hands out. -/
structure Keeps (f : SharedStorage) (command : Command Address) (made : Option Address)
    (f' : SharedStorage) :
    Prop where
  fresh : ∀ a, made = some a → command.target ≠ some a → a ∉ f.held
  handed : ∀ a, made = some a → a ∈ f'.held
  room : ∀ a size, made = some a → command.size? = some size → size ≤ (f'.process.kind a).usable
  /-- A block that the operation is not about stays as it is, be it in use or not. -/
  others : ∀ b, command.target ≠ some b → made ≠ some b →
    f'.process.blocks[b]? = f.process.blocks[b]?
  /-- A block in use that the operation is not about stays in use. -/
  held : ∀ b ∈ f.held, command.target ≠ some b → b ∈ f'.held
  /-- What waits after the operation holds what it held before. -/
  waiting : ∀ b cls, f'.process.kind b = .freed cls → f'.process.payload b = f.process.payload b

/-- A block in use that an operation is not about is none that it hands out. -/
theorem Keeps.not_made {command : Command Address} (h : f.Keeps command made f') (hb : b ∈ f.held)
    (htarget : command.target ≠ some b) : made ≠ some b :=
  fun hmade => h.fresh b hmade htarget hb

/-- Sound storage is in order. -/
theorem Sound.inOrder (h : f.Sound) : f.InOrder where
  used a ha := by
    rcases Process.live_cases ((h.live a).1 ha) with ⟨cls, hkind⟩ | ⟨size, hkind⟩
    · exact .inl ⟨cls, hkind, h.cut a cls (Process.smallClass?_pool hkind)⟩
    · exact .inr ⟨size, hkind⟩
  waiting i allocator cls hi a ha := by
    have hfreed := (h.listed i allocator hi).freed cls a ha
    refine ⟨fun hheld => ?_, hfreed, h.cut a cls (Process.smallClass?_freed hfreed)⟩
    exact Process.not_live_freed hfreed ((h.live a).1 hheld)
  nodup i allocator cls hi := (h.listed i allocator hi).nodup cls
  linked := h.linked
  apart i j allocator other c d a hne hi hj ha hmem := by
    by_cases hij : i = j
    · subst hij
      obtain rfl : allocator = other := by
        have hsame := hi.symm.trans hj
        cases hsame
        rfl
      -- One block has one class in front of it.
      have hc := (h.listed i allocator hi).freed c a ha
      rw [(h.listed i allocator hi).freed d a hmem] at hc
      exact hne (by cases hc; rfl)
    · exact h.apart i j allocator other c d a hij hi hj ha hmem

/-- A block lies in a region that is in use. -/
theorem Sound.region_of_extent? {x : Extent} (h : f.Sound) (hx : f.process.extent? a = some x) :
    ∃ size, f.Region x.region size ∧ x.stop ≤ size := by
  rcases Process.extent?_cases hx with ⟨cls, ha⟩ | ⟨size, ha⟩
  · obtain ⟨arena, offset, hcut, hextent⟩ := h.layout.extent?_small ha
    obtain rfl := Option.some.inj (hx.symm.trans hextent)
    exact ⟨arena.size, .arena hcut.mem,
      Nat.le_trans hcut.used (h.layout.cursor arena hcut.mem).2⟩
  · obtain ⟨region, hsite, -, hextent⟩ := h.layout.extent?_large ha
    obtain rfl := Option.some.inj (hx.symm.trans hextent)
    exact ⟨_, .large ha hsite, Nat.le_refl _⟩

/-- In sound storage no two blocks lie over each other, wherever the system puts regions. -/
theorem Sound.separated {place : Nat → Nat} (h : f.Sound) (hplaced : f.Placed place) :
    f.Separated place where
  small a cls ha := by
    obtain ⟨arena, offset, hcut, hextent⟩ := h.layout.extent?_small ha
    refine ⟨arena, hcut.mem, offset, hextent, hcut.room, ?_, ?_⟩
    · exact Nat.le_trans hcut.used (h.layout.cursor arena hcut.mem).2
    · exact Nat.dvd_add (hplaced.aligned _ _ (.arena hcut.mem)) hcut.aligned
  large a size ha := by
    obtain ⟨region, hsite, -, hextent⟩ := h.layout.extent?_large ha
    exact ⟨region, hextent, hplaced.aligned _ _ (.large ha hsite)⟩
  apart a b x y hab hx hy := by
    obtain ⟨m, hm, hxm⟩ := h.region_of_extent? hx
    obtain ⟨n, hn, hyn⟩ := h.region_of_extent? hy
    by_cases hxy : x.region = y.region
    · have hoffsets := h.layout.apart_of_region hab hx hy hxy
      rw [Extent.Apart, hxy]
      omega
    · have hregions := hplaced.apart _ m _ n hm hn hxy
      rw [Extent.Apart]
      omega

/-- A request leaves the blocks in use and the blocks that wait alone. -/
theorem Sound.keeps_handed {command : Command Address} (h : f.Sound)
    (hhands : f.process.Hands size made s.process)
    (hsize : ∀ n, command.size? = some n → n = size) :
    f.Keeps command made ((f.handOut size made).withStorage i s) where
  fresh a ha _ hmem := hhands.fresh a ha ((h.live a).1 hmem)
  handed a ha := mem_handOut.2 (.inl ha)
  room a n ha hn := by
    obtain rfl := hsize n hn
    exact hhands.room a ha
  others b _ hmade := hhands.others b hmade
  held b hb _ := mem_handOut.2 (.inr hb)
  waiting b cls hb := by
    refine Process.payload_congr (hhands.others b ?_)
    rintro rfl
    exact Process.not_live_freed hb (hhands.live b rfl)

/-- A block that is given back leaves the others alone, those that wait
included. -/
theorem Sound.keeps_taken (h : f.Sound)
    (hfreed : Freed ⟨allocator, f.process⟩ a s) :
    f.Keeps (.free i a) none ((f.takeBack allocator a).withStorage i s) := by
  have hne : ∀ b, (Command.free i a).target ≠ some b → b ≠ a := fun b hb heq =>
    hb (by rw [heq]; rfl)
  refine ⟨nofun, nofun, nofun, fun b hb _ => hfreed.frees.others b (hne b hb),
    fun b hb htarget => ?_,
    fun b cls hb => hfreed.payload hb⟩
  show b ∈ f.held.erase a
  exact h.once.mem_erase_iff.2 ⟨hne b htarget, hb⟩

/-- A resize leaves all blocks alone but the one that is resized. -/
theorem Sound.keeps_exchanged (h : f.Sound) (ha : a ∈ f.held)
    (hlisted : allocator.Listed f.process)
    (hresized : Resized ⟨allocator, f.process⟩ a size moved s) :
    f.Keeps (.realloc i a size) moved ((f.exchange allocator a size moved).withStorage i s) := by
  have hused := (h.live a).1 ha
  have hmoves := hresized.moves hused hlisted
  obtain ⟨hlive, -⟩ := h.held_exchange allocator ha hmoves
  have hne : ∀ b, (Command.realloc i a size).target ≠ some b → b ≠ a := fun b hb heq =>
    hb (by rw [heq]; rfl)
  refine ⟨fun b hb htarget hmem => ?_, fun b hb => (hlive b).2 (hmoves.live b hb),
    fun b n hb hn => ?_, fun b htarget hmade => hmoves.others b (hne b htarget) hmade,
    fun b hb htarget => ?_, fun b cls hb => ?_⟩
  · exact (hmoves.fresh b hb (hne b htarget)).1 ((h.live b).1 hmem)
  · cases hn
    exact hmoves.room b hb
  · -- the block that the bytes moved to was not in use
    have hmoved : moved ≠ some b := by
      rintro rfl
      exact (hmoves.fresh b rfl (hne b htarget)).1 ((h.live b).1 hb)
    have hblock := hmoves.others b (hne b htarget) hmoved
    exact (hlive b).2 ((Process.live_congr hblock).2 ((h.live b).1 hb))
  · exact hresized.payload hused hlisted hb

/-- Whatever is done to shared storage changes no block besides the one that it is done to. -/
theorem Sound.keeps {command : Command Address} (h : f.Sound) (hstep : f.Step command made f') :
    f.Keeps command made f' := by
  cases hstep with
  | start settings =>
    exact ⟨nofun, nofun, nofun, fun _ _ _ => rfl, fun b hb _ => hb, fun _ _ _ => rfl⟩
  | drop hi => exact ⟨nofun, nofun, nofun, fun _ _ _ => rfl, fun b hb _ => hb, fun _ _ _ => rfl⟩
  | @alloc i size allocator made s hi hrun =>
    exact h.keeps_handed ((Storage.served_alloc hrun).hands (h.listed i allocator hi))
      fun n hn => by cases hn; rfl
  | @allocZeroed i size allocator made s hi hrun =>
    exact h.keeps_handed (Storage.hands_allocZeroed hrun (h.listed i allocator hi))
      fun n hn => by cases hn; rfl
  | @realloc i size a allocator moved s hi ha hrun =>
    have hlisted := h.listed i allocator hi
    obtain ⟨moved', s', hran, hresized⟩ :=
      Storage.resized_realloc (s := ⟨allocator, f.process⟩) ((h.live a).1 ha) hlisted size
    rw [hran] at hrun
    cases hrun
    exact h.keeps_exchanged ha hlisted hresized
  | @free i a allocator s hi ha hrun =>
    obtain ⟨s', hran, hfreed⟩ := Storage.freed_free (s := ⟨allocator, f.process⟩) ((h.live a).1 ha)
    rw [hran] at hrun
    cases hrun
    exact h.keeps_taken hfreed
  | @write a offset ha hoffset cell =>
    refine ⟨nofun, nofun, nofun, fun b hne _ => ?_, fun b hb _ => hb, fun b cls hb => ?_⟩
    · exact Process.getElem?_modifyPayload_of_ne (fun heq => hne (by rw [heq]; rfl)) _
    · refine Process.payload_modifyPayload_of_ne ?_ _
      rintro rfl
      -- what waits is not held, and only what is held is written to
      rw [Process.kind_modifyPayload] at hb
      exact Process.not_live_freed hb ((h.live b).1 ha)

end SharedStorage

end ExtensionHost
