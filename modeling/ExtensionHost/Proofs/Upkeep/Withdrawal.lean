import ExtensionHost.Proofs.Object.Additions
import ExtensionHost.Proofs.Upkeep.Boxes

/-!
# `ExtensionHost.Proofs.Upkeep.Withdrawal`: what was made is given up again

An operation that makes several things may run out of storage midway. Then it gives
up what it has made so far, in releases that may come at several places of the code,
with part of the work already undone at each of them.

What goes in a release is what has no reference left, so two questions have to be
answered. Nothing that was there before may go, although the releases let go of
references to it: whoever had a reference at the start still has it, the caller or
an object that was there, and that is an invariant of the queue (`World.Rooted`,
`Drains.spares`). And everything that was made has to go. That need not be followed
through the releases at all. It can be read off the last world: its counts are exact,
what was made is held by nobody else than what was made before it, so of what is left
the oldest would have no reference (`Adds.withdrawn`).
-/

set_option autoImplicit false

namespace ExtensionHost

namespace World

variable {w w' w'' reached : World} {r s : Ref} {object : Object} {owned : Multiset Ref}
  {ended ended' filled filled' refs refs' made made' : List Ref} {m : Memory} {K : Ref → Prop}

/-! ### What goes -/

/-- The name of the type of an object, whether it is there or gone. -/
def nameOf (w : World) (r : Ref) : String := (w.objects[r]?).elim "" (·.type.name)

/-- An object that is there has the name of its type. -/
theorem nameOf_of_object? (h : w.object? r = some object) : w.nameOf r = object.type.name := by
  rw [nameOf, (object?_eq_some.1 h).1, Option.elim_some]

/-- The objects in `ended` went, each of them once: each reported that it went, and its
blocks were given back. -/
structure Sheds (w : World) (ended : List Ref) (w' : World) : Prop where
  leaves : w.Leaves ended w'
  types : ∀ s : Ref, (w'.objects[s]?).map (·.type) = (w.objects[s]?).map (·.type)
  nodup : ended.Nodup
  alive : ∀ s ∈ ended, (w.object? s).isSome
  returns : w.memory.Returns (ended.flatMap w.blocksOf) w'.memory
  departures : w'.memory.process.departures = w.memory.process.departures ++ ended.map w.nameOf

/-- The names of types stay while objects go. -/
theorem Sheds.nameOf (h : w.Sheds ended w') (s : Ref) : w'.nameOf s = w.nameOf s := by
  have hname : ∀ w : World,
      w.nameOf s = ((w.objects[s]?).map (·.type)).elim "" TypeObject.name := fun w => by
    rw [World.nameOf]
    cases w.objects[s]? <;> rfl
  rw [hname, hname, h.types s]

/-- Who stays while objects go was there before. -/
theorem Leaves.isSome (h : w.Leaves ended w') (hs : (w'.object? s).isSome) :
    (w.object? s).isSome := by
  obtain ⟨object, hobject⟩ := Option.isSome_iff_exists.1 hs
  obtain ⟨-, before, hbefore, -⟩ := h.origin hobject
  rw [hbefore]
  rfl

/-- Who stays while objects go keeps its blocks. -/
theorem Leaves.blocksOf (h : w.Leaves ended w') (hs : (w'.object? s).isSome) :
    w'.blocksOf s = w.blocksOf s := by
  obtain ⟨object, hobject⟩ := Option.isSome_iff_exists.1 hs
  obtain ⟨hnot, before, hbefore, -⟩ := h.origin hobject
  obtain ⟨count, hafter, -⟩ := h.stays s before hbefore hnot
  rw [blocksOf_of_object? hafter, blocksOf_of_object? hbefore]
  rfl

/-- Objects that go one after the other are all gone. -/
theorem Sheds.trans (h : w.Sheds ended w') (h' : w'.Sheds ended' w'') :
    w.Sheds (ended ++ ended') w'' where
  leaves := h.leaves.trans h'.leaves
  types s := (h'.types s).trans (h.types s)
  nodup := by
    refine List.nodup_append.2 ⟨h.nodup, h'.nodup, fun s hs t ht heq => ?_⟩
    have halive := h'.alive t ht
    rw [← heq, h.leaves.gone s hs] at halive
    cases halive
  alive s hs := by
    rcases List.mem_append.1 hs with hs | hs
    · exact h.alive s hs
    · exact h.leaves.isSome (h'.alive s hs)
  returns := by
    have hblocks : ended'.flatMap w'.blocksOf = ended'.flatMap w.blocksOf :=
      List.flatMap_congr fun s hs => h.leaves.blocksOf (h'.alive s hs)
    rw [List.flatMap_append, ← hblocks]
    exact h.returns.trans h'.returns
  departures := by
    have hnames : ended'.map w'.nameOf = ended'.map w.nameOf :=
      List.map_congr_left fun s _ => h.nameOf s
    rw [h'.departures, h.departures, hnames, List.map_append, List.append_assoc]

/-- Counts that change and a queue that grows end nothing. -/
theorem Recounted.sheds (h : w.Recounted w') (hleaves : w.Leaves [] w') : w.Sheds [] w' where
  leaves := hleaves
  types s := by
    rcases h.objects s with hs | ⟨-, count, hs⟩
    · rw [hs]
    · rw [hs, Option.map_map]
      rfl
  nodup := .nil
  alive _ hs := absurd hs List.not_mem_nil
  returns := by
    rw [h.memory]
    exact (Memory.Alike.refl _).returns
  departures := by rw [h.memory, List.map_nil, List.append_nil]

/-- Nobody goes when nothing happens. -/
theorem Sheds.refl (w : World) : w.Sheds [] w := (Recounted.refl w).sheds (.refl w)

/-! ### Routines -/

/-- Freeing the block of an object gives it back, and no other object changes. -/
theorem returns_freeBlock {home : Option Address} (hrun : freeBlock home w = .ok () w') :
    w.memory.Returns home.toList w'.memory ∧ w'.objects = w.objects := by
  cases home with
  | none =>
    cases hrun
    exact ⟨(Memory.Alike.refl _).returns, rfl⟩
  | some a =>
    simp only [freeBlock, Host.runMemory] at hrun
    split at hrun
    · next m hfree =>
      cases hrun
      exact ⟨Memory.returns_free hfree, rfl⟩
    · cases hrun

/-- The last part of a routine gives back the blocks of the object. -/
theorem returns_closing (hrun : closing r object w = .ok () w') :
    w.memory.Returns object.blocks w'.memory ∧ w'.objects = (w.without r).objects := by
  simp only [closing] at hrun
  split at hrun
  · cases hrun
  · next w₁ hbuffer =>
    obtain ⟨hreturns, hobjects⟩ := returns_freeBlock hbuffer
    obtain ⟨hreturns', hobjects'⟩ := returns_freeBlock hrun
    refine ⟨hreturns.trans hreturns', hobjects'.trans ?_⟩
    rw [without, modify, modify, hobjects]

/-- A routine reports once that its object goes, by the name of its type. -/
theorem released_routineEvents (w : World) (object : Object) :
    (w.routineEvents object).filterMap Event.released? = [object.type.name] := by
  have hblocks : (object.blocks.map fun _ => Event.blockFreed).filterMap Event.released? = [] :=
    List.filterMap_eq_nil_iff.2 fun event hevent => by
      obtain ⟨_, -, rfl⟩ := List.mem_map.1 hevent
      rfl
  rw [routineEvents, List.filterMap_append, released_openingEvents, hblocks, List.append_nil]

/-- A routine ends its own object. -/
theorem sheds_destroy (hhoused : w.Housed)
    (hcounted : w.Counted (owned + w.held []) (r :: w.pending)) (hactive : w.draining = true)
    (hrun : destroy r w = .ok () w') : w.Sheds [r] w' := by
  obtain ⟨object, _, hobject, hrun', -, hleaves, -, -, -, hevents⟩ :=
    destroy_spec hhoused hcounted hactive
  cases hrun.symm.trans (hrun' nested)
  obtain ⟨_, hobject', -, -, hfits⟩ := object_of_zero hhoused hcounted List.mem_cons_self
  cases hobject.symm.trans hobject'
  rw [destroy, destroyWith_eq nested hobject hfits] at hrun
  split at hrun
  · cases hrun
  · next w₁ hreleased =>
    have hcounts := recounted_releaseAllWith_nested (hhoused.opened object) hreleased
    -- the items are only queued here, so what is returned is the object's own
    obtain ⟨hreturns, hobjects⟩ := returns_closing hrun
    refine ⟨hleaves, fun s => ?_, List.nodup_singleton r, fun s hs => ?_, ?_, ?_⟩
    · -- an object that is gone keeps its place in the table
      have hsame : (w₁.objects[s]?).map (·.type) = (w.objects[s]?).map (·.type) := by
        rcases hcounts.objects s with hs | ⟨-, count, hs⟩
        · exact congrArg (Option.map _) hs
        · rw [hs, Option.map_map]
          rfl
      rw [hobjects, ← hsame, without, modify, Array.getElem?_modify]
      split
      · rw [Option.map_map]
        rfl
      · rfl
    · rw [List.mem_singleton.1 hs, hobject]
      rfl
    · rw [List.flatMap_singleton, blocksOf_of_object? hobject]
      rw [hcounts.memory] at hreturns
      have hopened : w.memory.Alike (w.opened object).memory :=
        ⟨rfl, rfl, rfl, fun _ => rfl, fun _ => rfl, rfl, rfl, rfl, rfl, rfl⟩
      exact hopened.returns.trans hreturns
    · show w'.events.filterMap _ = w.events.filterMap _ ++ _
      rw [hevents, List.filterMap_append, released_routineEvents, List.map_singleton,
        nameOf_of_object? hobject]

/-! ### What is spared -/

/-- Whatever the caller may let go of, the objects with the property stay: each of them
is not counted, or is one of those that the caller keeps references to, or is held by
another object with the property. -/
structure Rooted (w : World) (kept : Multiset Ref) (K : Ref → Prop) : Prop where
  alive : ∀ s, K s → (w.object? s).isSome
  root : ∀ s n, K s → w.count? s = some n → n < immortalCount →
    s ∈ kept ∨ ∃ t, K t ∧ s ∈ w.contents t

/-- Of the objects that are there none goes as long as its caller lets go of nothing. -/
theorem Sound.rooted (h : w.Sound owned) : w.Rooted owned fun s => (w.object? s).isSome where
  alive _ hs := hs
  root s n _ hn hlt := by
    have hexact := h.counted.exact s n hn hlt
    have hpos := h.counted.pos hn hlt
    have hmem : s ∈ owned + w.held [] := Multiset.count_pos.1 (by omega)
    rcases Multiset.mem_add.1 hmem with hs | hs
    · exact .inl hs
    · obtain ⟨t, -, ht⟩ := mem_held.1 hs
      refine .inr ⟨t, ?_, ht⟩
      cases hobject : w.object? t with
      | some object => rfl
      | none =>
        rw [contents_of_none hobject] at ht
        cases ht

/-- What the caller keeps is still kept when other objects go. -/
theorem Rooted.leaves (h : w.Rooted owned K) (hleaves : w.Leaves ended w')
    (hspares : ∀ s ∈ ended, ¬ K s) : w'.Rooted owned K where
  alive s hs := by
    obtain ⟨object, hobject⟩ := Option.isSome_iff_exists.1 (h.alive s hs)
    obtain ⟨count, hobject', -⟩ := hleaves.stays s object hobject fun hmem => hspares s hmem hs
    rw [hobject']
    rfl
  root s n hs hn hlt := by
    obtain ⟨object, hobject⟩ := Option.isSome_iff_exists.1 (h.alive s hs)
    obtain ⟨count, hobject', -, himmortal⟩ :=
      hleaves.stays s object hobject fun hmem => hspares s hmem hs
    rw [count?_of_object? hobject'] at hn
    cases hn
    have hmortal : object.count < immortalCount := by
      by_contra hle
      have hcount := himmortal (decide_eq_true (Int.not_lt.1 hle))
      exact hle (hcount ▸ hlt)
    rcases h.root s _ hs (count?_of_object? hobject) hmortal with hmem | ⟨t, ht, hmem⟩
    · exact .inl hmem
    · refine .inr ⟨t, ht, ?_⟩
      rw [hleaves.contents fun hmem' => hspares t hmem' ht]
      exact hmem

/-- What the caller keeps is still kept when objects are made and none that is kept is
filled. -/
theorem Rooted.adds (h : w.Rooted owned K) (hadds : w.Adds filled refs made w')
    (hfilled : ∀ s ∈ filled, ¬ K s) : w'.Rooted owned K where
  alive s hs := hadds.grows.isSome (h.alive s hs)
  root s n hs hn hlt := by
    obtain ⟨object, hobject⟩ := Option.isSome_iff_exists.1 (h.alive s hs)
    rw [count?_of_object? (hadds.stays s object hobject)] at hn
    cases hn
    have hmortal : object.count < immortalCount :=
      Int.lt_of_le_of_lt (le_raised object.count _) hlt
    rcases h.root s _ hs (count?_of_object? hobject) hmortal with hmem | ⟨t, ht, hmem⟩
    · exact .inl hmem
    · obtain ⟨holder, hholder⟩ := Option.isSome_iff_exists.1 (h.alive t ht)
      refine .inr ⟨t, ht, ?_⟩
      rw [contents, hadds.slots t holder hholder fun hmem' => hfilled t hmem' ht]
      exact hmem

/-- By induction on the objects that go. Each of them is in the queue when its turn
comes, so nobody has a reference to it. -/
theorem Drains.spares {start : Host Unit} {rs : List Ref} (h : Drains start w rs w')
    (hhoused : w.Housed) (hcounted : w.Counted (owned + w.held []) w.pending)
    (hrooted : w.Rooted owned K) :
    ∀ s ∈ rs, ¬ K s := by
  induction h with
  | done => exact fun s hs => absurd hs List.not_mem_nil
  | @next w w₁ w' r rest rs hpending hactive hrun _ ih =>
    have hzero : r ∈ w.pending := by
      rw [hpending]
      exact List.mem_cons_self
    have hnobody := hcounted.notMem_of_zero hzero
    have hfirst : ¬ K r := fun hr => by
      rcases hrooted.root r 0 hr ((hcounted.zero r).1 hzero) (by decide) with hmem | ⟨t, -, hmem⟩
      · exact hnobody (Multiset.mem_add.2 (.inl hmem))
      · exact hnobody (Multiset.mem_add.2 (.inr (mem_held.2 ⟨t, List.not_mem_nil, hmem⟩)))
    obtain ⟨_, _, -, hrun', hhoused₁, hleaves, hcounted₁, -⟩ :=
      destroy_next hhoused hcounted hpending hactive
    cases hrun.symm.trans (hrun' start)
    have hrooted₁ := hrooted.leaves hleaves fun s hs => List.mem_singleton.1 hs ▸ hfirst
    intro s hs
    rcases List.mem_cons.1 hs with rfl | hs
    · exact hfirst
    · exact ih hhoused₁ hcounted₁ hrooted₁ s hs

/-- A routine sheds the objects that it works off. -/
theorem Drains.sheds {rs : List Ref} (h : Drains nested w rs w') (hhoused : w.Housed)
    (hcounted : w.Counted (owned + w.held []) w.pending) : w.Sheds rs w' := by
  induction h with
  | done => exact .refl _
  | @next w w₁ w' r rest rs hpending hactive hrun _ ih =>
    obtain ⟨_, _, -, hrun', hhoused₁, -, hcounted₁, -⟩ :=
      destroy_next hhoused hcounted hpending hactive
    cases hrun.symm.trans (hrun' nested)
    have hqueue : w.Sheds [] { w with pending := rest } :=
      (recounted_queue w rest w.draining).sheds (leaves_pending w rest)
    have hcounted' : Counted { w with pending := rest }
        (owned + held { w with pending := rest } []) (r :: rest) := by
      rw [hpending] at hcounted
      exact hcounted.congr fun _ => rfl
    exact (hqueue.trans (sheds_destroy (hhoused.setPending rest) hcounted' hactive hrun)).trans
      (ih hhoused₁ hcounted₁)

/-- A reference is given up, and what is rooted without it is spared. -/
theorem Sound.release_sheds (h : w.Sound (r ::ₘ owned)) (hrooted : w.Rooted owned K) :
    ∃ ended w', World.release r w = .ok () w' ∧ w'.Sound owned ∧ w.Sheds ended w' ∧
      ∀ s ∈ ended, ¬ K s := by
  obtain ⟨last, w₁, hlower, -, hleaves, -⟩ := lower_spec h.housed h.counted_cons
  have hlowered := (recounted_lower h.housed hlower).sheds hleaves
  -- a reference that is not the last leaves everything; after the last the whole queue is
  -- worked off
  cases last with
  | false =>
    obtain ⟨_, w', hrelease, hsound, -⟩ := h.release
    obtain rfl : w₁ = w' := by
      simp only [World.release, World.releaseWith, hlower] at hrelease
      cases hrelease
      rfl
    exact ⟨[], w₁, hrelease, hsound, hlowered, fun s hs => absurd hs List.not_mem_nil⟩
  | true =>
    obtain ⟨rs, w₂, hdrains, hdrained, hrelease⟩ := h.release_last hlower
    obtain ⟨hhoused, hcounted⟩ := h.awaiting hlower
    have hawaiting := hleaves.trans (leaves_awaiting w₁ r)
    have hrooted' := hrooted.leaves hawaiting fun s hs => absurd hs List.not_mem_nil
    have hbefore : w.Sheds [] (w₁.awaiting r) :=
      hlowered.trans ((recounted_queue w₁ [r] true).sheds (leaves_awaiting w₁ r))
    have hafter : w₂.Sheds [] w₂.idle :=
      (recounted_queue w₂ w₂.pending false).sheds (World.leaves_idle w₂)
    refine ⟨rs, w₂.idle, hrelease, hdrained.sound, ?_, hdrains.spares hhoused hcounted hrooted'⟩
    have hsheds := (hbefore.trans (hdrains.sheds hhoused hcounted)).trans hafter
    rw [List.append_nil] at hsheds
    exact hsheds

/-! ### What was made -/

/-- From `base` on, objects are held by such as were made before them. -/
def Tiered (w : World) (base : Nat) : Prop := ∀ t s, s ∈ w.contents t → base ≤ s → t < s

variable {base : Nat}

/-- Nobody holds what is not there yet. -/
theorem Sound.tiered (h : w.Sound owned) : w.Tiered w.objects.size := fun t s hs hle => by
  obtain ⟨object, hobject⟩ := Option.isSome_iff_exists.1 (h.alive_of_contents hs)
  exact absurd (lt_size_of_object? hobject) (Nat.not_lt.2 hle)

/-- Objects are held by those made before them, also when more are made. -/
theorem Tiered.adds (h : w.Tiered base) (hadds : w.Adds filled refs made w')
    (hnew : ∀ t, t ∈ filled ∨ t ∈ made → ∀ s ∈ w'.contents t, base ≤ s → t < s) :
    w'.Tiered base := by
  intro t s hs
  by_cases ht : t ∈ filled ∨ t ∈ made
  · exact hnew t ht s hs
  · obtain ⟨hfilled, hmade⟩ := not_or.1 ht
    cases hobject : w.object? t with
    | some object =>
      rw [contents, hadds.slots t object hobject hfilled] at hs
      exact h t s hs
    | none =>
      rw [contents_of_none (hadds.absent t hobject hmade)] at hs
      cases hs

/-- What was made is gone when nothing that was there is, and nobody has got a reference
more than before. -/
theorem Adds.withdrawn (h : w.Adds [] refs made reached) (hleaves : reached.Leaves ended w')
    (hsound : w.Sound owned) (hsound' : w'.Sound owned) (htiered : reached.Tiered w.objects.size)
    (hs : s ∈ made) : w'.object? s = none := by
  -- whoever holds it would have been made earlier, and is gone
  induction s using Nat.strong_induction_on with
  | _ s ih =>
    have hfresh := h.fresh hs
    cases hobject : w'.object? s with
    | none => rfl
    | some object =>
      exfalso
      obtain ⟨-, before, hbefore, hle, -⟩ := hleaves.origin hobject
      have hone := h.single s hs
      rw [count?_of_object? hbefore, Option.some.injEq] at hone
      have hlt : object.count < immortalCount :=
        Int.lt_of_le_of_lt hle (by rw [hone]; decide)
      have hexact := hsound'.counted.exact s _ (count?_of_object? hobject) hlt
      have hpos := hsound'.counted.pos (count?_of_object? hobject) hlt
      have hmem : s ∈ owned + w'.held [] := Multiset.count_pos.1 (by omega)
      rcases Multiset.mem_add.1 hmem with hmem | hmem
      · have halive := hsound.alive hmem
        rw [hfresh] at halive
        cases halive
      · obtain ⟨t, -, ht⟩ := mem_held.1 hmem
        have hreached : s ∈ reached.contents t :=
          mem_contents.2 (hleaves.mem_slots (mem_contents.1 ht))
        cases hholder : w.object? t with
        | some holder =>
          rw [contents, h.slots t holder hholder List.not_mem_nil] at hreached
          have halive := hsound.alive_of_contents hreached
          rw [hfresh] at halive
          cases halive
        | none =>
          have hgone : w'.object? t = none := by
            by_cases hmade : t ∈ made
            · exact ih t (htiered t s hreached (h.le_of_mem hs)) hmade
            · exact hleaves.absent t (h.absent t hholder hmade)
          rw [contents_of_none hgone] at ht
          cases ht

/-! ### Refusals -/

/-- There is no storage of so many bytes: a region cannot have so many, or the request
for them is refused. -/
def Lacks (w : World) (size : Nat) : Prop :=
  Size.addressable < size ∨ (w.memory.calloc 1 size).1 = none

/-- An operation came to a world in which there was no storage for what it had to make
next. By then it had taken references, of those in `refs` and in this order, and had
made objects. It gave up references and ended some of the objects that it had made. -/
inductive Refused (w : World) (filled refs : List Ref) (base : Nat) : ApiError → World → Prop
  | intro {reached w' : World} {taken made ended : List Ref} {size : Nat}
      (adds : w.Adds filled taken made reached) (sub : taken.Sublist refs)
      (tiered : reached.Tiered base) (lacks : reached.Lacks size) (sheds : reached.Sheds ended w')
      (spares : ∀ s ∈ ended, w.object? s = none) :
      Refused w filled refs base (.allocationFailed size) w'

variable {e : ApiError} {size : Nat}

/-- A request for storage that is refused ends nothing. -/
theorem sheds_refused {count : Nat} (h : w.Housed)
    (hcalloc : w.memory.calloc count size = (none, m)) : w.Sheds [] (w.withMemory m) := by
  obtain ⟨-, hhands, -⟩ := Memory.calloc_spec h.memory hcalloc
  have hdepart := Memory.sameDepartures_calloc w.memory count size
  rw [hcalloc] at hdepart
  have hslots : ∀ r, (w.withMemory m).slots r = w.slots r := fun s => by
    cases hs : w.object? s with
    | none => rw [slots_of_none hs, slots_of_none (show (w.withMemory m).object? s = _ from hs)]
    | some other =>
      rw [slots_of_object? hs, slots_of_object? (show (w.withMemory m).object? s = _ from hs)]
      exact slotsOf_congr fun a ha => Process.payload_congr (h.same_of_hands hhands hs a ha)
  refine ⟨⟨fun s hs => absurd hs List.not_mem_nil, fun s hs => hs, fun s other hs _ => ?_,
    fun s _ => hslots s⟩, fun _ => rfl, .nil, fun s hs => absurd hs List.not_mem_nil,
    Memory.draws_calloc h.memory hcalloc, ?_⟩
  · exact ⟨other.count, hs, Int.le_refl _, fun _ => rfl⟩
  · rw [List.map_nil, List.append_nil]
    exact hdepart.departures

/-- The first request is refused. -/
theorem refused_calloc (h : w.Housed) (hcalloc : w.memory.calloc 1 size = (none, m))
    (htiered : w.Tiered base) : w.Refused filled refs base (.allocationFailed size)
      (w.withMemory m) :=
  .intro (.refl w filled) (List.nil_sublist refs) htiered (.inr (by rw [hcalloc]))
    (sheds_refused h hcalloc) fun _ hs => absurd hs List.not_mem_nil

/-- Nobody is asked for more than a region can have. -/
theorem refused_large (htiered : w.Tiered base) (hsize : Size.addressable < size) :
    w.Refused filled refs base (.allocationFailed size) w :=
  .intro (.refl w filled) (List.nil_sublist refs) htiered (.inl hsize) (.refl w)
    fun _ hs => absurd hs List.not_mem_nil

/-- What was made before the part that was refused may be given up, too. -/
theorem Refused.after (h : w'.Refused filled' refs' base e w'')
    (hadds : w.Adds filled refs made w') (hrefs : ∀ s ∈ refs', s ∉ made)
    (hfilled : ∀ s ∈ filled', s ∈ filled ∨ w.object? s = none) :
    w.Refused filled (refs ++ refs') base e w'' := by
  cases h with
  | intro adds sub tiered lacks sheds spares =>
    refine .intro (hadds.trans adds (fun s hs => hrefs s (sub.subset hs)) hfilled)
      ((List.Sublist.refl refs).append sub) tiered lacks sheds fun s hs => ?_
    cases hobject : w.object? s with
    | none => rfl
    | some object =>
      have hstays := hadds.stays s object hobject
      rw [spares s hs] at hstays
      cases hstays

/-- A reference is given up that nobody had at the start. -/
theorem Refused.release (h : w.Refused filled refs base e w') (hsound : w.Sound owned)
    (hfilled : ∀ s ∈ filled, w.object? s = none) (hsound' : w'.Sound (r ::ₘ owned)) :
    ∃ w'', World.release r w' = .ok () w'' ∧ w''.Sound owned ∧
      w.Refused filled refs base e w'' := by
  cases h with
  | intro adds sub tiered lacks sheds spares =>
    have hnot : ∀ s, w.object? s = none → ¬ (w.object? s).isSome := fun s hs => by
      rw [hs]
      exact Bool.false_ne_true
    have hrooted := (hsound.rooted.adds adds fun s hs => hnot s (hfilled s hs)).leaves sheds.leaves
      fun s hs => hnot s (spares s hs)
    obtain ⟨ended', w'', hrun, hsound'', hsheds', hspares'⟩ := hsound'.release_sheds hrooted
    refine ⟨w'', hrun, hsound'', .intro adds sub tiered lacks (sheds.trans hsheds') fun s hs => ?_⟩
    rcases List.mem_append.1 hs with hs | hs
    · exact spares s hs
    · exact Option.not_isSome_iff_eq_none.1 (hspares' s hs)

/-- What was refused was refused, also to one who might have filled or taken more. -/
theorem Refused.mono (h : w.Refused filled refs base e w') (hfilled : filled ⊆ filled')
    (hrefs : refs.Sublist refs') : w.Refused filled' refs' base e w' := by
  cases h with
  | intro adds sub tiered lacks sheds spares =>
    exact .intro (adds.mono hfilled) (sub.trans hrefs) tiered lacks sheds spares

/-- An attempt that was to take the references in `refs` and to make something: it did
both, and `P` says what was made, or it was refused. -/
inductive Assembled {α : Type} (w : World) (filled refs : List Ref) (base : Nat)
    (P : α → List Ref → World → Prop) : Except ApiError α → World → Prop
  | made {a : α} {made : List Ref} {w' : World} (adds : w.Adds filled refs made w')
      (tiered : w'.Tiered base) (what : P a made w') : Assembled w filled refs base P (.ok a) w'
  | refused {e : ApiError} {w' : World} (h : w.Refused filled refs base e w') :
      Assembled w filled refs base P (.error e) w'

/-- What is said of the outcome of an attempt may be weakened. -/
theorem Assembled.imp {α : Type} {P Q : α → List Ref → World → Prop} {result : Except ApiError α}
    (h : w.Assembled filled refs base P result w')
    (himp : ∀ a made, P a made w' → Q a made w') : w.Assembled filled refs base Q result w' := by
  cases h with
  | made adds tiered what => exact .made adds tiered (himp _ _ what)
  | refused h => exact .refused h

/-- The only reason to refuse an attempt to make something is that there is no storage. -/
theorem Assembled.error {α : Type} {P : α → List Ref → World → Prop} {result : Except ApiError α}
    (h : w.Assembled filled refs base P result w') (heq : result = .error e) :
    ∃ size, e = .allocationFailed size := by
  subst heq
  cases h with
  | refused h =>
    cases h with
    | intro => exact ⟨_, rfl⟩

/-! ### One object -/

/-- One object was made, with empty slots. It is the last one in the table. -/
structure Newborn (w : World) (type : TypeObject) (body : Body) (r : Ref) (made : List Ref)
    (w' : World) : Prop where
  made : made = [r]
  last : r = w.objects.size
  object : ∃ home, w'.object? r = some (fresh type body home)
  empty : ∀ slot ∈ w'.slots r, slot = none

variable {type : TypeObject} {body : Body} {home : Address} {result : Except ApiError Ref}

/-- An object is made in a block that was handed out for it. -/
theorem assembled_made {event : Event} (h : w.Housed) (htiered : w.Tiered base)
    (hhands : w.memory.process.Hands size (some home) m.process)
    (hdraws : w.memory.Draws [home] m)
    (hdepart : m.process.departures = w.memory.process.departures)
    (hblocks : (World.fresh type body home).blocks = [home]) (hevent : event.released? = none)
    (hempty : ∀ slot ∈ (w.made m type body home).slots w.objects.size, slot = none) :
    w.Assembled [] [] base (Newborn w type body) (.ok w.objects.size)
      ((w.made m type body home).report event) := by
  have hadds := adds_made h hhands hdraws hdepart hblocks hevent []
  refine .made hadds (htiered.adds hadds fun t ht s hs => ?_)
    ⟨rfl, rfl, ⟨home, object?_made_self⟩, hempty⟩
  -- a new object holds nothing
  have hlast : t = w.objects.size := List.mem_singleton.1 (ht.resolve_left List.not_mem_nil)
  have hslot : some s ∈ (w.made m type body home).slots t := mem_contents.1 hs
  rw [hlast] at hslot
  cases hempty _ hslot

/-- Making an object is refused, or leaves one that is new. -/
theorem assembled_allocate (h : w.Housed) (htiered : w.Tiered base) (hmakes : Makes type size body)
    (hrun : (Object.allocate type size body).run w = .ok result w') :
    w.Assembled [] [] base (Newborn w type body) result w' := by
  cases hcalloc : w.memory.calloc 1 size with
  | mk found m =>
    obtain ⟨-, hhands, hzero⟩ := Memory.calloc_spec h.memory hcalloc
    rw [Nat.one_mul] at hhands hzero
    have hdepart := Memory.sameDepartures_calloc w.memory 1 size
    rw [hcalloc] at hdepart
    rw [run_allocate hcalloc] at hrun
    cases found with
    | none =>
      cases hrun
      exact .refused (refused_calloc h hcalloc htiered)
    | some home =>
      cases hrun
      exact assembled_made h htiered hhands (Memory.draws_calloc h.memory hcalloc)
        hdepart.departures hmakes.blocks rfl (slots_made hmakes (hzero home rfl))

end World

end ExtensionHost
