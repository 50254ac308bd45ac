import ExtensionHost.Proofs.Box.Slots

/-!
# `ExtensionHost.Proofs.Object.Recursion`: the queue and plain recursion

A release could be plain recursion: the routine of an object is run as soon as
its count is zero, in the middle of the routine that released it.
`World.Recursively` is that release, made of the same parts as the one with a
queue. The order in which objects go is different, and so is what the counts
are in between. What goes in the end is the same.

The reason is that both end with a world that is counted, and that neither
ends an object that still has a reference. Call a set of objects *swallowing*
when it has every object of which all references stand in its members. A
release ends such a set, since a survivor has a reference that is kept or
stands in a survivor (`swallows_of_leaves`). And it ends no object outside any
such set, since the references of an object that goes stood in objects that
went before it or are about to go (`of_zero`). So both releases end the least
swallowing set, and the counts that they leave are fixed by what is left.
-/

set_option autoImplicit false

namespace ExtensionHost.World

variable {w w₁ w' w'' : World} {r s : Ref} {object : Object} {refs owned extra : Multiset Ref}
  {zeros ended ended' : List Ref}

/-! ### Plain recursion -/

/-- References are released one after the other by plain recursion. An object
that has none left goes at once: its routine reports, releases the occupants
of the slots in the same way, and frees the blocks. -/
inductive Recursively : List Ref → World → World → Prop
  | nil {w : World} : Recursively [] w w
  | kept {w w₁ w' : World} {r : Ref} {rest : List Ref} (hlower : lower r w = .ok false w₁)
      (hrest : Recursively rest w₁ w') : Recursively (r :: rest) w w'
  | last {w w₁ w₂ w₃ w' : World} {r : Ref} {rest : List Ref} {object : Object}
      (hlower : lower r w = .ok true w₁) (hobject : w₁.object? r = some object)
      (hitems : Recursively ((w₁.slotsOf object).filterMap id) (w₁.opened object) w₂)
      (hclosing : closing r object w₂ = .ok () w₃)
      (hrest : Recursively rest w₃ w') : Recursively (r :: rest) w w'

/-- The queue is worked off in the same way whatever a release does that finds
the mark clear, since no release in a routine finds it so. -/
theorem Drains.any_start {start : Host Unit} {rs : List Ref} (h : Drains start w₁ rs w')
    (hhoused : w₁.Housed) (hcounted : w₁.Counted (owned + w₁.held []) w₁.pending)
    (other : Host Unit) : Drains other w₁ rs w' := by
  induction h with
  | done hpending => exact .done hpending
  | next hpending hactive hrun _ ih =>
    obtain ⟨object, w₂, -, hrun', hhoused₂, -, hcounted₂, -⟩ :=
      destroy_next hhoused hcounted hpending hactive
    cases hrun.symm.trans (hrun' start)
    exact .next hpending hactive (hrun' other) (ih hhoused₂ hcounted₂)

/-! ### Swallowing sets -/

/-- The set has every object of which all references stand in its members. -/
def Swallows (w : World) (owned : Multiset Ref) (goes : Ref → Prop) : Prop :=
  ∀ s n, w.count? s = some n → n < immortalCount → s ∉ owned →
    (∀ t, s ∈ w.contents t → goes t) → goes s

/-- The objects that a release ends swallow all that is held by them alone. -/
theorem swallows_of_leaves (hleaves : w.Leaves ended w')
    (hcounted : w'.Counted (owned + w'.held []) []) : w.Swallows owned (· ∈ ended) := by
  intro s n hs hn howned hholders
  by_contra hstays
  obtain ⟨object, hobject, rfl⟩ := count?_eq_some.1 hs
  obtain ⟨count, hobject', hle, -⟩ := hleaves.stays s object hobject hstays
  have hs' : w'.count? s = some count := count?_of_object? hobject'
  have hlt : count < immortalCount := Int.lt_of_le_of_lt hle hn
  have hpos := hcounted.pos hs' hlt
  have hexact := hcounted.exact s count hs' hlt
  have hmem : s ∈ owned + w'.held [] := Multiset.count_pos.1 (by omega)
  -- the reference that is left stands in a survivor, which held it before
  rcases Multiset.mem_add.1 hmem with hmem | hmem
  · exact howned hmem
  · obtain ⟨t, -, ht⟩ := mem_held.1 hmem
    by_cases hended : t ∈ ended
    · rw [contents_of_none (hleaves.gone t hended)] at ht
      cases ht
    · rw [hleaves.contents hended] at ht
      exact hended (hholders t ht)

/-- An object that has lost its references goes with the objects that held
them. -/
theorem Swallows.of_zero {goes : Ref → Prop} (running : List Ref) (h : w.Swallows owned goes)
    (hleaves : w.Leaves ended w₁) (hcounted : w₁.Counted refs zeros)
    (howned : ∀ t ∈ owned, t ∈ refs) (hheld : ∀ t ∈ w₁.held running, t ∈ refs)
    (hended : ∀ t ∈ ended, goes t) (hrunning : ∀ t ∈ running, goes t) :
    ∀ s ∈ zeros, goes s := by
  intro s hs
  have hnone := hcounted.notMem_of_zero hs
  obtain ⟨object₁, hobject₁, hzero⟩ := count?_eq_some.1 ((hcounted.zero s).1 hs)
  obtain ⟨-, object, hobject, -, himm⟩ := hleaves.origin hobject₁
  have hmortal : object.count < immortalCount := by
    by_contra hle
    have hcount : object.isImmortal = true := decide_eq_true (Int.not_lt.1 hle)
    have heq : (0 : Int) = object.count := hzero.symm.trans (himm hcount)
    rw [← heq] at hle
    exact hle (by decide)
  refine h s object.count (count?_of_object? hobject) hmortal (fun hmem => hnone (howned s hmem))
    fun t ht => ?_
  by_cases hte : t ∈ ended
  · exact hended t hte
  · by_cases htr : t ∈ running
    · exact hrunning t htr
    · rw [← hleaves.contents hte] at ht
      exact absurd (hheld s (mem_held.2 ⟨t, htr, ht⟩)) hnone

/-- The queue ends nothing outside a swallowing set. -/
theorem Drains.goes {start : Host Unit} {goes : Ref → Prop} {rs : List Ref}
    (h : Drains start w₁ rs w') (hswallows : w.Swallows owned goes) (hleaves : w.Leaves ended w₁)
    (hended : ∀ t ∈ ended, goes t) (hhoused : w₁.Housed)
    (hcounted : w₁.Counted (owned + w₁.held []) w₁.pending) : ∀ s ∈ rs, goes s := by
  induction h generalizing ended with
  | done => nofun
  | @next w₁ w₂ w' r rest rs hpending hactive hrun _ ih =>
    -- what is first in the queue has no references left, and all that held it goes
    have hgoes : goes r := by
      refine Swallows.of_zero [] hswallows hleaves hcounted
        (fun t ht => Multiset.mem_add.2 (.inl ht)) (fun t ht => Multiset.mem_add.2 (.inr ht))
        hended nofun r ?_
      rw [hpending]
      exact List.mem_cons_self
    obtain ⟨object, w₂', -, hrun', hhoused₂, hleaves₂, hcounted₂, -⟩ :=
      destroy_next hhoused hcounted hpending hactive
    cases hrun.symm.trans (hrun' start)
    have hrest := ih (hleaves.trans hleaves₂) (fun t ht => ?_) hhoused₂ hcounted₂
    · intro s hs
      rcases List.mem_cons.1 hs with rfl | hs
      · exact hgoes
      · exact hrest s hs
    · rcases List.mem_append.1 ht with ht | ht
      · exact hended t ht
      · rw [List.mem_singleton.1 ht]
        exact hgoes

/-! ### What plain recursion leaves -/

/-- What is left when references were released by plain recursion, with the
routines of the objects in `zeros` running: objects of every swallowing set
that these belong to went, and what stays is counted without the references. -/
structure Unwound (w : World) (extra : Multiset Ref) (zeros ended : List Ref) (w' : World) :
    Prop where
  housed : w'.Housed
  counted : w'.Counted (extra + w'.held zeros) zeros
  leaves : w.Leaves ended w'
  apart : ∀ s ∈ ended, s ∉ zeros
  goes : ∀ (start : World) (owned : Multiset Ref) (before : List Ref) (goes : Ref → Prop),
    start.Swallows owned goes → start.Leaves before w → owned ≤ extra →
    (∀ t ∈ before, goes t) → (∀ t ∈ zeros, goes t) → ∀ t ∈ ended, goes t

/-- The slots of an object whose routine starts are the routine's to release,
and those that were released before are no object's. -/
theorem counted_opened {rest : List Ref} (hobject : w.object? r = some object) (hr : r ∉ zeros)
    (hcounted : w.Counted (↑rest + (extra + w.held zeros)) (r :: zeros)) :
    (w.opened object).Counted
      (↑((w.slotsOf object).filterMap id) +
        ((↑rest + extra) + (w.opened object).held (r :: zeros))) (r :: zeros) := by
  have hheld : (w.opened object).held (r :: zeros) = w.held (r :: zeros) :=
    (leaves_opened w object).held_of_nil _
  have hcontents : (w.slotsOf object).filterMap id = w.contents r := by
    rw [contents, slots_of_object? hobject]
  have hrefs : (↑rest : Multiset Ref) + (extra + w.held zeros) =
      ↑(w.contents r) + ((↑rest + extra) + w.held (r :: zeros)) := by
    rw [held_split hr, ← add_assoc, add_left_comm]
  rw [hheld, hcontents, ← hrefs]
  exact hcounted.congr fun _ => rfl

/-- The end of a routine, when the occupants of the slots were released. -/
theorem Unwound.close {w₂ : World} {rest inner : List Ref} (hhoused : w.Housed)
    (hobject : w.object? r = some object) (hcounted : w.Counted refs (r :: zeros))
    (h : (w.opened object).Unwound (↑rest + extra) (r :: zeros) inner w₂) :
    ∃ w₃, closing r object w₂ = .ok () w₃ ∧ w₃.Housed ∧ w₂.Leaves [r] w₃ ∧
      w₃.Counted (↑rest + (extra + w₃.held zeros)) zeros := by
  obtain ⟨-, -, -, hle, -⟩ := object_of_zero hhoused hcounted List.mem_cons_self
  -- the object whose routine runs is still there when its blocks are freed
  have hinner : r ∉ inner := fun hmem => h.apart r hmem List.mem_cons_self
  obtain ⟨count, hobject₂, -, -⟩ :=
    ((leaves_opened w object).of_nil h.leaves).stays r object hobject hinner
  obtain ⟨m, hrun, hsound, hothers, -⟩ := closing_spec h.housed hobject₂
  have hleaves := leaves_without hothers
  refine ⟨(w₂.without r).withMemory m, hrun, h.housed.without hle hsound hothers, hleaves, ?_⟩
  rw [hleaves.held zeros, ← add_assoc]
  exact h.counted.without []

/-- A reference that was not the last is given up first. -/
theorem Unwound.kept (hleaves₁ : w.Leaves [] w₁) (h : w₁.Unwound extra zeros ended w') :
    w.Unwound extra zeros ended w' := by
  refine ⟨h.housed, h.counted, hleaves₁.trans h.leaves, h.apart, ?_⟩
  intro start owned before goes hswallows hleaves
  exact h.goes start owned before goes hswallows (hleaves.then_nil hleaves₁)

/-- The last reference to an object is given up first: the object goes after
those that it held and before those that are released later. -/
theorem Unwound.last {w₂ w₃ : World} {rest inner outer : List Ref} (hleaves₁ : w.Leaves [] w₁)
    (hr : r ∉ zeros) (hcounted₁ : w₁.Counted (↑rest + (extra + w₁.held zeros)) (r :: zeros))
    (hinner : (w₁.opened object).Unwound (↑rest + extra) (r :: zeros) inner w₂)
    (hleaves₃ : w₂.Leaves [r] w₃) (houter : w₃.Unwound extra zeros outer w') :
    w.Unwound extra zeros (inner ++ [r] ++ outer) w' := by
  have hopened := leaves_opened w₁ object
  have hleaves₂ : w.Leaves inner w₂ := (hleaves₁.of_nil hopened).of_nil hinner.leaves
  refine ⟨houter.housed, houter.counted, (hleaves₂.trans hleaves₃).trans houter.leaves, ?_, ?_⟩
  · intro s hs
    simp only [List.mem_append, List.mem_singleton] at hs
    rcases hs with (hs | rfl) | hs
    · exact fun hmem => hinner.apart s hs (List.mem_cons_of_mem r hmem)
    · exact hr
    · exact houter.apart s hs
  · intro start owned before goes hswallows hleaves hle hbefore hzeros
    have hstart₁ := hleaves.then_nil hleaves₁
    have hstart := hstart₁.then_nil hopened
    -- the object goes because nobody is left who refers to it
    have hall : ∀ t ∈ r :: zeros, goes t := by
      refine hswallows.of_zero zeros hstart₁ hcounted₁ (fun t ht => ?_) (fun t ht => ?_)
        hbefore hzeros
      · exact Multiset.mem_add.2 (.inr (Multiset.mem_add.2 (.inl (Multiset.mem_of_le hle ht))))
      · exact Multiset.mem_add.2 (.inr (Multiset.mem_add.2 (.inr ht)))
    -- so what it held goes, and then what is released after it
    have hinner' := hinner.goes start owned before goes hswallows hstart
      (hle.trans (Multiset.le_add_left extra ↑rest)) hbefore hall
    have hbefore' : ∀ t ∈ before ++ inner ++ [r], goes t := by
      intro t ht
      simp only [List.mem_append, List.mem_singleton] at ht
      rcases ht with (ht | ht) | rfl
      · exact hbefore t ht
      · exact hinner' t ht
      · exact hall t List.mem_cons_self
    have houter' := houter.goes start owned _ goes hswallows
      ((hstart.trans hinner.leaves).trans hleaves₃) hle hbefore' hzeros
    intro t ht
    simp only [List.mem_append, List.mem_singleton] at ht
    rcases ht with (ht | rfl) | ht
    · exact hinner' t ht
    · exact hall t List.mem_cons_self
    · exact houter' t ht

/-- By induction on the recursion, the routine that runs and what is released
after it being its two parts. -/
theorem Recursively.unwound {rs : List Ref} (h : Recursively rs w w') (hhoused : w.Housed)
    (hcounted : w.Counted (↑rs + (extra + w.held zeros)) zeros) :
    ∃ ended, w.Unwound extra zeros ended w' := by
  induction h generalizing extra zeros with
  | @nil w =>
    rw [Multiset.coe_nil, zero_add] at hcounted
    exact ⟨[], hhoused, hcounted, .refl w, nofun, fun _ _ _ _ _ _ _ _ _ => nofun⟩
  | @kept w w₁ w' r rest hlower _ ih =>
    rw [← Multiset.cons_coe, Multiset.cons_add] at hcounted
    obtain ⟨last, w₁', hrun, hhoused₁, hleaves₁, -, -, hcounted₁⟩ := lower_spec hhoused hcounted
    rw [hlower] at hrun
    cases hrun
    rw [← hleaves₁.held_of_nil zeros] at hcounted₁
    obtain ⟨ended, hrest⟩ := ih hhoused₁ hcounted₁
    exact ⟨ended, hrest.kept hleaves₁⟩
  | @last w w₁ w₂ w₃ w' r rest object hlower hobject _ hclosing _ ihitems ihrest =>
    rw [← Multiset.cons_coe, Multiset.cons_add] at hcounted
    -- the items are released in a world in which the container is open, and counted like
    -- that
    have hr : r ∉ zeros := fun hmem => hcounted.notMem_of_zero hmem (Multiset.mem_cons_self r _)
    obtain ⟨last, w₁', hrun, hhoused₁, hleaves₁, -, -, hcounted₁⟩ := lower_spec hhoused hcounted
    rw [hlower] at hrun
    cases hrun
    rw [← hleaves₁.held_of_nil zeros] at hcounted₁
    obtain ⟨inner, hinner⟩ :=
      ihitems (hhoused₁.opened object) (counted_opened hobject hr hcounted₁)
    obtain ⟨w₃', hrun₃, hhoused₃, hleaves₃, hcounted₃⟩ := hinner.close hhoused₁ hobject hcounted₁
    rw [hclosing] at hrun₃
    cases hrun₃
    obtain ⟨outer, houter⟩ := ihrest hhoused₃ hcounted₃
    exact ⟨inner ++ [r] ++ outer, .last hleaves₁ hr hcounted₁ hinner hleaves₃ houter⟩

/-! ### Plain recursion comes to an end -/

/-- The objects that have references. -/
def referenced (w : World) : Finset Ref :=
  (Finset.range w.objects.size).filter fun r => 0 < w.count r

/-- The count of an object that is there is a number. -/
theorem count_of_count? {n : Int} (h : w.count? r = some n) : w.count r = n := by
  obtain ⟨object, hobject, rfl⟩ := count?_eq_some.1 h
  rw [count, hobject]

/-- An object is referenced if it is there and its count is positive. -/
theorem mem_referenced : r ∈ w.referenced ↔ ∃ n, w.count? r = some n ∧ 0 < n := by
  rw [referenced, Finset.mem_filter, Finset.mem_range]
  constructor
  · rintro ⟨-, hpos⟩
    cases hr : w.object? r with
    | none =>
      rw [count, hr] at hpos
      exact absurd hpos (Int.lt_irrefl 0)
    | some object =>
      rw [count, hr] at hpos
      exact ⟨object.count, count?_of_object? hr, hpos⟩
  · rintro ⟨n, hn, hpos⟩
    obtain ⟨object, hobject, -⟩ := count?_eq_some.1 hn
    exact ⟨lt_size_of_object? hobject, by rw [count_of_count? hn]; exact hpos⟩

/-- Nothing gets a reference while others are released. -/
theorem Leaves.referenced_subset (h : w.Leaves ended w') : w'.referenced ⊆ w.referenced := by
  intro r hr
  obtain ⟨n, hn, hpos⟩ := mem_referenced.1 hr
  obtain ⟨object', hobject', rfl⟩ := count?_eq_some.1 hn
  obtain ⟨-, object, hobject, hle, -⟩ := h.origin hobject'
  exact mem_referenced.2 ⟨object.count, count?_of_object? hobject, Int.lt_of_lt_of_le hpos hle⟩

/-- Objects that end leave fewer that are referenced. -/
theorem Leaves.card_referenced_le (h : w.Leaves ended w') :
    w'.referenced.card ≤ w.referenced.card := Finset.card_le_card h.referenced_subset

/-- The release of a last reference leaves fewer objects that have any. -/
theorem card_referenced_lt (hleaves : w.Leaves [] w₁) (hone : w.count? r = some 1)
    (hzero : w₁.count? r = some 0) : w₁.referenced.card < w.referenced.card := by
  refine Finset.card_lt_card (Finset.ssubset_iff_subset_ne.2 ⟨hleaves.referenced_subset, ?_⟩)
  intro heq
  have hmem : r ∈ w₁.referenced := by
    rw [heq]
    exact mem_referenced.2 ⟨1, hone, by decide⟩
  obtain ⟨n, hn, hpos⟩ := mem_referenced.1 hmem
  rw [hzero] at hn
  cases hn
  exact absurd hpos (Int.lt_irrefl 0)

/-- The outer induction is on the number of objects that have references,
which goes down with every routine that is run, and the inner one on the
references that are still to be released. -/
theorem exists_recursively (n : Nat) (rs : List Ref) (hhoused : w.Housed)
    (hcounted : w.Counted (↑rs + (extra + w.held zeros)) zeros)
    (hn : w.referenced.card ≤ n) : ∃ w', Recursively rs w w' := by
  induction n using Nat.strong_induction_on generalizing w rs extra zeros with
  | _ n ihn =>
    induction rs generalizing w with
    | nil => exact ⟨w, .nil⟩
    | cons r rest ih =>
      rw [← Multiset.cons_coe, Multiset.cons_add] at hcounted
      have hr : r ∉ zeros := fun hmem => hcounted.notMem_of_zero hmem (Multiset.mem_cons_self r _)
      obtain ⟨last, w₁, hlower, hhoused₁, hleaves₁, -, hlast, hcounted₁⟩ :=
        lower_spec hhoused hcounted
      rw [← hleaves₁.held_of_nil zeros] at hcounted₁
      cases last with
      | false =>
        obtain ⟨w', hrest⟩ := ih hhoused₁ hcounted₁ (hleaves₁.card_referenced_le.trans hn)
        exact ⟨w', .kept hlower hrest⟩
      | true =>
        -- the routine is run in a world in which one object less has references
        obtain ⟨object, hobject, hcount, -, -⟩ :=
          object_of_zero hhoused₁ hcounted₁ List.mem_cons_self
        have hlt : w₁.referenced.card < n :=
          Nat.lt_of_lt_of_le (card_referenced_lt hleaves₁ (hlast.1 rfl)
            ((count?_of_object? hobject).trans (congrArg some hcount))) hn
        have hopened := counted_opened hobject hr hcounted₁
        obtain ⟨w₂, hitems⟩ := ihn _ hlt _ (hhoused₁.opened object) hopened
          (leaves_opened w₁ object).card_referenced_le
        obtain ⟨inner, hinner⟩ := hitems.unwound (hhoused₁.opened object) hopened
        obtain ⟨w₃, hclosing, hhoused₃, hleaves₃, hcounted₃⟩ :=
          hinner.close hhoused₁ hobject hcounted₁
        have hcard : w₃.referenced.card ≤ w₁.referenced.card :=
          (((leaves_opened w₁ object).of_nil hinner.leaves).trans hleaves₃).card_referenced_le
        obtain ⟨w', hrest⟩ := ihn _ hlt rest hhoused₃ hcounted₃ hcard
        exact ⟨w', .last hlower hobject hitems hclosing hrest⟩

/-! ### The same is left -/

/-- The counts that are left are those of the references that are left, so
they depend only on what went. -/
theorem Leaves.unique (h : w.Leaves ended w') (h' : w.Leaves ended' w'')
    (hsame : ∀ s, s ∈ ended ↔ s ∈ ended') (hcounted : w'.Counted (owned + w'.held []) [])
    (hcounted' : w''.Counted (owned + w''.held []) []) (s : Ref) :
    w''.object? s = w'.object? s := by
  have hheld : w''.held [] = w'.held [] := by
    rw [h.held, h'.held, List.append_nil, List.append_nil]
    exact held_congr fun t => by simp only [hsame t]
  rw [hheld] at hcounted'
  cases hobject : w.object? s with
  | none => rw [h.absent s hobject, h'.absent s hobject]
  | some object =>
    by_cases hs : s ∈ ended
    · rw [h.gone s hs, h'.gone s ((hsame s).1 hs)]
    · obtain ⟨n, hn, hle, himm⟩ := h.stays s object hobject hs
      obtain ⟨n', hn', hle', himm'⟩ := h'.stays s object hobject (fun hmem => hs ((hsame s).2 hmem))
      -- an immortal object has the count it had, and a mortal one the number of
      -- references that are left, which is the same in both worlds
      have hcount : n' = n := by
        by_cases hmortal : object.isImmortal = true
        · rw [himm hmortal, himm' hmortal]
        · have hlt : object.count < immortalCount :=
            Int.not_le.1 fun hge => hmortal (decide_eq_true hge)
          rw [hcounted.exact s n (count?_of_object? hn) (Int.lt_of_le_of_lt hle hlt),
            hcounted'.exact s n' (count?_of_object? hn') (Int.lt_of_le_of_lt hle' hlt)]
      rw [hn, hn', hcount]

/-! ### The order in a tree -/

/-- The list `order` has the objects in `roots` and all below them that went,
in right-to-left preorder: a container before its items, and the later of two
items, with all below it, before the earlier one. -/
inductive RightToLeft (w : World) (went : List Ref) : List Ref → List Ref → Prop
  | nil : RightToLeft w went [] []
  | cons {r : Ref} {roots later below : List Ref} (hlater : RightToLeft w went roots later)
      (hbelow : RightToLeft w went ((w.contents r).filter (· ∈ went)) below) :
      RightToLeft w went (r :: roots) (later ++ r :: below)

namespace RightToLeft

variable {went xs ys order order' : List Ref}

/-- Trees that are walked from the right, one after the other, are walked in the
opposite order. -/
theorem append (hx : RightToLeft w went xs order) (hy : RightToLeft w went ys order') :
    RightToLeft w went (xs ++ ys) (order' ++ order) := by
  induction hx with
  | nil =>
    rw [List.append_nil]
    exact hy
  | cons _ hbelow ihlater =>
    rw [← List.append_assoc]
    exact .cons ihlater hbelow

/-- A walk of several trees is a walk of the last ones and then of the first ones. -/
theorem split (h : RightToLeft w went (xs ++ ys) order) :
    ∃ first second, order = second ++ first ∧ RightToLeft w went xs first ∧
      RightToLeft w went ys second := by
  induction xs generalizing order with
  | nil => exact ⟨[], order, (List.append_nil _).symm, .nil, h⟩
  | cons x xs ih =>
    cases h with
    | cons hlater hbelow =>
      obtain ⟨first, second, rfl, hfirst, hsecond⟩ := ih hlater
      exact ⟨_, second, List.append_assoc _ _ _, .cons hfirst hbelow, hsecond⟩

/-- A root whose items that went are listed. -/
theorem root {below : List Ref} (h : RightToLeft w went ((w.contents r).filter (· ∈ went)) below) :
    RightToLeft w went [r] (r :: below) := .cons .nil h

end RightToLeft

/-- An occupant with a single reference stands in one slot, and when the object
that the slot is of is gone nobody refers to it. -/
theorem count_of_single {zeros' : List Ref} (hcounted : w.Counted (owned + w.held []) zeros)
    (hleaves : w.Leaves [r] w') (hcounted' : w'.Counted (owned + w'.held []) zeros')
    (hs : s ∈ w.contents r) (hone : w.count? s = some 1) (hsr : s ≠ r) :
    (w.contents r).count s = 1 ∧ w'.count? s = some 0 := by
  have hpos : 0 < (w.contents r).count s := List.count_pos_iff.2 hs
  have hrefs : (owned + w'.held []).count s + (w.contents r).count s = 1 := by
    have hexact := hcounted.exact s 1 hone (by decide)
    rw [held_split (List.not_mem_nil : r ∉ []), Multiset.count_add, Multiset.count_add,
      Multiset.coe_count] at hexact
    rw [hleaves.held [], List.append_nil, Multiset.count_add]
    omega
  obtain ⟨object, hobject, hobjectone⟩ := count?_eq_some.1 hone
  obtain ⟨n, hn, hle, -⟩ :=
    hleaves.stays s object hobject fun hmem => hsr (List.mem_singleton.1 hmem)
  have hn' : w'.count? s = some n := count?_of_object? hn
  have hzero :=
    hcounted'.exact s n hn' (Int.lt_of_le_of_lt (hle.trans (le_of_eq hobjectone)) (by decide))
  refine ⟨by omega, hn'.trans (congrArg some ?_)⟩
  omega

/-- The occupants of the slots of an object that join the queue are those that
go, when none of these has another reference. -/
theorem last_eq_filter {rest last went : List Ref}
    (hcounted : w.Counted (owned + w.held []) (r :: rest)) (hleaves : w.Leaves [r] w')
    (hcounted' : w'.Counted (owned + w'.held []) (last.reverse ++ rest))
    (hsub : last.Sublist (w.contents r)) (hlast : ∀ s ∈ last, s ∈ went)
    (hone : ∀ s ∈ w.contents r, s ∈ went → w.count? s = some 1) :
    last = (w.contents r).filter (· ∈ went) := by
  have hbusy : ∀ s ∈ r :: rest, w.count? s ≠ some 1 := by
    intro s hs heq
    rw [(hcounted.zero s).1 hs] at heq
    cases heq
  have hsingle : ∀ s ∈ w.contents r, s ∈ went →
      (w.contents r).count s = 1 ∧ w'.count? s = some 0 := by
    intro s hs hwent
    have hcount := hone s hs hwent
    refine count_of_single hcounted hleaves hcounted' hs hcount ?_
    rintro rfl
    exact hbusy s List.mem_cons_self hcount
  have hmem : ∀ s ∈ w.contents r, s ∈ went → s ∈ last := by
    intro s hs hwent
    rcases List.mem_append.1 ((hcounted'.zero s).2 (hsingle s hs hwent).2) with hq | hq
    · exact List.mem_reverse.1 hq
    · exact absurd (hone s hs hwent) (hbusy s (List.mem_cons_of_mem r hq))
  have hsub' : last.Sublist ((w.contents r).filter (· ∈ went)) := by
    have := hsub.filter (· ∈ went)
    rw [List.filter_eq_self.2 fun s hs => decide_eq_true (hlast s hs)] at this
    exact this
  -- the queue cannot have fewer of them, since none of them is there twice
  have hnodup : ((w.contents r).filter (· ∈ went)).Nodup := by
    rw [List.nodup_iff_count_le_one]
    intro s
    by_cases hs : s ∈ (w.contents r).filter (· ∈ went)
    · obtain ⟨hcontents, hwent⟩ := List.mem_filter.1 hs
      exact (List.filter_sublist.count_le s).trans
        (hsingle s hcontents (of_decide_eq_true hwent)).1.le
    · rw [List.count_eq_zero.2 hs]
      exact Nat.zero_le _
  refine hsub'.eq_of_length_le (hnodup.subperm fun s hs => ?_).length_le
  obtain ⟨hcontents, hwent⟩ := List.mem_filter.1 hs
  exact hmem s hcontents (of_decide_eq_true hwent)

/-- Whoever is in the queue goes. -/
theorem Drains.mem_of_pending {start : Host Unit} {rs : List Ref} (h : Drains start w₁ rs w')
    (hhoused : w₁.Housed) (hcounted : w₁.Counted (owned + w₁.held []) w₁.pending) :
    ∀ s ∈ w₁.pending, s ∈ rs := by
  induction h with
  | done hpending =>
    rw [hpending]
    nofun
  | next hpending hactive hrun _ ih =>
    obtain ⟨object, w₂, -, hrun', hhoused₂, -, hcounted₂, ⟨last, -, hpending₂⟩, -⟩ :=
      destroy_next hhoused hcounted hpending hactive
    cases hrun.symm.trans (hrun' start)
    intro s hs
    rw [hpending] at hs
    rcases List.mem_cons.1 hs with rfl | hs
    · exact List.mem_cons_self
    · refine List.mem_cons_of_mem _ (ih hhoused₂ hcounted₂ s ?_)
      rw [hpending₂]
      exact List.mem_append.2 (.inr hs)

/-- An occupant of a slot still has the one reference that it had. -/
theorem Leaves.still_single (hleaves : w.Leaves ended w₁)
    (hcounted : w₁.Counted (owned + w₁.held []) zeros) (hs : s ∈ w₁.contents r)
    (hone : w.count? s = some 1) : w₁.count? s = some 1 := by
  have hrefs : s ∈ owned + w₁.held [] :=
    Multiset.mem_add.2 (.inr (mem_held.2 ⟨r, List.not_mem_nil, hs⟩))
  obtain ⟨n, hn⟩ := Option.isSome_iff_exists.1 (hcounted.alive s hrefs)
  obtain ⟨object₁, hobject₁, rfl⟩ := count?_eq_some.1 hn
  obtain ⟨object, hobject, hobjectone⟩ := count?_eq_some.1 hone
  obtain ⟨-, before, hbefore, hle, -⟩ := hleaves.origin hobject₁
  rw [hobject] at hbefore
  cases hbefore
  have hpos := Multiset.count_pos.2 hrefs
  have hexact := hcounted.exact s object₁.count hn
    (Int.lt_of_le_of_lt (hle.trans (le_of_eq hobjectone)) (by decide))
  -- the reference in the slot is left, and there was no more than that one
  rw [hn]
  exact congrArg some (by omega : object₁.count = 1)

/-- The queue, read from its end, has the roots that are still to be listed.
A routine takes the last root away and puts its items in its place. -/
theorem Drains.rightToLeft {start : Host Unit} {rs went : List Ref}
    (h : Drains start w₁ rs w') (hleaves : w.Leaves ended w₁) (hhoused : w₁.Housed)
    (hcounted : w₁.Counted (owned + w₁.held []) w₁.pending)
    (hwent : ∀ s ∈ rs, s ∈ went) (hone : ∀ s ∈ went, w.count? s = some 1) :
    RightToLeft w went w₁.pending.reverse rs := by
  induction h generalizing ended with
  | done hpending =>
    rw [hpending]
    exact .nil
  | @next w₁ w₂ w' r rest rs hpending hactive hrun h ih =>
    obtain ⟨object, w₂', hobject, hrun', hhoused₂, hleaves₂, hcounted₂, ⟨last, hsub, hpending₂⟩,
      -⟩ := destroy_next hhoused hcounted hpending hactive
    cases hrun.symm.trans (hrun' start)
    have hrs : ∀ s ∈ rs, s ∈ went := fun s hs => hwent s (List.mem_cons_of_mem r hs)
    have hqueue := h.mem_of_pending hhoused₂ hcounted₂
    rw [hpending₂] at hcounted₂ hqueue
    rw [hpending] at hcounted
    have hr : r ∉ ended := (hleaves.origin hobject).1
    -- an item with a single reference is held by nobody but the container
    have hstill : ∀ s ∈ w₁.contents r, s ∈ went → w₁.count? s = some 1 := fun s hs hmem =>
      hleaves.still_single hcounted hs (hone s hmem)
    have hlast := last_eq_filter hcounted hleaves₂ hcounted₂ hsub
      (fun s hs => hrs s (hqueue s (List.mem_append.2 (.inl (List.mem_reverse.2 hs))))) hstill
    rw [hleaves.contents hr] at hlast
    have hrest := ih (hleaves.trans hleaves₂) hhoused₂ (by rw [hpending₂]; exact hcounted₂) hrs
    rw [hpending₂, List.reverse_append, List.reverse_reverse] at hrest
    -- the objects below the last root go before those below the roots to its left
    obtain ⟨later, below, rfl, hlater, hbelow⟩ := hrest.split
    rw [hpending, List.reverse_cons]
    rw [hlast] at hbelow
    exact hlater.append (.root hbelow)

/-! ### A knot and a tree to take apart -/

/-- What a caller does to weave tuples into each other. -/
inductive Weave
  | tuple (items : List Ref)
  | share (r : Ref)
  | put (r index item : Ref)

/-- The world and the references of the caller afterwards, if the caller had the
references it gave up and nothing was refused. -/
def weave : World × Multiset Ref → Weave → Option (World × Multiset Ref)
  | (w, owned), .tuple items =>
    if ↑items ≤ owned then
      match (Box.tupleOf items).run w with
      | .ok (.ok r) w' => some (w', r ::ₘ (owned - ↑items))
      | _ => none
    else none
  | (w, owned), .share r =>
    if (w.object? r).isSome then some (w.retain r, r ::ₘ owned) else none
  | (w, owned), .put r index item =>
    if item ∈ owned then
      match (Box.setTupleItem r index item).run w with
      | .ok (.ok ()) w' => some (w', owned.erase item)
      | _ => none
    else none

/-- Weaving keeps the world in order. -/
theorem sound_weave {owned' : Multiset Ref} {step : Weave} (h : w.Sound owned)
    (hstep : weave (w, owned) step = some (w', owned')) : w'.Sound owned' := by
  cases step with
  | tuple items =>
    simp only [weave] at hstep
    split at hstep
    · next hle =>
      -- the references that go into the tuple are given up by the owner
      rw [← Multiset.add_sub_cancel hle, add_comm] at h
      obtain ⟨result, w₁, hrun, hsound⟩ := Box.accounts_tupleOf items w _ h nofun
      rw [hrun] at hstep
      cases result with
      | error e => cases hstep
      | ok r =>
        cases hstep
        exact hsound
    · cases hstep
  | share r =>
    simp only [weave] at hstep
    split at hstep
    · next halive =>
      cases hstep
      exact h.retain halive
    · cases hstep
  | put r index item =>
    simp only [weave] at hstep
    split at hstep
    · next hmem =>
      rw [← Multiset.cons_erase hmem, ← Multiset.singleton_add] at h
      obtain ⟨result, w₁, hrun, hsound⟩ := Box.accounts_setTupleItem r index item w _ h nofun
      rw [hrun] at hstep
      rw [zero_add] at hsound
      cases result with
      | error e => cases hstep
      | ok u =>
        cases hstep
        exact hsound
    · cases hstep

/-- Weaving several times keeps the world in order. -/
theorem sound_foldlM_weave {owned' : Multiset Ref} {steps : List Weave} (h : w.Sound owned)
    (hsteps : steps.foldlM weave (w, owned) = some (w', owned')) : w'.Sound owned' := by
  induction steps generalizing w owned with
  | nil =>
    cases hsteps
    exact h
  | cons step rest ih =>
    rw [List.foldlM_cons] at hsteps
    obtain ⟨⟨w₁, owned₁⟩, hstep, hrest⟩ := Option.bind_eq_some_iff.1 hsteps
    exact ih (sound_weave h hstep) hrest

/-- Runs at most `n` routines: those that were run, and the world afterwards if
no object waits then. -/
def routines (start : Host Unit) : Nat → World → Option (List Ref × World)
  | 0, w => if w.pending = [] then some ([], w) else none
  | n + 1, w =>
    match w.pending with
    | [] => some ([], w)
    | r :: rest =>
      if w.draining then
        match destroyWith start r { w with pending := rest } with
        | .error _ _ => none
        | .ok () w => (routines start n w).map fun (rs, w) => (r :: rs, w)
      else none

/-- Routines that were run one after the other until nothing waited have drained the queue. -/
theorem drains_of_routines {start : Host Unit} {n : Nat} {rs : List Ref}
    (h : routines start n w = some (rs, w')) : Drains start w rs w' := by
  induction n generalizing w rs with
  | zero =>
    simp only [routines] at h
    split at h
    · next hpending =>
      cases h
      exact .done hpending
    · cases h
  | succ n ih =>
    simp only [routines] at h
    split at h
    · next hpending =>
      cases h
      exact .done hpending
    · next r rest hpending =>
      split at h
      · next hactive =>
        split at h
        · cases h
        · next w₁ hrun =>
          obtain ⟨⟨rs, w'⟩, hrest, hsame⟩ := Option.map_eq_some_iff.1 h
          cases hsame
          exact .next hpending hactive hrun (ih hrest)
      · cases h

/-- The order in which the queue is worked off is determined. -/
theorem Drains.unique {start : Host Unit} {rs rs' : List Ref} (h : Drains start w rs w')
    (h' : Drains start w rs' w'') : rs = rs' ∧ w' = w'' := by
  induction h generalizing rs' with
  | done hpending =>
    cases h' with
    | done _ => exact ⟨rfl, rfl⟩
    | next hpending' => cases hpending.symm.trans hpending'
  | next hpending _ hrun _ ih =>
    cases h' with
    | done hpending' => cases hpending.symm.trans hpending'
    | next hpending' _ hrun' hrest =>
      cases hpending.symm.trans hpending'
      cases hrun.symm.trans hrun'
      obtain ⟨rfl, rfl⟩ := ih hrest
      exact ⟨rfl, rfl⟩

/-- The tuples 3 and 5 hold 4, and both hold 3 as well. The tuple 8 holds 7, 5
and 6, and 6 holds 5 too. The tuple 13 is the root of a tree: it holds 11, which
holds 9 and 10, and 12. The caller has references to 8 and to 13. -/
def knotted : Option (World × Multiset Ref) :=
  [.share 0, .share 0, .tuple [0, 0], .share 3, .put 3 0 3, .tuple [], .share 4, .put 3 1 4,
    .tuple [4, 3], .share 5, .tuple [5], .tuple [], .tuple [7, 5, 6], .tuple [], .tuple [],
    .tuple [9, 10], .tuple [], .tuple [11, 12]].foldlM weave (.new (.bounded 0x1000000) {}, 0)

/-- The objects that go when the last reference to `r` is given up, and the
world afterwards, if at most five routines are run. -/
def lettingGo (r : Ref) (w : World) : Option (List Ref × World) :=
  match lower r w with
  | .ok true w => (routines nested 5 (w.awaiting r)).map fun (rs, w) => (rs, w.idle)
  | _ => none

/-! ### The queue and plain recursion agree -/

/-- A release of the last reference to an object and plain recursion do the
same. With the objects in `rs` going in this order:

* `finished`: the queue is empty and no routine is marked as running;
* `oneByOne`: from the object alone in the queue on, the routines ran one after
  the other, each under the mark that one is running, and let go of what their
  objects held by the same release;
* `noneNested`: no release in any of them found the mark clear, because the run
  does not depend on what such a release would do;
* `once` and `went`: every object that went had its routine run once, and no
  other had;
* `reported`: what was reported is what the routines report, one after the
  other, each beginning with the event of its object;
* `terminates` and `same`: plain recursion comes to an end as well, and leaves
  the same objects with the same counts;
* `preorder`: if the objects that went had a single reference each, they went
  in right-to-left preorder. -/
structure AsRecursion (w : World) (r : Ref) (rs : List Ref) (w' : World) : Prop where
  finished : w'.pending = [] ∧ w'.draining = false
  oneByOne : ∃ w₁ w₂, lower r w = .ok true w₁ ∧ Drains drain (w₁.awaiting r) rs w₂ ∧
    w' = w₂.idle
  noneNested : ∃ w₁ w₂, lower r w = .ok true w₁ ∧
    (∀ start, Drains start (w₁.awaiting r) rs w₂) ∧ w' = w₂.idle
  once : rs.Nodup
  went : ∀ s, s ∈ rs ↔ (w.object? s).isSome ∧ w'.object? s = none
  reported : w'.events = w.events ++ rs.flatMap w.farewell
  terminates : ∃ w'', Recursively [r] w w''
  same : ∀ w'', Recursively [r] w w'' → ∀ s, w''.object? s = w'.object? s
  preorder : (∀ s ∈ rs, w.count? s = some 1) → RightToLeft w rs [r] rs

/-- There is one way in which the objects end, so what the program finds is it. -/
theorem AsRecursion.eq_of_lettingGo {rs rs' : List Ref} (h : w.AsRecursion r rs w')
    (hgo : lettingGo r w = some (rs', w'')) : rs = rs' ∧ w' = w'' := by
  obtain ⟨w₁, w₂, hlower, hdrains, rfl⟩ := h.noneNested
  rw [lettingGo, hlower] at hgo
  obtain ⟨⟨rs', w₂'⟩, hroutines, hsame⟩ := Option.map_eq_some_iff.1 hgo
  cases hsame
  obtain ⟨rfl, rfl⟩ := (hdrains nested).unique (drains_of_routines hroutines)
  exact ⟨rfl, rfl⟩

/-- The objects that the queue ends are those that plain recursion ends: each
release ends a swallowing set, and no object outside one. -/
theorem Unwound.ended_iff {start : Host Unit} {rs : List Ref} {w₂ : World}
    (h : w.Unwound owned [] ended w') (hdrains : Drains start w₁ rs w₂) (hleaves : w.Leaves [] w₁)
    (hhoused : w₁.Housed)
    (hcounted : w₁.Counted (owned + w₁.held []) w₁.pending) :
    ∀ s, s ∈ rs ↔ s ∈ ended := by
  have hdrained := hdrains.drained hhoused hcounted
  have hqueue := swallows_of_leaves (hleaves.of_nil hdrained.leaves) hdrained.counted
  have hrecursion := swallows_of_leaves h.leaves h.counted
  intro s
  constructor
  · exact hdrains.goes hrecursion hleaves nofun hhoused hcounted s
  · exact h.goes w owned [] (· ∈ rs) hqueue (.refl w) le_rfl nofun nofun s

/-- What went is what was there and no longer is. -/
theorem Leaves.mem_iff {ended : List Ref} (h : w.Leaves ended w')
    (halive : ∀ s ∈ ended, ∃ object, w.object? s = some object) (s : Ref) :
    s ∈ ended ↔ (w.object? s).isSome ∧ w'.object? s = none := by
  constructor
  · intro hs
    obtain ⟨object, hobject⟩ := halive s hs
    exact ⟨by rw [hobject]; rfl, h.gone s hs⟩
  · rintro ⟨hsome, hnone⟩
    by_contra hs
    obtain ⟨object, hobject⟩ := Option.isSome_iff_exists.1 hsome
    obtain ⟨count, hstays, -⟩ := h.stays s object hobject hs
    rw [hnone] at hstays
    cases hstays

/-- The queue that starts with an object alone, after its last reference was given up, is
worked off as plain recursion would do it. -/
theorem Drains.asRecursion {rs : List Ref} {w₁ w₂ : World}
    (hdrains : Drains nested (w₁.awaiting r) rs w₂) (h : w.Sound (r ::ₘ owned))
    (hlower : lower r w = .ok true w₁) : w.AsRecursion r rs w₂.idle := by
  obtain ⟨_, _, hlower', -, hleaves₁, ⟨objects, hsame⟩, -, -⟩ :=
    lower_spec h.housed h.counted_cons
  cases hlower.symm.trans hlower'
  obtain ⟨hhoused, hcounted⟩ := h.awaiting hlower
  have hdrained := hdrains.drained hhoused hcounted
  have hleaves : w.Leaves rs w₂.idle := hleaves₁.of_nil hdrained.leaves_idle
  have hstart : w.Leaves [] (w₁.awaiting r) := hleaves₁.of_nil (leaves_awaiting w₁ r)
  have halive : ∀ s ∈ rs, ∃ object, w.object? s = some object := by
    intro s hs
    obtain ⟨_, hobject⟩ := Option.isSome_iff_exists.1 (hdrained.alive s hs)
    obtain ⟨-, object, hbefore, -⟩ := hstart.origin hobject
    exact ⟨object, hbefore⟩
  have hrecursion : w.Counted (↑[r] + (owned + w.held [])) [] := h.counted_cons
  constructor
  case finished => exact ⟨hdrained.pending, rfl⟩
  case oneByOne => exact ⟨w₁, w₂, hlower, hdrains.any_start hhoused hcounted drain, rfl⟩
  case noneNested => exact ⟨w₁, w₂, hlower, hdrains.any_start hhoused hcounted, rfl⟩
  case once => exact hdrained.nodup
  case went => exact hleaves.mem_iff halive
  case reported =>
    have hbefore : (w₁.awaiting r).events = w.events := by
      rw [hsame]
      rfl
    have hfarewell : rs.flatMap (w₁.awaiting r).farewell = rs.flatMap w.farewell := by
      refine List.flatMap_congr fun s hs => ?_
      obtain ⟨object, hobject⟩ := halive s hs
      exact hstart.farewell hobject List.not_mem_nil
    rw [← hbefore, ← hfarewell]
    exact hdrained.events
  case terminates => exact exists_recursively _ [r] h.housed hrecursion le_rfl
  case same =>
    intro w'' hrec s
    obtain ⟨ended, hunwound⟩ := hrec.unwound h.housed hrecursion
    exact hleaves.unique hunwound.leaves (hunwound.ended_iff hdrains hstart hhoused hcounted)
      hdrained.sound.counted hunwound.counted s
  case preorder =>
    intro hsingle
    exact hdrains.rightToLeft hstart hhoused hcounted (fun s hs => hs) hsingle

/-- A reference that is the only one is found to be the last. -/
theorem Sound.lower_last (h : w.Sound (r ::ₘ owned)) (hone : w.count? r = some 1) :
    ∃ w₁, lower r w = .ok true w₁ := by
  obtain ⟨last, w₁, hlower, -, -, -, hlast, -⟩ := lower_spec h.housed h.counted_cons
  obtain rfl : last = true := hlast.2 hone
  exact ⟨w₁, hlower⟩

/-- In a world in which every count is the number of references, the last
reference to an object is given up. The release comes to an end, in a world
that is sound without the reference, and it does what plain recursion does. -/
theorem release_asRecursion (h : w.Sound (r ::ₘ owned)) (hone : w.count? r = some 1) :
    ∃ rs w', World.release r w = .ok () w' ∧ w'.Sound owned ∧ w.AsRecursion r rs w' := by
  -- the reference is the last one, so the object is put into the queue, alone
  obtain ⟨w₁, hlower⟩ := h.lower_last hone
  obtain ⟨rs, w₂, hdrains, hdrained, hrun⟩ := h.release_last hlower
  exact ⟨rs, w₂.idle, hrun, hdrained.sound, hdrains.asRecursion h hlower⟩

/-- When 8 goes, 5 joins the queue behind 7 although it is shared, and goes
before it. The tuples 3 and 4 stay, which only hold each other. When 13 goes, so
does the whole tree, from right to left. -/
theorem release_asRecursion_knotted :
    ∃ w, knotted = some (w, 13 ::ₘ 8 ::ₘ 0) ∧ w.count? 5 = some 2 ∧
      (∃ w', World.release 8 w = .ok () w' ∧ w.AsRecursion 8 [8, 6, 5, 7] w' ∧
        w.count? 3 = some 2 ∧ w'.count? 3 = some 1 ∧ w'.count? 4 = some 1) ∧
      ∃ w', World.release 13 w = .ok () w' ∧ w.AsRecursion 13 [13, 12, 11, 10, 9] w' ∧
        RightToLeft w [13, 12, 11, 10, 9] [13] [13, 12, 11, 10, 9] := by
  obtain ⟨⟨w, owned⟩, hw⟩ : ∃ found, knotted = some found :=
    Option.isSome_iff_exists.1 (by decide +kernel)
  have hread : ∀ {α : Type} (g : World × Multiset Ref → α), knotted.map g = some (g (w, owned)) :=
    fun g => by rw [hw]; rfl
  obtain rfl : owned = 13 ::ₘ 8 ::ₘ 0 :=
    Option.some.inj ((hread (·.2)).symm.trans (by decide +kernel))
  have hsound : w.Sound (13 ::ₘ 8 ::ₘ 0) := sound_foldlM_weave (sound_new _ _) hw
  -- the worlds are too large to be written down, so what is needed of them is computed
  have hcounts : [3, 5, 8, 9, 10, 11, 12, 13].map w.count? =
      [some 2, some 2, some 1, some 1, some 1, some 1, some 1, some 1] :=
    Option.some.inj ((hread fun (w, _) => [3, 5, 8, 9, 10, 11, 12, 13].map w.count?).symm.trans
      (by decide +kernel))
  simp only [List.map_cons, List.map_nil, List.cons.injEq, and_true] at hcounts
  obtain ⟨h₃, h₅, h₈, h₉, h₁₀, h₁₁, h₁₂, h₁₃⟩ := hcounts
  have hknot : (lettingGo 8 w).map (fun found => (found.1, found.2.count? 3, found.2.count? 4)) =
      some ([8, 6, 5, 7], some 1, some 1) :=
    Option.some.inj ((hread fun found => (lettingGo 8 found.1).map fun found =>
      (found.1, found.2.count? 3, found.2.count? 4)).symm.trans (by decide +kernel))
  have htree : (lettingGo 13 w).map (·.1) = some [13, 12, 11, 10, 9] :=
    Option.some.inj ((hread fun found => (lettingGo 13 found.1).map (·.1)).symm.trans
      (by decide +kernel))
  obtain ⟨⟨order, w₁⟩, hgo, hsame⟩ := Option.map_eq_some_iff.1 hknot
  simp only [Prod.mk.injEq] at hsame
  obtain ⟨rfl, hthree, hfour⟩ := hsame
  obtain ⟨⟨order, w₂⟩, hgo', rfl⟩ := Option.map_eq_some_iff.1 htree
  refine ⟨w, hw, h₅, ?_, ?_⟩
  · have hswap : w.Sound (8 ::ₘ 13 ::ₘ 0) := by
      rw [Multiset.cons_swap]
      exact hsound
    obtain ⟨rs, w', hrun, -, hrec⟩ := release_asRecursion hswap h₈
    obtain ⟨rfl, rfl⟩ := hrec.eq_of_lettingGo hgo
    exact ⟨w', hrun, hrec, h₃, hthree, hfour⟩
  · obtain ⟨rs, w', hrun, -, hrec⟩ := release_asRecursion hsound h₁₃
    obtain ⟨rfl, rfl⟩ := hrec.eq_of_lettingGo hgo'
    refine ⟨w', hrun, hrec, hrec.preorder ?_⟩
    simp [h₉, h₁₀, h₁₁, h₁₂, h₁₃]

end ExtensionHost.World
