import ExtensionHost.Proofs.Object.Graph

/-!
# `ExtensionHost.Proofs.Object.Release`: what a released reference brings about

A release takes one reference away, so it starts from a world that is counted
with the reference and ends in one that is counted without it. Everything that
goes on in between is counted too, with the references that a routine has yet
to release beside those that stay: `releaseAllWith_spec` moves references out
of the multiset one at a time, `destroy_spec` moves the slots of an object that
ends, and `drain_spec` is the induction over the queue.

What the objects that stay look like afterwards is said by `World.Leaves`. It
composes, so the steps of a release add up to what the whole release leaves.
-/

set_option autoImplicit false

namespace ExtensionHost.World

variable {w w' w'' : World} {r s : Ref} {object : Object} {refs : Multiset Ref}
  {zeros ended ended' : List Ref}

/-! ### What stays -/

/-- The objects in `ended` are gone. Those that stay are as they were, but for
counts that are lower. -/
structure Leaves (w : World) (ended : List Ref) (w' : World) : Prop where
  gone : ∀ r, r ∈ ended → w'.object? r = none
  absent : ∀ r, w.object? r = none → w'.object? r = none
  stays : ∀ r object, w.object? r = some object → r ∉ ended →
    ∃ count, w'.object? r = some { object with count } ∧ count ≤ object.count ∧
      (object.isImmortal = true → count = object.count)
  slots : ∀ r, r ∉ ended → w'.slots r = w.slots r

/-- Nothing leaves everything. -/
theorem Leaves.refl (w : World) : w.Leaves [] w where
  gone _ h := absurd h List.not_mem_nil
  absent _ h := h
  stays _ object h _ := ⟨object.count, h, Int.le_refl _, fun _ => rfl⟩
  slots _ _ := rfl

/-- What ends in two steps is what ends in the first and then in the second. -/
theorem Leaves.trans (h : w.Leaves ended w') (h' : w'.Leaves ended' w'') :
    w.Leaves (ended ++ ended') w'' where
  gone s hs := by
    rcases List.mem_append.1 hs with hs | hs
    · exact h'.absent s (h.gone s hs)
    · exact h'.gone s hs
  absent s hs := h'.absent s (h.absent s hs)
  stays s object hs hn := by
    obtain ⟨hn, hn'⟩ := not_or.1 (fun hor => hn (List.mem_append.2 hor))
    obtain ⟨count, hs', hle, himm⟩ := h.stays s object hs hn
    obtain ⟨count', hs'', hle', himm'⟩ := h'.stays s _ hs' hn'
    refine ⟨count', hs'', Int.le_trans hle' hle, fun hi => ?_⟩
    have hcount := himm hi
    rw [himm' (by rw [← hi, hcount]), hcount]
  slots s hs := by
    obtain ⟨hn, hn'⟩ := not_or.1 (fun hor => hs (List.mem_append.2 hor))
    rw [h'.slots s hn', h.slots s hn]

/-- Steps that end nothing may be left out. -/
theorem Leaves.of_nil (h : w.Leaves [] w') (h' : w'.Leaves ended w'') : w.Leaves ended w'' :=
  h.trans h'

/-- If nothing ends afterwards, the same has ended. -/
theorem Leaves.then_nil (h : w.Leaves ended w') (h' : w'.Leaves [] w'') : w.Leaves ended w'' := by
  have := h.trans h'
  rw [List.append_nil] at this
  exact this

/-- An object that is there afterwards was there before, and had no fewer
references. -/
theorem Leaves.origin (h : w.Leaves ended w') (hobject : w'.object? r = some object) :
    r ∉ ended ∧ ∃ before, w.object? r = some before ∧ object.count ≤ before.count ∧
      (before.isImmortal = true → object.count = before.count) := by
  have hstays : r ∉ ended := by
    intro hmem
    rw [h.gone r hmem] at hobject
    cases hobject
  cases hbefore : w.object? r with
  | none =>
    rw [h.absent r hbefore] at hobject
    cases hobject
  | some before =>
    obtain ⟨count, hobject', hle, himm⟩ := h.stays r before hbefore hstays
    rw [hobject] at hobject'
    cases hobject'
    exact ⟨hstays, before, rfl, hle, himm⟩

/-- An object that did not end holds what it held. -/
theorem Leaves.contents (h : w.Leaves ended w') (hr : r ∉ ended) :
    w'.contents r = w.contents r := by
  rw [World.contents, World.contents, h.slots r hr]

/-- Slots that stay are what they were. -/
theorem Leaves.mem_slots (h : w.Leaves ended w') (hs : some s ∈ w'.slots r) :
    some s ∈ w.slots r := by
  by_cases hr : r ∈ ended
  · rw [slots_of_none (h.gone r hr)] at hs
    cases hs
  · rwa [h.slots r hr] at hs

/-- The slots that are left are those of the objects that did not end. -/
theorem Leaves.held (h : w.Leaves ended w') (others : List Ref) :
    w'.held others = w.held (ended ++ others) := by
  refine held_congr fun s => ?_
  by_cases hs : s ∈ ended
  · rw [if_pos (List.mem_append.2 (.inl hs)), contents_of_none (h.gone s hs), ite_self]
  · rw [h.contents hs]
    simp only [List.mem_append, hs, false_or]

/-- If nothing ended, objects hold what they held. -/
theorem Leaves.held_of_nil (h : w.Leaves [] w') (others : List Ref) :
    w'.held others = w.held others := h.held others

/-! ### One reference -/

/-- A count that is lowered ends no object. -/
theorem leaves_lowered (hobject : w.object? r = some object)
    (hmortal : object.isImmortal = false) :
    w.Leaves [] (w.modify r fun object => { object with count := object.count - 1 }) where
  gone _ h := absurd h List.not_mem_nil
  absent s hs := by rw [object?_setCount, hs, Option.map_none, ite_self]
  stays s other hs _ := by
    by_cases hrs : r = s
    · subst hrs
      rw [hobject] at hs
      cases hs
      refine ⟨object.count - 1, ?_, by omega, fun himm => ?_⟩
      · rw [object?_setCount, if_pos rfl, hobject, Option.map_some]
      · rw [hmortal] at himm
        cases himm
    · refine ⟨other.count, ?_, Int.le_refl _, fun _ => rfl⟩
      rw [object?_setCount, if_neg hrs, hs]
  slots s _ := by
    rw [World.slots, World.slots, object?_setCount]
    by_cases hrs : r = s
    · rw [if_pos hrs]
      cases w.object? s <;> rfl
    · rw [if_neg hrs]
      rfl

/-- The references to an immortal object are not counted. -/
theorem Counted.of_immortal (h : w.Counted (r ::ₘ refs) zeros) {n : Int} (hn : w.count? r = some n)
    (hle : immortalCount ≤ n) : w.Counted refs zeros where
  alive s hs := h.alive s (Multiset.mem_cons_of_mem hs)
  exact s m hs hm := by
    have hsr : s ≠ r := by
      rintro rfl
      rw [hn] at hs
      obtain rfl : n = m := Option.some.inj hs
      omega
    rw [h.exact s m hs hm, Multiset.count_cons_of_ne hsr]
  zero := h.zero
  nodup := h.nodup

/-- A count that goes down with the reference. -/
theorem Counted.lowered (h : w.Counted (r ::ₘ refs) zeros) {n : Int} (hn : w.count? r = some n)
    (hlt : n < immortalCount) :
    (w.modify r fun object => { object with count := object.count - 1 }).Counted refs
      (if n = 1 then r :: zeros else zeros) := by
  have hexact := h.exact r n hn hlt
  rw [Multiset.count_cons_self] at hexact
  have hzero : r ∉ zeros := fun hmem => h.notMem_of_zero hmem (Multiset.mem_cons_self r refs)
  refine ⟨fun s hs => ?_, fun s m hs hm => ?_, fun s => ?_, ?_⟩
  -- who was referred to is still there
  · have hsome := h.alive s (Multiset.mem_cons_of_mem hs)
    rw [count?_modify w r s (· - 1)]
    split
    · rw [Option.isSome_map]
      exact hsome
    · exact hsome
  -- the count and the number of references have both gone down by one
  · rw [count?_modify w r s (· - 1)] at hs
    by_cases hrs : r = s
    · subst hrs
      rw [if_pos rfl, hn] at hs
      obtain rfl : n - 1 = m := Option.some.inj hs
      omega
    · rw [if_neg hrs] at hs
      rw [h.exact s m hs hm, Multiset.count_cons_of_ne (Ne.symm hrs)]
  -- only a count of one becomes zero
  · rw [count?_modify w r s (· - 1)]
    by_cases hrs : r = s
    · subst hrs
      rw [if_pos rfl, hn, Option.map_some, Option.some.injEq]
      by_cases hone : n = 1
      · simp [hone]
      · simp only [if_neg hone, hzero, false_iff]
        omega
    · have hmem : s ∈ (if n = 1 then r :: zeros else zeros) ↔ s ∈ zeros := by
        split
        · simp [Ne.symm hrs]
        · rfl
      rw [if_neg hrs, hmem, h.zero]
  · split
    · exact List.nodup_cons.2 ⟨hzero, h.nodup⟩
    · exact h.nodup

/-- Taking a reference away never fails, and it leaves the object without
references exactly when it was the last one. -/
theorem lower_spec (hhoused : w.Housed) (hcounted : w.Counted (r ::ₘ refs) zeros) :
    ∃ last w', lower r w = .ok last w' ∧ w'.Housed ∧ w.Leaves [] w' ∧
      (∃ objects, w' = { w with objects }) ∧ (last = true ↔ w.count? r = some 1) ∧
      w'.Counted refs (if last then r :: zeros else zeros) := by
  obtain ⟨n, hn⟩ := Option.isSome_iff_exists.1 (hcounted.alive r (Multiset.mem_cons_self r refs))
  obtain ⟨object, hobject, rfl⟩ := count?_eq_some.1 hn
  cases himm : object.isImmortal with
  | true =>
    have hle : immortalCount ≤ object.count := of_decide_eq_true himm
    have hone : w.count? r ≠ some 1 := by
      intro hone
      rw [hn, Option.some.injEq] at hone
      rw [hone] at hle
      exact absurd hle (by decide)
    refine ⟨false, w, ?_, hhoused, .refl w, ⟨_, rfl⟩, by simp [hone],
      hcounted.of_immortal hn hle⟩
    simp only [lower, hobject, himm, if_true]
  | false =>
    have hlt : object.count < immortalCount := Int.lt_of_not_ge (of_decide_eq_false himm)
    -- a mortal count is the number of references, and there is one at least
    have hpos := hcounted.exact r _ hn hlt
    rw [Multiset.count_cons_self] at hpos
    refine ⟨decide (object.count = 1), _, ?_,
      hhoused.setCount (hhoused.le_of_mortal hobject himm) _,
      leaves_lowered hobject himm, ⟨_, rfl⟩, by rw [hn]; simp, ?_⟩
    · simp only [lower, hobject, himm, Bool.false_eq_true, if_false]
      rw [if_neg (by omega)]
    · simpa only [decide_eq_true_eq] using hcounted.lowered hn hlt

/-! ### The references of one object -/

/-- A reference that is released while a routine is running: an object that
has none left joins the queue, whatever `start` is. -/
theorem releaseWith_spec (hhoused : w.Housed) (hcounted : w.Counted (r ::ₘ refs) zeros)
    (hactive : w.draining = true) :
    ∃ w', (∀ start, releaseWith start r w = .ok () w') ∧ w'.Housed ∧ w.Leaves [] w' ∧
      w' = { w with objects := w'.objects, pending := w'.pending } ∧
      ∃ last : Bool, w'.pending = (if last then [r] else []) ++ w.pending ∧
        w'.Counted refs ((if last then [r] else []) ++ zeros) := by
  obtain ⟨last, w₁, hrun, hhoused₁, hleaves, ⟨objects, rfl⟩, -, hcounted₁⟩ :=
    lower_spec hhoused hcounted
  cases last with
  | false =>
    refine ⟨_, fun start => ?_, hhoused₁, hleaves, rfl, false, rfl, hcounted₁⟩
    rw [releaseWith, hrun]
  | true =>
    refine ⟨{ w with objects, pending := r :: w.pending }, fun start => ?_, ?_, ?_, rfl, true,
      rfl, ?_⟩
    · simp only [releaseWith, hrun, hactive, if_true]
    · exact hhoused₁.of_memory rfl hhoused₁.memory fun _ _ _ _ _ => rfl
    · exact ⟨hleaves.gone, hleaves.absent, hleaves.stays, hleaves.slots⟩
    · exact hcounted₁.congr fun _ => rfl

/-- References that are released one after the other while a routine is
running. The objects that have none left join the queue as they are met, so
the last of them is taken first. -/
theorem releaseAllWith_spec (rs : List Ref) (hhoused : w.Housed)
    (hcounted : w.Counted (↑rs + refs) zeros) (hactive : w.draining = true) :
    ∃ w', (∀ start, releaseAllWith start rs w = .ok () w') ∧ w'.Housed ∧ w.Leaves [] w' ∧
      w' = { w with objects := w'.objects, pending := w'.pending } ∧
      ∃ last : List Ref, last.Sublist rs ∧ w'.pending = last.reverse ++ w.pending ∧
        w'.Counted refs (last.reverse ++ zeros) := by
  induction rs generalizing w zeros with
  | nil =>
    rw [Multiset.coe_nil, zero_add] at hcounted
    exact ⟨w, fun _ => rfl, hhoused, .refl w, rfl, [], .slnil, rfl, hcounted⟩
  | cons r rest ih =>
    rw [← Multiset.cons_coe, Multiset.cons_add] at hcounted
    obtain ⟨w₁, hrun, hhoused₁, hleaves₁, hsame₁, last, hpending₁, hcounted₁⟩ :=
      releaseWith_spec hhoused hcounted hactive
    -- the mark stays set from one release to the next
    have hactive₁ : w₁.draining = true := by
      rw [hsame₁]
      exact hactive
    obtain ⟨w₂, hrun₂, hhoused₂, hleaves₂, hsame₂, lasts, hsub, hpending₂, hcounted₂⟩ :=
      ih hhoused₁ hcounted₁ hactive₁
    refine ⟨w₂, fun start => ?_, hhoused₂, hleaves₁.trans hleaves₂, ?_,
      (if last then [r] else []) ++ lasts, ?_, ?_, ?_⟩
    · simp only [releaseAllWith, hrun start]
      exact hrun₂ start
    · rw [hsame₂, hsame₁]
    · cases last with
      | false => exact hsub.cons r
      | true => exact hsub.cons_cons r
    · rw [hpending₂, hpending₁]
      cases last <;> simp
    · cases last <;> simpa using hcounted₂

/-! ### The storage of one object -/

/-- The events so far. -/
def events (w : World) : List Event := w.memory.process.events.toList

/-- Freeing a block in use leaves the others as they are. -/
theorem freeBlock_spec (home : Option Address) (hmemory : w.memory.Sound)
    (hlive : ∀ a, home = some a → w.memory.process.Live a) :
    ∃ m, freeBlock home w = .ok () (w.withMemory m) ∧ m.Sound ∧
      (∀ b, home ≠ some b → m.process.blocks[b]? = w.memory.process.blocks[b]?) ∧
      m.process.events.toList = w.events ++ home.toList.map fun _ => Event.blockFreed := by
  cases home with
  | none => exact ⟨w.memory, rfl, hmemory, fun _ _ => rfl, (List.append_nil _).symm⟩
  | some a =>
    obtain ⟨m, hrun, hsound, hfrees, hevents⟩ := Memory.free_spec hmemory (hlive a rfl)
    refine ⟨m, ?_, hsound, fun b hb => hfrees.others b fun heq => hb (by rw [heq]), ?_⟩
    · simp only [freeBlock, Host.runMemory, hrun]
      rfl
    · rw [hevents, Array.toList_push]
      rfl

/-- The last part of a routine: the blocks of the object are freed, and it is
gone. -/
def closing (r : Ref) (object : Object) : Host Unit := fun w =>
  match freeBlock object.buffer w with
  | .error fault w => .error fault w
  | .ok () w => discard r object.home w

/-- An object ends and its blocks change, but no block of another. -/
theorem leaves_without {m : Memory}
    (hsame : ∀ s other, s ≠ r → w.object? s = some other → ∀ a ∈ other.blocks,
      m.process.blocks[a]? = w.memory.process.blocks[a]?) :
    w.Leaves [r] ((w.without r).withMemory m) := by
  have hlookup : ∀ s, ((w.without r).withMemory m).object? s =
      if r = s then none else w.object? s :=
    object?_without w r
  have hne : ∀ s, s ∉ [r] → r ≠ s := fun s hs heq => hs (List.mem_singleton.2 heq.symm)
  refine ⟨fun s hs => ?_, fun s hs => ?_, fun s other hs hn => ?_, fun s hs => ?_⟩
  · rw [hlookup, if_pos (List.mem_singleton.1 hs).symm]
  · rw [hlookup, hs, ite_self]
  · exact ⟨other.count, by rw [hlookup, if_neg (hne s hn), hs], Int.le_refl _, fun _ => rfl⟩
  · have hs' := (hlookup s).trans (if_neg (hne s hs))
    cases hother : w.object? s with
    | none => rw [slots_of_none hother, slots_of_none (hs'.trans hother)]
    | some other =>
      rw [slots_of_object? hother, slots_of_object? (hs'.trans hother)]
      exact slotsOf_congr fun a ha =>
        Process.payload_congr (hsame s other (hne s hs).symm hother a ha)

/-- An object and its blocks can be taken away without the others losing theirs. -/
theorem Housed.without {m : Memory} (h : w.Housed) (hr : 3 ≤ r) (hmemory : m.Sound)
    (hsame : ∀ s other, s ≠ r → w.object? s = some other → ∀ a ∈ other.blocks,
      m.process.blocks[a]? = w.memory.process.blocks[a]?) :
    ((w.without r).withMemory m).Housed := by
  refine h.change (r := r) hmemory (fun s hs => first_modify hr hs _) (fun s hs => ?_) hsame
    fun object hnew => ?_
  · exact (object?_without w r s).trans (if_neg (Ne.symm hs))
  · have hnone := (object?_without w r r).trans (if_pos rfl)
    exact absurd (hnew.symm.trans hnone) nofun

/-- The blocks of an object that ends can be freed. -/
theorem closing_spec (hhoused : w.Housed) (hobject : w.object? r = some object) :
    ∃ m, closing r object w = .ok () ((w.without r).withMemory m) ∧ m.Sound ∧
      (∀ s other, s ≠ r → w.object? s = some other → ∀ a ∈ other.blocks,
        m.process.blocks[a]? = w.memory.process.blocks[a]?) ∧
      m.process.events.toList = w.events ++ object.blocks.map fun _ => Event.blockFreed := by
  have hin := hhoused.housed r object hobject
  have hbuffer : ∀ a, object.buffer = some a → w.memory.process.Live a := fun a ha =>
    hin.live a (Object.mem_blocks.2 (.inl ha))
  obtain ⟨m, hrun, hsound, hothers, hevents⟩ := freeBlock_spec object.buffer hhoused.memory hbuffer
  -- the buffer is not the block that the object lies in, so that one is still in use
  have hhome : ∀ a, object.home = some a → m.process.Live a := by
    intro a ha
    have hne : object.buffer ≠ some a := by
      intro hb
      have hnodup := hin.nodup
      rw [Object.blocks, hb, ha] at hnodup
      simp at hnodup
    exact (Process.live_congr (hothers a hne)).2 (hin.live a (Object.mem_blocks.2 (.inr ha)))
  obtain ⟨m', hrun', hsound', hothers', hevents'⟩ :=
    freeBlock_spec (w := (w.without r).withMemory m) object.home hsound hhome
  refine ⟨m', ?_, hsound', fun s other hs hother a ha => ?_, ?_⟩
  · simp only [closing, hrun]
    exact hrun'
  · have hmem : a ∉ object.blocks := fun hmem =>
      hs (hhoused.apart s r other object hother hobject a ha hmem)
    have hhome' : object.home ≠ some a := fun h => hmem (Object.mem_blocks.2 (.inr h))
    have hbuffer' : object.buffer ≠ some a := fun h => hmem (Object.mem_blocks.2 (.inl h))
    exact (hothers' a hhome').trans (hothers a hbuffer')
  · rw [hevents']
    show m.process.events.toList ++ _ = _
    rw [hevents, Object.blocks, List.map_append, List.append_assoc]

/-! ### One routine -/

/-- The capacity that a list records. -/
def capacityOf (object : Object) : Nat :=
  match object.body with
  | .list _ capacity _ => capacity
  | _ => 0

/-- What a routine reports before it releases anything: that the object
goes, and for a container how long it is. -/
def openingEvents (w : World) (object : Object) : List Event :=
  .objectReleased object.type.name :: match object.type.routine with
    | .tuple => [.tupleReleased (w.slotsOf object).length]
    | .list => [.listReleased (w.slotsOf object).length (capacityOf object)]
    | _ => []

/-- All that a routine reports. -/
def routineEvents (w : World) (object : Object) : List Event :=
  w.openingEvents object ++ object.blocks.map fun _ => .blockFreed

/-- The labels reported when an object goes. -/
def labelsOf (object : Object) : Array Int :=
  match object.type.routine, object.body with
  | .reporting, .labelled label => #[label]
  | _, _ => #[]

/-- The first part of a routine: what it reports. -/
def opened (w : World) (object : Object) : World :=
  w.noticing (w.memory.process.events ++ (w.openingEvents object).toArray)
    (w.reports ++ labelsOf object)

/-- A routine that reports its object leaves the objects. -/
theorem leaves_opened (w : World) (object : Object) : w.Leaves [] (w.opened object) :=
  have h := Leaves.refl w
  ⟨h.gone, h.absent, h.stays, h.slots⟩

/-- After the reports of a routine, every object still has its blocks to itself. -/
theorem Housed.opened (h : w.Housed) (object : Object) : (w.opened object).Housed :=
  h.noticing _ _

/-- A routine reports what it has to say before it does anything. -/
theorem events_opened (w : World) (object : Object) :
    (w.opened object).events = w.events ++ w.openingEvents object := by
  show (w.memory.process.events ++ (w.openingEvents object).toArray).toList = _
  rw [Array.toList_append, List.toList_toArray, events]

/-- Only containers have slots. -/
theorem slotsOf_eq_nil (htuple : object.type.routine ≠ .tuple)
    (hlist : object.type.routine ≠ .list) (hfits : object.Fits) (w : World) :
    w.slotsOf object = [] := by
  have htable : w.slotTable object = (0, .blank, 0) := by
    unfold slotTable
    cases hbody : object.body with
    | tuple length => exact absurd (hfits.tuple length hbody) htuple
    | list length capacity buffer => exact absurd (hfits.list length capacity buffer hbody) hlist
    | _ => rfl
  rw [slotsOf, htable]
  rfl

/-- Only an object of the type of lists has a buffer. -/
theorem buffer_eq_none (hlist : object.type.routine ≠ .list) (hfits : object.Fits) :
    object.buffer = none := by
  unfold Object.buffer
  cases hbody : object.body with
  | list length capacity buffer => exact absurd (hfits.list length capacity buffer hbody) hlist
  | _ => rfl

/-- Two entries are added one after the other. -/
theorem append_pair {α : Type} (xs : Array α) (x y : α) :
    xs ++ [x, y].toArray = (xs.push x).push y := by
  apply Array.ext'
  simp

/-- A routine reports, releases what the object holds, and frees its
blocks. -/
theorem destroyWith_eq (start : Host Unit) (hobject : w.object? r = some object)
    (hfits : object.Fits) :
    destroyWith start r w =
      match releaseAllWith start ((w.slotsOf object).filterMap id) (w.opened object) with
      | .error fault w => .error fault w
      | .ok () w => closing r object w := by
  cases hroutine : object.type.routine with
  | forbidden => exact absurd hroutine hfits.mayGo
  -- an object that is no container has nothing to release and no buffer to free
  | plain =>
    have hopened : w.opened object = w.report (.objectReleased object.type.name) := by
      simp [opened, openingEvents, labelsOf, hroutine, noticing, report, Memory.report,
        Process.report]
    have hslots := slotsOf_eq_nil (by simp [hroutine]) (by simp [hroutine]) hfits w
    have hbuffer := buffer_eq_none (by simp [hroutine]) hfits
    simp only [destroyWith, hobject, hroutine, hopened, hslots, List.filterMap_nil,
      releaseAllWith, closing, hbuffer, freeBlock]
  | reporting =>
    have hslots := slotsOf_eq_nil (by simp [hroutine]) (by simp [hroutine]) hfits w
    have hbuffer := buffer_eq_none (by simp [hroutine]) hfits
    simp only [destroyWith, hobject, hroutine, hslots, List.filterMap_nil, releaseAllWith,
      closing, hbuffer, freeBlock]
    congr 1
    cases hbody : object.body <;>
      simp [opened, openingEvents, labelsOf, hroutine, hbody, noticing, report, Memory.report,
        Process.report]
  -- a tuple has its slots in the block that it lies in
  | tuple =>
    have hopened : w.opened object =
        (w.report (.objectReleased object.type.name)).report
          (.tupleReleased (w.slotsOf object).length) := by
      simp only [opened, openingEvents, labelsOf, hroutine, append_pair, Array.append_empty,
        report, Memory.report, Process.report, noticing]
    have hbuffer := buffer_eq_none (by simp [hroutine]) hfits
    simp only [destroyWith, hobject, hroutine, hopened, closing, hbuffer, freeBlock]
    rfl
  | list =>
    have hopened : w.opened object =
        (w.report (.objectReleased object.type.name)).report
          (.listReleased (w.slotsOf object).length (capacityOf object)) := by
      simp only [opened, openingEvents, labelsOf, hroutine, append_pair, Array.append_empty,
        report, Memory.report, Process.report, noticing]
    simp only [destroyWith, hobject, hroutine, hopened, closing]
    rw [Object.buffer, capacityOf]
    cases object.body <;> rfl

/-- An object without references may end. -/
theorem Counted.without (xs : List Ref) {ys : List Ref} (h : w.Counted refs (xs ++ r :: ys))
    {m : Memory} :
    ((w.without r).withMemory m).Counted refs (xs ++ ys) := by
  have hlookup : ∀ s, ((w.without r).withMemory m).count? s =
      if r = s then none else w.count? s := by
    intro s
    rw [count?, show ((w.without r).withMemory m).object? s = _ from object?_without w r s]
    split
    · rfl
    · rfl
  have hr : r ∈ xs ++ r :: ys := List.mem_append.2 (.inr List.mem_cons_self)
  obtain ⟨hxs, hys, happart⟩ := List.nodup_append.1 h.nodup
  obtain ⟨hr', hys'⟩ := List.nodup_cons.1 hys
  have hrxs : r ∉ xs := fun hmem => happart r hmem r List.mem_cons_self rfl
  refine ⟨fun s hs => ?_, fun s n hs hn => ?_, fun s => ?_, ?_⟩
  -- nobody refers to the object, as its count is zero
  · have hrs : r ≠ s := fun heq => h.notMem_of_zero hr (heq ▸ hs)
    rw [hlookup, if_neg hrs]
    exact h.alive s hs
  · rw [hlookup] at hs
    split at hs
    · cases hs
    · exact h.exact s n hs hn
  · rw [hlookup]
    by_cases hrs : r = s
    · subst hrs
      simp [hrxs, hr']
    · rw [if_neg hrs, ← h.zero]
      simp [Ne.symm hrs]
  · exact List.nodup_append.2 ⟨hxs, hys', fun s hs t ht =>
      happart s hs t (List.mem_cons_of_mem _ ht)⟩

/-- The object of a name in the queue. -/
theorem object_of_zero (hhoused : w.Housed) (hcounted : w.Counted refs zeros) (hr : r ∈ zeros) :
    ∃ object, w.object? r = some object ∧ object.count = 0 ∧ 3 ≤ r ∧ object.Fits := by
  obtain ⟨object, hobject, hcount⟩ := count?_eq_some.1 ((hcounted.zero r).1 hr)
  have hmortal : object.isImmortal = false := decide_eq_false (by rw [hcount]; decide)
  have hle := hhoused.le_of_mortal hobject hmortal
  exact ⟨object, hobject, hcount, hle, hhoused.fits r object hobject hle⟩

variable {owned : Multiset Ref}

/-- A routine that runs under its mark ends its object and nothing else. The
occupants of its slots that have no reference left join the queue. No release
in it finds the mark clear, so `start` makes no difference. -/
theorem destroy_spec (hhoused : w.Housed)
    (hcounted : w.Counted (owned + w.held []) (r :: w.pending)) (hactive : w.draining = true) :
    ∃ object w', w.object? r = some object ∧ (∀ start, destroyWith start r w = .ok () w') ∧
      w'.Housed ∧
      w.Leaves [r] w' ∧ w'.Counted (owned + w'.held []) w'.pending ∧
      (∃ last : List Ref, last.Sublist (w.contents r) ∧
        w'.pending = last.reverse ++ w.pending) ∧
      w'.draining = w.draining ∧ w'.events = w.events ++ w.routineEvents object := by
  obtain ⟨object, hobject, -, hle, hfits⟩ := object_of_zero hhoused hcounted List.mem_cons_self
  have hcontents : (w.slotsOf object).filterMap id = w.contents r := by
    rw [contents, slots_of_object? hobject]
  -- the references in the slots of the object are now the routine's to release
  have hopened : (w.opened object).Counted (↑(w.contents r) + (owned + w.held [r]))
      (r :: w.pending) := by
    rw [held_split (List.not_mem_nil : r ∉ []), add_left_comm] at hcounted
    exact hcounted.congr fun _ => rfl
  obtain ⟨w₁, hrun, hhoused₁, hleaves₁, hsame₁, last, hsub, hpending₁, hcounted₁⟩ :=
    releaseAllWith_spec (w.contents r) (hhoused.opened object) hopened hactive
  obtain ⟨count, hobject₁, -, -⟩ := hleaves₁.stays r object hobject List.not_mem_nil
  obtain ⟨m, hclosing, hsound, hothers, hevents⟩ := closing_spec hhoused₁ hobject₁
  have hleaves : w.Leaves [] w₁ := (leaves_opened w object).trans hleaves₁
  have hleaves₂ := leaves_without hothers
  refine ⟨object, (w₁.without r).withMemory m, hobject, fun start => ?_,
    hhoused₁.without hle hsound hothers, hleaves.trans hleaves₂, ?_, ⟨last, hsub, ?_⟩, ?_, ?_⟩
  · rw [destroyWith_eq start hobject hfits, hcontents, hrun start]
    exact hclosing
  · have hheld : ((w₁.without r).withMemory m).held [] = w.held [r] :=
      (hleaves.trans hleaves₂).held []
    rw [hheld, show ((w₁.without r).withMemory m).pending = _ from hpending₁]
    exact hcounted₁.without _
  · exact hpending₁
  · show w₁.draining = w.draining
    rw [hsame₁]
    rfl
  · show m.process.events.toList = _
    have hevents₁ : w₁.events = w.events ++ w.openingEvents object := by
      rw [events, hsame₁]
      exact events_opened w object
    rw [hevents, hevents₁, List.append_assoc]
    rfl

/-! ### The queue -/

/-- What the routine of an object reports, if the object is still there. -/
def farewell (w : World) (r : Ref) : List Event := (w.object? r).elim [] w.routineEvents

/-- What an object reports when it goes does not depend on which others went before. -/
theorem Leaves.farewell (h : w.Leaves ended w') (hobject : w.object? r = some object)
    (hr : r ∉ ended) : w'.farewell r = w.farewell r := by
  obtain ⟨count, hobject', -, -⟩ := h.stays r object hobject hr
  have hslots : w'.slotsOf object = w.slotsOf object := by
    have := h.slots r hr
    rw [slots_of_object? hobject', slots_of_object? hobject] at this
    exact this
  rw [World.farewell, World.farewell, hobject, hobject']
  simp only [Option.elim_some, routineEvents, openingEvents, slotsOf_setCount, hslots]
  rfl

/-- The queue is worked off from a world to another, and the routines of the
listed objects are run one after the other, each with the mark set that says
so. A release in a routine that finds the mark clear does what `start` does. -/
inductive Drains (start : Host Unit) : World → List Ref → World → Prop
  | done {w : World} (hpending : w.pending = []) : Drains start w [] w
  | next {w w₁ w' : World} {r : Ref} {rest rs : List Ref} (hpending : w.pending = r :: rest)
      (hactive : w.draining = true)
      (hrun : destroyWith start r { w with pending := rest } = .ok () w₁)
      (h : Drains start w₁ rs w') : Drains start w (r :: rs) w'

/-- The queue is no object. -/
theorem leaves_pending (w : World) (pending : List Ref) : w.Leaves [] { w with pending } :=
  have h := Leaves.refl w
  ⟨h.gone, h.absent, h.stays, h.slots⟩

/-- Whatever waits, every object has its blocks to itself. -/
theorem Housed.setPending (h : w.Housed) (pending : List Ref) : Housed { w with pending } :=
  h.of_memory rfl h.memory fun _ _ _ _ _ => rfl

/-- The routine of the first object in the queue. -/
theorem destroy_next (hhoused : w.Housed) (hcounted : w.Counted (owned + w.held []) w.pending)
    {rest : List Ref} (hpending : w.pending = r :: rest) (hactive : w.draining = true) :
    ∃ object w', w.object? r = some object ∧
      (∀ start, destroyWith start r { w with pending := rest } = .ok () w') ∧ w'.Housed ∧
      w.Leaves [r] w' ∧ w'.Counted (owned + w'.held []) w'.pending ∧
      (∃ last : List Ref, last.Sublist (w.contents r) ∧ w'.pending = last.reverse ++ rest) ∧
      w'.draining = w.draining ∧ w'.events = w.events ++ w.routineEvents object := by
  have hcounted' : Counted { w with pending := rest }
      (owned + held { w with pending := rest } []) (r :: rest) := by
    rw [hpending] at hcounted
    exact hcounted.congr fun _ => rfl
  obtain ⟨object, w', hobject, hrun, hhoused', hleaves, hspec⟩ :=
    destroy_spec (hhoused.setPending rest) hcounted' hactive
  exact ⟨object, w', hobject, hrun, hhoused', (leaves_pending w rest).trans hleaves, hspec⟩

/-- An empty queue is worked off. -/
theorem drain_nil (hpending : w.pending = []) : drain w = .ok () w := by
  rw [drain, hpending]

/-- The first object in the queue goes first, and what it releases may join the queue. -/
theorem drain_cons {rest : List Ref} (hpending : w.pending = r :: rest) :
    drain w = match destroy r { w with pending := rest } with
      | .error fault w => .error fault w
      | .ok () w => drain w := by
  rw [drain]
  split
  · next hnil => cases hpending.symm.trans hnil
  · next hcons =>
    cases hpending.symm.trans hcons
    split <;> next hrun => rw [hrun]

/-- The queue can be worked off. -/
theorem drain_spec (hhoused : w.Housed) (hcounted : w.Counted (owned + w.held []) w.pending)
    (hactive : w.draining = true) :
    ∃ rs w', drain w = .ok () w' ∧ Drains nested w rs w' := by
  -- every routine leaves one live object less
  induction hn : w.liveCount using Nat.strong_induction_on generalizing w with
  | _ n ih =>
    cases hpending : w.pending with
    | nil =>
      exact ⟨[], w, drain_nil hpending, .done hpending⟩
    | cons r rest =>
      obtain ⟨object, w₁, -, hrun, hhoused₁, -, hcounted₁, -, hdraining₁, -⟩ :=
        destroy_next hhoused hcounted hpending hactive
      have hlt : w₁.liveCount < n := by
        have := liveCount_destroy (hrun nested)
        have hsame : World.liveCount { w with pending := rest } = w.liveCount := rfl
        omega
      obtain ⟨rs, w', hdrain, hdrains⟩ :=
        ih w₁.liveCount hlt hhoused₁ hcounted₁ (hdraining₁.trans hactive) rfl
      refine ⟨r :: rs, w', ?_, .next hpending hactive (hrun nested) hdrains⟩
      rw [drain_cons hpending, destroy, hrun nested]
      exact hdrain

/-- What is left when the queue was worked off: the objects in `rs` went, each
of them once and in this order. -/
structure Drained (w : World) (owned : Multiset Ref) (rs : List Ref) (w' : World) : Prop where
  housed : w'.Housed
  counted : w'.Counted (owned + w'.held []) []
  leaves : w.Leaves rs w'
  pending : w'.pending = []
  draining : w'.draining = w.draining
  nodup : rs.Nodup
  alive : ∀ r ∈ rs, (w.object? r).isSome
  events : w'.events = w.events ++ rs.flatMap w.farewell

/-- By induction on the objects that go: what the first routine leaves is
counted with the new queue, and nobody that is still to go has gone. -/
theorem Drains.drained {start : Host Unit} {rs : List Ref} (h : Drains start w rs w')
    (hhoused : w.Housed)
    (hcounted : w.Counted (owned + w.held []) w.pending) : w.Drained owned rs w' := by
  induction h with
  | @done w hpending =>
    rw [hpending] at hcounted
    exact ⟨hhoused, hcounted, .refl w, hpending, rfl, .nil, nofun, (List.append_nil _).symm⟩
  | @next w w₁ w' r rest rs hpending hactive hrun _ ih =>
    obtain ⟨object, w₁', hobject, hrun', hhoused₁, hleaves, hcounted₁, -, hdraining, hevents⟩ :=
      destroy_next hhoused hcounted hpending hactive
    cases hrun.symm.trans (hrun' start)
    have hrest := ih hhoused₁ hcounted₁
    have hgone : w₁.object? r = none := hleaves.gone r List.mem_cons_self
    -- an object that is gone is not there to go again
    have hne : ∀ s ∈ rs, s ≠ r := by
      rintro s hs rfl
      have := hrest.alive s hs
      rw [hgone] at this
      cases this
    have halive : ∀ s ∈ rs, ∃ other, w.object? s = some other := by
      intro s hs
      obtain ⟨_, hother⟩ := Option.isSome_iff_exists.1 (hrest.alive s hs)
      obtain ⟨-, other, hbefore, -⟩ := hleaves.origin hother
      exact ⟨other, hbefore⟩
    refine ⟨hrest.housed, hrest.counted, hleaves.trans hrest.leaves, hrest.pending,
      hrest.draining.trans hdraining, ?_, ?_, ?_⟩
    · exact List.nodup_cons.2 ⟨fun hr => hne r hr rfl, hrest.nodup⟩
    · intro s hs
      rcases List.mem_cons.1 hs with rfl | hs
      · rw [hobject]
        rfl
      · obtain ⟨other, hother⟩ := halive s hs
        rw [hother]
        rfl
    · -- what a routine will report does not depend on those that ran before it
      have hlater : rs.flatMap w₁.farewell = rs.flatMap w.farewell := by
        refine List.flatMap_congr fun s hs => ?_
        obtain ⟨other, hother⟩ := halive s hs
        exact hleaves.farewell hother fun hmem => hne s hs (List.mem_singleton.1 hmem)
      have hfirst : w.farewell r = w.routineEvents object := by
        rw [farewell, hobject, Option.elim_some]
      rw [hrest.events, hevents, hlater, List.flatMap_cons, hfirst, List.append_assoc]

/-! ### A release -/

/-- Every object is where it belongs, the references are those in `owned` and
those in slots, and every count is their number. -/
structure Sound (w : World) (owned : Multiset Ref) : Prop where
  housed : w.Housed
  counted : w.Counted (owned + w.held []) []
  pending : w.pending = []
  draining : w.draining = false

/-- The world when the routine of an object is about to be run. -/
def awaiting (w : World) (r : Ref) : World := { w with pending := [r], draining := true }

/-- The world when no routine is running any more. -/
def idle (w : World) : World := { w with draining := false }

/-- An object that waits is still there. -/
theorem leaves_awaiting (w : World) (r : Ref) : w.Leaves [] (w.awaiting r) :=
  have h := Leaves.refl w
  ⟨h.gone, h.absent, h.stays, h.slots⟩

/-- Putting the flag down leaves the objects. -/
theorem leaves_idle (w : World) : w.Leaves [] w.idle :=
  have h := Leaves.refl w
  ⟨h.gone, h.absent, h.stays, h.slots⟩

/-- When the queue is worked off and the flag is down, the world is in order. -/
theorem Drained.sound {w₁ w₂ : World} {rs : List Ref}
    (h : (w₁.awaiting r).Drained owned rs w₂) : w₂.idle.Sound owned where
  housed := h.housed.of_memory rfl h.housed.memory fun _ _ _ _ _ => rfl
  counted := by
    rw [(leaves_idle w₂).held_of_nil []]
    exact h.counted.congr fun _ => rfl
  pending := h.pending
  draining := rfl

/-- What went in between is what was worked off. -/
theorem Drained.leaves_idle {w₁ w₂ : World} {rs : List Ref}
    (h : (w₁.awaiting r).Drained owned rs w₂) : w₁.Leaves rs w₂.idle :=
  ((leaves_awaiting w₁ r).of_nil h.leaves).then_nil (World.leaves_idle w₂)

/-- The reference that is given up is one of the caller. -/
theorem Sound.counted_cons (h : w.Sound (r ::ₘ owned)) :
    w.Counted (r ::ₘ (owned + w.held [])) [] := by
  rw [← Multiset.cons_add]
  exact h.counted

/-- Releasing the last reference outside of routines works the queue off and puts the
flag down. -/
theorem release_of_last {w₁ w₂ : World} (hlower : lower r w = .ok true w₁)
    (hpending : w₁.pending = []) (hdraining : w₁.draining = false)
    (hdrain : drain (w₁.awaiting r) = .ok () w₂) : World.release r w = .ok () w₂.idle := by
  have hstart : { w₁ with pending := r :: w₁.pending, draining := true } = w₁.awaiting r := by
    rw [awaiting, hpending]
  simp only [World.release, releaseWith, hlower, hdraining, Bool.false_eq_true, if_false, hstart,
    hdrain]
  rfl

/-- The last reference to an object is given up, and the object waits for its
routine. -/
theorem Sound.awaiting {w₁ : World} (h : w.Sound (r ::ₘ owned))
    (hlower : lower r w = .ok true w₁) :
    (w₁.awaiting r).Housed ∧
      (w₁.awaiting r).Counted (owned + (w₁.awaiting r).held []) (w₁.awaiting r).pending := by
  obtain ⟨last, _, hrun, hhoused, hleaves, ⟨objects, rfl⟩, -, hcounted⟩ :=
    lower_spec h.housed h.counted_cons
  rw [hlower] at hrun
  cases hrun
  refine ⟨hhoused.of_memory rfl hhoused.memory fun _ _ _ _ _ => rfl, ?_⟩
  rw [(hleaves.trans (leaves_awaiting _ r)).held []]
  exact hcounted.congr fun _ => rfl

/-- The last reference to an object is given up: the queue starts with the
object alone, and is worked off. -/
theorem Sound.release_last {w₁ : World} (h : w.Sound (r ::ₘ owned))
    (hlower : lower r w = .ok true w₁) :
    ∃ rs w₂, Drains nested (w₁.awaiting r) rs w₂ ∧ (w₁.awaiting r).Drained owned rs w₂ ∧
      World.release r w = .ok () w₂.idle := by
  obtain ⟨hhoused, hcounted⟩ := h.awaiting hlower
  obtain ⟨rs, w₂, hdrain, hdrains⟩ := drain_spec hhoused hcounted rfl
  refine ⟨rs, w₂, hdrains, hdrains.drained hhoused hcounted, ?_⟩
  obtain ⟨_, _, hrun, -, -, ⟨objects, rfl⟩, -⟩ := lower_spec h.housed h.counted_cons
  rw [hlower] at hrun
  cases hrun
  exact release_of_last hlower h.pending h.draining hdrain

/-- A reference that is given up leaves a world that is sound without it. -/
theorem Sound.release (h : w.Sound (r ::ₘ owned)) :
    ∃ ended w', World.release r w = .ok () w' ∧ w'.Sound owned ∧ w.Leaves ended w' := by
  obtain ⟨last, w₁, hrun, hhoused, hleaves, ⟨objects, hsame⟩, -, hcounted⟩ :=
    lower_spec h.housed h.counted_cons
  cases last with
  | false =>
    refine ⟨[], w₁, by simp only [World.release, releaseWith, hrun], ⟨hhoused, ?_, ?_, ?_⟩, hleaves⟩
    · rw [hleaves.held []]
      exact hcounted
    · rw [hsame]
      exact h.pending
    · rw [hsame]
      exact h.draining
  | true =>
    obtain ⟨rs, w₂, -, hdrained, hrelease⟩ := h.release_last hrun
    exact ⟨rs, w₂.idle, hrelease, hdrained.sound, hleaves.of_nil hdrained.leaves_idle⟩

/-! ### Objects that hold nothing -/

/-- The routine of an object that holds nothing touches no other object. -/
theorem destroy_bare (start : Host Unit) (hhoused : w.Housed)
    (hobject : w.object? r = some object) (hr : 3 ≤ r) (hbare : w.contents r = []) :
    ∃ m, destroyWith start r w = .ok () (((w.opened object).without r).withMemory m) := by
  have hslots : (w.slotsOf object).filterMap id = [] := by
    rw [contents, slots_of_object? hobject] at hbare
    exact hbare
  obtain ⟨m, hclosing, -⟩ := closing_spec (r := r) (hhoused.opened object) hobject
  refine ⟨m, ?_⟩
  rw [destroyWith_eq start hobject (hhoused.fits r object hobject hr), hslots]
  exact hclosing

/-- A reference that is given up to an object that holds nothing: no other object is
touched, and the object goes with the last reference to it. -/
theorem Sound.release_bare (h : w.Sound (r ::ₘ owned)) (hbare : w.contents r = []) :
    ∃ w', World.release r w = .ok () w' ∧ w'.Sound owned ∧
      (∀ s, s ≠ r → w'.object? s = w.object? s) ∧ (w.count? r = some 1 → w'.object? r = none) := by
  obtain ⟨last, w₁, hlower, hhoused, hleaves, ⟨objects, hsame⟩, hlast, -⟩ :=
    lower_spec h.housed h.counted_cons
  have hothers : ∀ s, s ≠ r → w₁.object? s = w.object? s := by
    intro s hs
    unfold lower at hlower
    split at hlower
    · cases hlower
    · split at hlower
      · cases hlower
        rfl
      · split at hlower
        · cases hlower
        · cases hlower
          exact object?_modify_of_ne hs _
  obtain ⟨ended, w', hrun, hsound, -⟩ := h.release
  refine ⟨w', hrun, hsound, ?_⟩
  cases last with
  | false =>
    simp only [World.release, releaseWith, hlower] at hrun
    cases hrun
    exact ⟨hothers, fun hone => nomatch hlast.2 hone⟩
  | true =>
    obtain ⟨rs, w₂, hdrains, -, hrelease⟩ := h.release_last hlower
    cases hrun.symm.trans hrelease
    obtain ⟨object, hobject, hone⟩ := count?_eq_some.1 (hlast.1 rfl)
    have hmortal : object.isImmortal = false := by
      rw [Object.isImmortal, hone]
      rfl
    obtain ⟨count, hobject₁, -⟩ := hleaves.stays r object hobject List.not_mem_nil
    have hbare₁ : w₁.contents r = [] := (hleaves.contents List.not_mem_nil).trans hbare
    have hr : 3 ≤ r := h.housed.le_of_mortal hobject hmortal
    cases hdrains with
    | done hpending => cases hpending
    | next hpending _ hdestroy hrest =>
      cases hpending
      -- the routine is run in the world in which nobody else waits
      obtain ⟨m, hdestroyed⟩ := destroy_bare nested (w := { w₁.awaiting r with pending := [] })
        ((h.awaiting hlower).1.setPending []) hobject₁ hr hbare₁
      cases hdestroy.symm.trans hdestroyed
      cases hrest with
      | next hpending => cases hpending
      | done _ =>
        have hlookup : ∀ s, _ = if r = s then none else w₁.object? s := object?_without w₁ r
        refine ⟨fun s hs => ?_, fun _ => ?_⟩
        · exact ((hlookup s).trans (if_neg hs.symm)).trans (hothers s hs)
        · exact (hlookup r).trans (if_pos rfl)

end ExtensionHost.World
