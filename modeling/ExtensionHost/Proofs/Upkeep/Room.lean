import ExtensionHost.Proofs.Upkeep.Thread

/-!
# `ExtensionHost.Proofs.Upkeep.Room`: blocks are as large as the sizes that are recorded

An object records how long it is, and everybody who reads it trusts that number.
So a block must never be smaller than the number says, and that is where numbers
are dangerous: a length comes from outside, is multiplied by the size of an item,
added to, doubled, and read as a signed word.

The results are of two kinds. In every world of a run the blocks of tuples, texts
and lists have the bytes that their lengths need, and the lengths are the same
numbers when they are read as signed words (`Object.HasRoom`). And a request for
more bytes than a region can have is refused, whether or not the number of bytes
is a size at all, and leaves nothing behind (`World.AddsNothing`). The second is
harder for a list than for the others, since the list itself is made before its
buffer is asked for, and has to be gone again.
-/

set_option autoImplicit false

namespace ExtensionHost

open World Box

/-! ### Sizes as they are computed -/

/-- What fits a signed word is the same number there. -/
theorem Size.signed_of_le {n : Nat} (h : n ≤ Size.addressable) : Size.signed n = n := by
  rw [Size.addressable] at h
  refine Int.bmod_eq_of_le ?_ ?_ <;> rw [Size.greatest] <;> omega

/-- The size of an object is computed exactly or not at all. -/
theorem TypeObject.instanceSize?_eq (type : TypeObject) (items : Nat) :
    type.instanceSize? items =
      if type.itemSize * items + type.basicSize ≤ Size.greatest then
        some (type.itemSize * items + type.basicSize)
      else Option.none := by
  by_cases hle : type.itemSize * items + type.basicSize ≤ Size.greatest
  · rw [if_pos hle]
    exact instanceSize?_eq_some.2 ⟨hle, rfl⟩
  · rw [if_neg hle, Option.eq_none_iff_forall_ne_some]
    exact fun _ htotal => hle (instanceSize?_eq_some.1 htotal).1

namespace Box

/-- The capacity that a list asks for when it is full. -/
def nextCapacity (capacity : Nat) : Nat := if capacity = 0 then firstCapacity else capacity * 2

/-- The size of a buffer is computed exactly or not at all. -/
theorem grownCapacity?_eq (capacity : Nat) :
    grownCapacity? capacity =
      if slotSize * nextCapacity capacity ≤ Size.addressable then
        some (nextCapacity capacity, slotSize * nextCapacity capacity)
      else none := by
  have hlast : ∀ next, ((Size.mul? next slotSize).bind fun bytes =>
      if Size.addressable < bytes then none else some (next, bytes)) =
      if slotSize * next ≤ Size.addressable then some (next, slotSize * next) else none := by
    intro next
    rw [Nat.mul_comm slotSize, Size.mul?]
    by_cases hle : next * slotSize ≤ Size.addressable
    · have hsize : next * slotSize ≤ Size.greatest := hle.trans (by decide)
      rw [if_pos hle, if_pos hsize]
      exact if_neg (Nat.not_lt.2 hle)
    · rw [if_neg hle]
      split
      · exact if_pos (Nat.lt_of_not_le hle)
      · rfl
  by_cases hzero : capacity = 0
  · rw [nextCapacity, if_pos hzero, ← hlast, grownCapacity?, if_pos hzero]
    rfl
  · rw [nextCapacity, if_neg hzero, ← hlast, grownCapacity?, if_neg hzero, Size.mul?]
    split
    · rfl
    · next hlt =>
      -- twice the capacity is no size, so eight times twice the capacity is none
      have hbytes : ¬ capacity * 2 * slotSize ≤ Size.greatest := by
        simp only [slotSize]
        omega
      rw [Size.mul?, if_neg hbytes]
      rfl

end Box

/-! ### Room -/

/-- The blocks of an object have the bytes that its recorded lengths need. -/
structure Object.HasRoom (object : Object) (p : Process) : Prop where
  tuple : ∀ length, object.body = .tuple length → 0 ≤ Size.signed length ∧
    ∃ a, object.home = some a ∧ p.Live a ∧ 24 + 8 * length ≤ (p.kind a).usable
  text : ∀ length, object.body = .text length → 0 ≤ Size.signed length ∧
    ∃ a, object.home = some a ∧ p.Live a ∧ 25 + length ≤ (p.kind a).usable
  list : ∀ length capacity buffer, object.body = .list length capacity buffer →
    0 ≤ Size.signed length ∧ Size.signed length ≤ Size.signed capacity ∧ length ≤ capacity ∧
      (buffer = none ↔ capacity = 0) ∧
      ∀ a, buffer = some a → p.Live a ∧ 8 * capacity ≤ (p.kind a).usable

namespace World

variable {w w' w'' : World} {r s : Ref} {object : Object} {owned : Multiset Ref} {bytes : Nat}

/-- The block that an object lies in has room for it, and so its length fits a
signed word. -/
theorem Provided.home_room (h : w.Provided) (hobject : w.object? r = some object) (hle : 3 ≤ r) :
    object.body.bytes ≤ Size.addressable ∧ ∃ a, object.home = some a ∧
      w.memory.process.Live a ∧ object.body.bytes ≤ (w.memory.process.kind a).usable := by
  obtain ⟨a, ha⟩ := Option.isSome_iff_exists.1 (h.housed.fits r object hobject hle).home
  have hroom := (h.spacious r object hobject).home a ha
  have hlive := (h.housed.housed r object hobject).live a (Object.mem_blocks.2 (.inr ha))
  exact ⟨hroom.trans (h.bounded a), a, ha, hlive, hroom⟩

/-- Every object has room for its recorded lengths. -/
theorem Provided.hasRoom (h : w.Provided) (hobject : w.object? r = some object) :
    object.HasRoom w.memory.process where
  tuple length hbody := by
    -- the block has what was asked for, so the length fits into a signed number
    have hle := h.housed.le_of_tuple hobject hbody
    obtain ⟨hbound, a, ha, hlive, hroom⟩ := h.home_room hobject hle
    simp only [hbody, Body.bytes, contentStart, slotSize] at hbound hroom
    refine ⟨?_, a, ha, hlive, hroom⟩
    rw [Size.signed_of_le (by omega)]
    exact Int.natCast_nonneg length
  text length hbody := by
    have hle := h.housed.le_of_text hobject hbody
    obtain ⟨hbound, a, ha, hlive, hroom⟩ := h.home_room hobject hle
    simp only [hbody, Body.bytes, contentStart] at hbound hroom
    refine ⟨?_, a, ha, hlive, by omega⟩
    rw [Size.signed_of_le (by omega)]
    exact Int.natCast_nonneg length
  list length capacity buffer hbody := by
    have hin := h.housed.housed r object hobject
    have hbuffer := (h.spacious r object hobject).buffer length capacity buffer hbody
    -- without a buffer both numbers are zero; with one it is the buffer that bounds them
    cases buffer with
    | none =>
      obtain ⟨rfl, rfl⟩ := hin.roomy.bare length capacity hbody
      exact ⟨Int.le_refl _, Int.le_refl _, Nat.le_refl _, hbuffer, fun _ ha => by cases ha⟩
    | some a =>
      obtain ⟨hlength, hroom⟩ := hin.roomy.within length capacity a hbody
      have hbound := hroom.trans (h.bounded a)
      simp only [slotSize] at hbound hroom
      rw [Size.signed_of_le (by omega), Size.signed_of_le (by omega)]
      refine ⟨Int.natCast_nonneg length, Int.ofNat_le.2 hlength, hlength, hbuffer, ?_⟩
      rintro b ⟨⟩
      exact ⟨hin.live a (Object.mem_blocks.2 (.inl (Object.buffer_eq_some.2 ⟨_, _, hbody⟩))), hroom⟩

/-! ### Nothing is left behind -/

/-- Whoever is there was there before and is what it was, but for its count, and
every block in use was in use before. -/
structure AddsNothing (w w' : World) : Prop where
  objects : ∀ r object, w'.object? r = some object →
    ∃ count, w.object? r = some { object with count }
  blocks : ∀ a, w'.memory.process.Live a → w.memory.process.Live a

/-- A world adds nothing to itself. -/
theorem AddsNothing.refl (w : World) : w.AddsNothing w :=
  ⟨fun _ object hobject => ⟨object.count, hobject⟩, fun _ ha => ha⟩

/-- Those who add nothing one after the other add nothing together. -/
theorem AddsNothing.trans (h : w.AddsNothing w') (h' : w'.AddsNothing w'') : w.AddsNothing w'' := by
  refine ⟨fun r object hobject => ?_, fun a ha => h.blocks a (h'.blocks a ha)⟩
  obtain ⟨count, hbetween⟩ := h'.objects r object hobject
  obtain ⟨count', hbefore⟩ := h.objects r _ hbetween
  exact ⟨count', hbefore⟩

/-- A report adds nothing. -/
theorem AddsNothing.report (h : w.AddsNothing w') (event : Event) :
    w.AddsNothing (w'.report event) := ⟨h.objects, h.blocks⟩

/-- A request for storage that is refused. -/
theorem addsNothing_refused {m : Memory} (h : w.memory.Answers bytes none none m) :
    w.AddsNothing (w.withMemory m) :=
  ⟨fun _ object hobject => ⟨object.count, hobject⟩,
    fun _ ha => ((h.live_iff.1 ha).resolve_left nofun).2⟩

/-- A release adds nothing. -/
theorem Wanes.addsNothing (h : w.Wanes w') : w.AddsNothing w' := by
  cases h with
  | recounted h => exact ⟨fun _ _ => h.origin, fun a ha => by rwa [h.memory] at ha⟩
  | @ended r object w₁ m _ _ hcounts h =>
    refine ⟨fun s other hother => ?_, fun a ha => ?_⟩
    · exact hcounts.origin (object?_of_without hother).2
    · have ha := (h.live_iff.1 ha).2
      rwa [hcounts.memory] at ha

/-- Nothing is made while references are released. -/
theorem Declines.addsNothing (h : w.Declines w') : w.AddsNothing w' := by
  induction h with
  | refl => exact .refl w
  | tail _ hwanes ih => exact ih.trans hwanes.addsNothing

/-- An object ends with the only reference to it. -/
theorem Sound.ends (h : w.Sound (r ::ₘ owned)) (hobject : w.object? r = some object)
    (hcount : object.count = 1) (hrun : World.release r w = .ok () w') : w'.object? r = none := by
  have hone : (1 : Int) = ((r ::ₘ owned) + w.held []).count r :=
    h.counted.exact r 1 (by rw [count?_of_object? hobject, hcount]) (by decide)
  rw [Multiset.cons_add, Multiset.count_cons_self, Multiset.count_add] at hone
  obtain ⟨ended, w₁, hrun₁, hsound, hleaves⟩ := h.release
  rw [hrun] at hrun₁
  cases hrun₁
  cases hlast : w'.object? r with
  | none => rfl
  | some last =>
    -- if it were still there it would have a reference, and there is none left
    obtain ⟨-, before, hbefore, hle, -⟩ := hleaves.origin hlast
    obtain rfl : object = before := Option.some.inj (hobject.symm.trans hbefore)
    have hn : w'.count? r = some last.count := count?_of_object? hlast
    have hlt : last.count < immortalCount := Int.lt_of_le_of_lt hle (by rw [hcount]; decide)
    have hexact := hsound.counted.exact r _ hn hlt
    have hpos := hsound.counted.pos hn hlt
    have hheld : (w'.held []).count r = 0 := by
      rw [Multiset.count_eq_zero, hleaves.held []]
      intro hmem
      obtain ⟨s, -, hs⟩ := mem_held.1 hmem
      have hmem' : r ∈ w.held [] := mem_held.2 ⟨s, List.not_mem_nil, hs⟩
      have := Multiset.count_pos.2 hmem'
      omega
    rw [Multiset.count_add, hheld] at hexact
    omega

/-- An object that was made and is gone again was in a block that is gone. -/
theorem addsNothing_unmade {type : TypeObject} {size : Nat} {body : Body} {home : Address}
    {m : Memory} (hmakes : Makes type size body) (h : w.memory.Answers size none (some home) m)
    (hmade : (w.made m type body home).Provided)
    (hafter : (w.made m type body home).AddsNothing w') (hw' : w'.Provided)
    (hgone : w'.object? w.objects.size = none) : w.AddsNothing w' := by
  refine ⟨fun s other hother => ?_, fun a ha => ?_⟩
  · obtain ⟨count, hbefore⟩ := hafter.objects s other hother
    rw [object?_made] at hbefore
    split at hbefore
    · next hs =>
      rw [hs, hgone] at hother
      cases hother
    · exact ⟨count, hbefore⟩
  · rcases h.live_iff.1 (hafter.blocks a ha) with heq | ⟨-, ha⟩
    · cases heq
      -- whoever has the block now had it before, and that was the object that is gone
      obtain ⟨s, other, hother, hmem⟩ := hw'.owned home ha
      obtain ⟨count, hbefore⟩ := hafter.objects s other hother
      have hhome : home ∈ (fresh type body home).blocks := by
        rw [hmakes.blocks]
        exact List.mem_singleton_self home
      obtain rfl := hmade.housed.apart s _ _ _ hbefore object?_made_self home hmem hhome
      rw [hgone] at hother
      cases hother
    · exact ha

end World

/-! ### Requests -/

namespace Box

variable {w w' : World} {r item : Ref} {object : Object} {owned : Multiset Ref} {bytes : Nat}
  {type : TypeObject} {attempt : Attempt Ref}

/-- An attempt to make something that needs a block of `bytes` bytes is answered
only if a region can have so many, and when it is refused nothing is left of it. -/
def Asks (bytes : Nat) (attempt : Attempt Ref) : Prop :=
  ∀ (w : World) (owned : Multiset Ref), w.Provided → w.Sound owned →
    ∃ result w', attempt.run w = .ok result w' ∧ (∀ e, result = .error e → w.AddsNothing w') ∧
      ∀ r, result = .ok r → bytes ≤ Size.addressable

/-- A request for too many bytes is refused. -/
theorem Asks.refused (h : Asks bytes attempt) (hw : w.Provided) (hsound : w.Sound owned)
    (hlarge : Size.addressable < bytes) :
    ∃ e w', attempt.run w = .ok (.error e) w' ∧ w.AddsNothing w' := by
  obtain ⟨result, w', hrun, herror, hok⟩ := h w owned hw hsound
  cases result with
  | error e => exact ⟨e, w', hrun, herror e rfl⟩
  | ok r => exact absurd (hok r rfl) (Nat.not_le.2 hlarge)

/-- An object with items asks for the bytes of its type and of the items. -/
theorem asks_newSized {items : Nat} {body : Body} :
    Asks (type.itemSize * items + type.basicSize) (Object.newSized type items body) := by
  intro w owned hw _
  rcases newSized_eq type items body with ⟨size, -, heq⟩ | ⟨-, heq⟩
  · rw [heq]
    exact ⟨.error (.allocationFailed size), w, rfl, fun _ _ => .refl w, nofun⟩
  · cases hcalloc : w.memory.calloc 1 (type.itemSize * items + type.basicSize) with
    | mk found m =>
      have hanswers := hw.answers_calloc hcalloc
      rw [Nat.one_mul] at hanswers
      rw [heq, run_allocate hcalloc]
      cases found with
      | none => exact ⟨_, _, rfl, fun _ _ => addsNothing_refused hanswers, nofun⟩
      | some home => exact ⟨_, _, rfl, nofun, fun _ _ => hanswers.size_le hw.bounded⟩

/-- What is written into a text does not matter. -/
theorem asks_newTextOf (htype : MakesTexts type) (text : String) :
    Asks (type.itemSize * text.toUTF8.size + type.basicSize) (newTextOf type text) := by
  intro w owned hw hsound
  obtain ⟨result, w', hrun, -⟩ :=
    gives_newTextOf type htype.mayGo text [] w owned hsound fun _ hr => absurd hr List.not_mem_nil
  refine ⟨result, w', hrun, ?_⟩
  cases madeText_newTextOf hrun with
  | tooLarge => exact ⟨fun _ _ => .refl w, nofun⟩
  | refused hcalloc => exact ⟨fun _ _ => addsNothing_refused (hw.answers_calloc hcalloc), nofun⟩
  | made hcalloc =>
    have hanswers := hw.answers_calloc hcalloc
    rw [Nat.one_mul] at hanswers
    exact ⟨nofun, fun _ _ => hanswers.size_le hw.bounded⟩

/-- The world with a list that was made in a block and has no buffer yet. -/
def withBareList (w : World) (type : TypeObject) (home : Address) (m : Memory) : World :=
  (w.made m type (.list 0 0 none) home).report (.objectCreated type.name type.basicSize)

/-- The steps there are not strict, because the type may stand for anything. -/
theorem provided_withBareList {home : Address} {m : Memory} (hw : w.Provided)
    (hroutine : type.routine = .list)
    (hanswers : w.memory.Answers type.basicSize none (some home) m) :
    (w.made m type (.list 0 0 none) home).Provided ∧ (withBareList w type home m).Provided := by
  have hmade : w.Step false (w.made m type (.list 0 0 none) home) :=
    .made (makes_list hroutine type.basicSize) (Nat.zero_le _) hanswers fun h => by cases h
  have hnoticed : (w.made m type (.list 0 0 none) home).Step false (withBareList w type home m) :=
    .noticed rfl
  have hw₁ := hmade.provided hw
  exact ⟨hw₁, hnoticed.provided hw₁⟩

/-- A list is given up again when there is no buffer for it. -/
theorem addsNothing_unbuffered {home : Address} {m m₁ : Memory} (hw : w.Provided)
    (hroutine : type.routine = .list) (hsound : w.Sound owned)
    (hcalloc : w.memory.calloc 1 type.basicSize = (some home, m))
    (hrefused : (withBareList w type home m).memory.Answers bytes none none m₁) :
    ∃ w', World.release w.objects.size ((withBareList w type home m).withMemory m₁) = .ok () w' ∧
      w.AddsNothing w' := by
  have hmakes := makes_list hroutine type.basicSize
  have hanswers := hw.answers_calloc hcalloc
  rw [Nat.one_mul] at hanswers
  obtain ⟨hw₁, hbare⟩ := provided_withBareList hw hroutine hanswers
  have hstep : (withBareList w type home m).Step false _ := .refused hrefused
  have hw₂ := hstep.provided hbare
  -- the list has the one reference that comes with it
  obtain ⟨result, w₁, hrun, hsound₁, -⟩ := creates_new hmakes w owned hsound
  rw [Object.new, run_allocate hcalloc] at hrun
  cases hrun
  rw [gained_ok] at hsound₁
  have hsound₂ := (hsound₁.withMemory (hrefused.sound hsound₁.housed.memory) fun s other hother =>
    hsound₁.housed.same_of_hands hrefused.hands hother).1
  have hself : ((withBareList w type home m).withMemory m₁).object? w.objects.size =
      some (fresh type (.list 0 0 none) home) := object?_made_self
  obtain ⟨ended, w', hrelease, -⟩ := hsound₂.release
  have hdeclines := declines_release hw₂ hrelease
  refine ⟨w', hrelease, addsNothing_unmade hmakes hanswers hw₁ ?_ (hdeclines.provided hw₂)
    (hsound₂.ends hself rfl hrelease)⟩
  exact (((AddsNothing.refl _).report _).trans (addsNothing_refused hrefused)).trans
    hdeclines.addsNothing

/-- A list asks for the bytes of its slots. -/
theorem asks_newListOf (hroutine : type.routine = .list) (length : Nat) :
    Asks (slotSize * length) (newListOf type length) := by
  intro w owned hw hsound
  cases hcalloc : w.memory.calloc 1 type.basicSize with
  | mk found m =>
    have hrun : (Object.new type (.list 0 0 none)).run w = _ := run_allocate hcalloc
    cases found with
    | none =>
      have hanswers := hw.answers_calloc hcalloc
      exact ⟨_, _, Attempt.run_bind_error hrun _, fun _ _ => addsNothing_refused hanswers,
        fun _ hmade => by cases hmade⟩
    | some home =>
      rw [newListOf, Attempt.run_bind_ok hrun]
      by_cases hlength : length = 0
      · rw [if_pos hlength]
        refine ⟨_, _, Attempt.run_pure _ _, (fun _ hrefused => by cases hrefused), fun _ _ => ?_⟩
        rw [hlength]
        exact Nat.zero_le _
      · rw [if_neg hlength]
        have hanswers := hw.answers_calloc hcalloc
        rw [Nat.one_mul] at hanswers
        have hw₁ := (provided_withBareList hw hroutine hanswers).2
        cases hbuffer : (withBareList w type home m).memory.calloc length slotSize with
        | mk buffer m₁ =>
          have hanswers := hw₁.answers_calloc hbuffer
          have hfirst : (modifyGet (World.onMemory (·.calloc length slotSize)) : Attempt _).run
              (withBareList w type home m) =
              .ok (.ok buffer) ((withBareList w type home m).withMemory m₁) := run_onMemory hbuffer
          rw [show (w.made m type (.list 0 0 none) home).report _ = withBareList w type home m
            from rfl, Attempt.run_bind_ok hfirst]
          cases buffer with
          | none =>
            -- the list is there already and is released
            obtain ⟨w', hrelease, hadds⟩ :=
              addsNothing_unbuffered hw hroutine hsound hcalloc hanswers
            exact ⟨_, w', Attempt.run_bind_ok (Attempt.run_lift_ok hrelease) _, fun _ _ => hadds,
              fun _ hmade => by cases hmade⟩
          | some a =>
            refine ⟨_, _, rfl, (fun _ hrefused => by cases hrefused), fun _ _ => ?_⟩
            rw [Nat.mul_comm]
            exact hanswers.size_le hw₁.bounded

/-- A list that would have to grow too far stays as it is. -/
theorem refused_grownFor {object : Object} {capacity : Nat} {buffer : Option Address}
    (hfull : listObject w r = .ok (object, capacity, capacity, buffer))
    (hlarge : Size.addressable < slotSize * nextCapacity capacity) :
    (do
      let (_, length, capacity, buffer) ← Attempt.read (listObject · r)
      if length = capacity then growList r length capacity buffer
      Attempt.read (listObject · r) : Attempt _).run w =
      .ok (.error (.allocationFailed Size.greatest)) w := by
  have hnone : grownCapacity? capacity = none := by
    rw [grownCapacity?_eq, if_neg (Nat.not_le.2 hlarge)]
  have hgrow : (growList r capacity capacity buffer).run w =
      .ok (.error (.allocationFailed Size.greatest)) w := by
    simp only [growList, hnone]
    rfl
  rw [Attempt.run_read_bind, hfull]
  dsimp only
  rw [if_pos rfl]
  exact Attempt.run_bind_error hgrow _

/-- The item is released then. -/
theorem refused_appendItem {object : Object} {capacity : Nat} {buffer : Option Address}
    (hw : w.Provided) (hsound : w.Sound (item ::ₘ owned))
    (hfull : listObject w r = .ok (object, capacity, capacity, buffer))
    (hlarge : Size.addressable < slotSize * nextCapacity capacity) :
    ∃ e w', (appendItem r item).run w = .ok (.error e) w' ∧ w.AddsNothing w' := by
  have hfirst := refused_grownFor hfull hlarge
  obtain ⟨ended, w', hrelease, -⟩ := hsound.release
  exact ⟨_, w', Attempt.run_bind_error (Attempt.run_consuming_error hfirst hrelease) _,
    (declines_release hw hrelease).addsNothing⟩

end Box

namespace Boundary

variable {w : World} {owned : Multiset Ref}

/-- Whoever calls from outside gets no pointer. -/
theorem refused_newReference {attempt : Attempt Ref} (entry : String)
    (h : ∃ e w', attempt.run w = .ok (.error e) w' ∧ w.AddsNothing w') :
    ∃ w', newReference entry attempt w = .ok none w' ∧ w.AddsNothing w' := by
  obtain ⟨e, w', hrun, hadds⟩ := h
  have hreporting := run_reporting entry none (do return some (← attempt)) w
  rw [Attempt.run_bind_error hrun] at hreporting
  exact ⟨_, hreporting, hadds.report _⟩

/-- A length that comes from outside is refused when it is negative, too. -/
theorem refused_checkedLength {bytes : Nat → Nat} {make : Nat → Attempt Ref}
    (hasks : ∀ length, Asks (bytes length) (make length)) (hw : w.Provided) (hsound : w.Sound owned)
    {length : Int} (hrefused : length < 0 ∨ Size.addressable < bytes length.toNat) :
    ∃ e w', (do make (← Attempt.ofExcept (containerLength length)) : Attempt Ref).run w =
      .ok (.error e) w' ∧ w.AddsNothing w' := by
  by_cases hlength : 0 ≤ length
  · obtain ⟨e, w', hrun, hadds⟩ := (hasks length.toNat).refused hw hsound (by omega)
    refine ⟨e, w', ?_, hadds⟩
    rw [containerLength, if_pos hlength]
    exact hrun
  · refine ⟨.overflow "container size", w, ?_, .refl w⟩
    rw [containerLength, if_neg hlength]
    rfl

end Boundary

/-! ### Every run -/

/-- The constructors, with the bytes of the block that has to be there for what
they make. Tuples are made as any object with items is. -/
inductive Box.Demands : Nat → Attempt Ref → Prop
  | sized (type : TypeObject) (items : Nat) (body : Body) :
      Demands (type.itemSize * items + type.basicSize) (Object.newSized type items body)
  | text {type : TypeObject} (htype : MakesTexts type) (text : String) :
      Demands (type.itemSize * text.toUTF8.size + type.basicSize) (newTextOf type text)
  | list {type : TypeObject} (hroutine : type.routine = .list) (length : Nat) :
      Demands (slotSize * length) (newListOf type length)

/-- Every constructor asks for the bytes of what it makes. -/
theorem Box.Demands.asks {bytes : Nat} {attempt : Attempt Ref} (h : Demands bytes attempt) :
    Asks bytes attempt := by
  cases h with
  | sized => exact asks_newSized
  | text htype text => exact asks_newTextOf htype text
  | list hroutine length => exact asks_newListOf hroutine length

/-- Sizes are computed exactly or not at all. In every world of a run the blocks
of tuples, texts and lists are as large as what is recorded in them says, and
requests for more than a region can have are refused and leave nothing behind:
those for new objects, those with a length from outside, which may also be
negative, and those of a list that is full. -/
theorem hasRoom_of_thread {strict : Bool} {system : System} {settings : AllocatorSettings}
    {w : World} {owned : Multiset Ref} (h : Thread strict system settings w owned) :
    (∀ r object, w.object? r = some object → object.HasRoom w.memory.process) ∧
    (∀ bytes attempt, Demands bytes attempt → Size.addressable < bytes →
      ∃ e w', attempt.run w = .ok (.error e) w' ∧ w.AddsNothing w') ∧
    (∀ length : Int, length < 0 ∨ Size.addressable < 24 + 8 * length.toNat →
      ∃ w', Boundary.tupleNew length w = .ok none w' ∧ w.AddsNothing w') ∧
    (∀ length : Int, length < 0 ∨ Size.addressable < 8 * length.toNat →
      ∃ w', Boundary.listNew length w = .ok none w' ∧ w.AddsNothing w') ∧
    (∀ r item object capacity buffer kept, owned = item ::ₘ kept →
      listObject w r = .ok (object, capacity, capacity, buffer) →
      Size.addressable < 8 * nextCapacity capacity →
      ∃ e w', (appendItem r item).run w = .ok (.error e) w' ∧ w.AddsNothing w') ∧
    (∀ (type : TypeObject) (items : Nat), type.instanceSize? items =
      if type.itemSize * items + type.basicSize ≤ Size.greatest then
        some (type.itemSize * items + type.basicSize) else none) ∧
    ∀ capacity, grownCapacity? capacity =
      if 8 * nextCapacity capacity ≤ Size.addressable then
        some (nextCapacity capacity, 8 * nextCapacity capacity) else none := by
  have hw := h.provided
  have hsound := h.sound
  refine ⟨fun r object => hw.hasRoom, fun bytes attempt hdemands => hdemands.asks.refused hw hsound,
    fun length hrefused => ?_, fun length hrefused => ?_, ?_, TypeObject.instanceSize?_eq,
    grownCapacity?_eq⟩
  -- a tuple asks for its slots together with its header, a list for its buffer alone
  · have hasks : ∀ n, Asks (8 * n + 24) (newTuple n) := fun n => asks_newSized
    rw [Nat.add_comm] at hrefused
    exact Boundary.refused_newReference _ (Boundary.refused_checkedLength hasks hw hsound hrefused)
  · have hasks : ∀ n, Asks (8 * n) (newList n) := asks_newListOf rfl
    exact Boundary.refused_newReference _ (Boundary.refused_checkedLength hasks hw hsound hrefused)
  · rintro r item object capacity buffer kept rfl hfull hlarge
    exact refused_appendItem hw hsound hfull hlarge

/-- In a run that made a tuple with a list in it there is room, and a tuple of far too
many items is refused. -/
theorem hasRoom_withListInTuple :
    Thread true (.bounded 0x1000000) {} withListInTuple {5} ∧
      (∃ object, withListInTuple.object? 5 = some object ∧ object.body = .tuple 1 ∧
        object.HasRoom withListInTuple.memory.process) ∧
      (∃ e w', (newTupleOf .tuple (2 ^ 60)).run withListInTuple = .ok (.error e) w' ∧
        withListInTuple.AddsNothing w') ∧
      ∃ w', Boundary.listNew (2 ^ 61) withListInTuple = .ok none w' ∧
        withListInTuple.AddsNothing w' := by
  obtain ⟨hroom, hdemands, -, hlistNew, -⟩ := hasRoom_of_thread (thread_withListInTuple true)
  refine ⟨thread_withListInTuple true, ⟨_, rfl, rfl, hroom 5 _ rfl⟩, ?_, ?_⟩
  · exact hdemands _ _ (.sized .tuple _ _) (by decide)
  · exact hlistNew _ (.inr (by decide))

end ExtensionHost
