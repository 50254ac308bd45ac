import ExtensionHost.Proofs.Upkeep.Step

/-!
# `ExtensionHost.Proofs.Upkeep.Provision`: objects and the blocks in use belong together

`World.Provided` is what every step keeps. Every object lies in blocks of its
own that are large enough for it, and every block in use is one of an object
that is still there. The counters of the storage are the totals over its blocks,
and the departures that were reported are those of the objects that are gone.
Each of these is kept by a step for a reason of its own, so there is a lemma for
each, with one case for each kind of step.
-/

set_option autoImplicit false

namespace ExtensionHost

namespace Object

/-- The type of an object that is gone. -/
def parted? (object : Object) : Option String :=
  if object.live then none else some object.type.name

/-- The blocks of an object have the bytes that it needs in them. -/
structure Spacious (object : Object) (p : Process) : Prop where
  home : ∀ a, object.home = some a → object.body.bytes ≤ (p.kind a).usable
  buffer : ∀ length capacity buffer, object.body = .list length capacity buffer →
    (buffer = none ↔ capacity = 0)

end Object

namespace Memory

variable {m m' : Memory} {size : Nat} {made : Option Address}

/-- An answer that ends no block hands one out, or nothing. -/
theorem Answers.hands (h : m.Answers size none made m') :
    m.process.Hands size made m'.process :=
  ⟨fun b hb => h.others b nofun hb, fun a ha => h.fresh a ha nofun, h.live, h.room, h.unwritten⟩

end Memory

namespace World

variable {strict : Bool} {w w' w'' : World} {r s : Ref} {object other : Object} {m : Memory}
  {a b : Address}

/-! ### Blocks of other objects -/

/-- The object is still there when the routine closes. -/
theorem Recounted.opened_stays {w₁ : World} (h : (w.opened object).Recounted w₁)
    (hs : w.object? s = some other) : ∃ count, w₁.object? s = some { other with count } :=
  h.stays hs

/-- A block of an object stays as it is when the blocks of another are freed. -/
theorem Housed.same_of_clears (h : w.Housed) (hobject : w.object? r = some object)
    (hclears : w.memory.Clears object.blocks m) (hs : s ≠ r) (hother : w.object? s = some other)
    (ha : a ∈ other.blocks) : m.process.blocks[a]? = w.memory.process.blocks[a]? :=
  hclears.others fun hmem => hs (h.apart s r other object hother hobject a ha hmem)

/-- A list has its own block and its buffer in different places. -/
theorem Housed.ne_buffer (h : w.Housed) (hobject : w.object? r = some object)
    (hhome : object.home = some a) : object.buffer ≠ some a := by
  intro hbuffer
  have hnodup := (h.housed r object hobject).nodup
  rw [Object.blocks, hbuffer, hhome] at hnodup
  simp at hnodup

/-- A block of another object is no buffer of the list. -/
theorem Housed.ne_buffer_of_ne (h : w.Housed) (hobject : w.object? r = some object) (hs : s ≠ r)
    (hother : w.object? s = some other) (ha : a ∈ other.blocks) : object.buffer ≠ some a :=
  fun hbuffer =>
    hs (h.apart s r other object hother hobject a ha (Object.mem_blocks.2 (.inl hbuffer)))

/-- The new buffer of a list. -/
theorem Housed.bufferAt (h : w.Housed) (hobject : w.object? r = some object) {capacity : Nat}
    (hanswers : w.memory.Answers (slotSize * capacity) object.buffer (some b) m) :
    Box.BufferAt w r object capacity b m := by
  have hkept : ∀ c, w.memory.process.Live c → object.buffer ≠ some c →
      c ≠ b ∧ m.process.blocks[c]? = w.memory.process.blocks[c]? := by
    intro c hlive hbuffer
    obtain ⟨hne, hsame⟩ := hanswers.kept hlive hbuffer
    exact ⟨fun heq => hne (by rw [heq]), hsame⟩
  refine ⟨hanswers.sound h.memory, fun s other hs hother c hc => ?_, fun c hc => ?_,
    hanswers.live b rfl, hanswers.room b rfl⟩
  · exact hkept c ((h.housed s other hother).live c hc) (h.ne_buffer_of_ne hobject hs hother hc)
  · exact hkept c ((h.housed r object hobject).live c (Object.mem_blocks.2 (.inr hc)))
      (h.ne_buffer hobject hc)

/-- The buffer of a list is the one that is recorded. -/
theorem buffer_of_list {length capacity : Nat} {buffer : Option Address}
    (hbody : object.body = .list length capacity buffer) : object.buffer = buffer := by
  rw [Object.buffer, hbody]

/-- Notices are no storage. -/
theorem orderly_opened (w : World) (object : Object) :
    w.memory.Orderly (w.opened object).memory where
  lent := id
  sound h := h.of_kind fun _ _ _ => rfl
  tallied h := h.alike ⟨rfl, ⟨fun _ => rfl, fun _ => rfl, rfl, rfl, rfl, rfl, rfl⟩⟩
  bounded := id

/-! ### What steps keep -/

/-- Objects stay in blocks of their own. -/
theorem Step.housed (h : w.Step strict w') (hw : w.Housed) : w'.Housed := by
  cases h with
  | recounted h => exact hw.recounted h
  | noticed => exact hw.noticing _ _
  | refused h =>
    exact hw.of_memory rfl (h.sound hw.memory) fun s other hs => hw.same_of_hands h.hands hs
  | made hmakes _ h => exact hw.made hmakes (h.sound hw.memory) h.hands
  | filled hobject hat hindex item => exact hw.slotWritten hobject hat hindex item
  | rebuffered hobject hbody hcapacity hlength hunused h =>
    have hle := hw.le_of_list hobject hbody
    rw [← buffer_of_list hbody] at h
    exact Box.housed_rebuffered hw hobject hle ((hw.fits _ _ hobject hle).list _ _ _ hbody)
      (hw.bufferAt hobject h) hlength hunused
  | lengthened hobject hbody hlt => exact Box.housed_lengthened hw hobject hbody hlt
  | @ended r object w₁ m hobject hle hcounts h =>
    have hw₁ := (hw.opened object).recounted hcounts
    obtain ⟨count, hobject₁⟩ := hcounts.opened_stays hobject
    exact hw₁.without hle (h.orderly.sound hw₁.memory) fun s other hs hother c hc =>
      hw₁.same_of_clears hobject₁ h hs hother hc

/-- What holds of the whole storage goes on holding. -/
theorem Step.orderly (h : w.Step strict w') : w.memory.Orderly w'.memory := by
  cases h with
  | recounted h => rw [h.memory]; exact .refl _
  | noticed => exact Memory.orderly_report _ _
  | refused h | made _ _ h | rebuffered _ _ _ _ _ h => exact h.toOrderly
  | filled => exact Memory.orderly_modifyPayload _ _ _
  | lengthened => exact .refl _
  | ended _ _ hcounts h =>
    refine .trans ?_ h.orderly
    rw [hcounts.memory]
    exact orderly_opened _ _

/-- Every block in use is one of an object that is still there. -/
def Owned (w : World) : Prop :=
  ∀ a, w.memory.process.Live a → ∃ r object, w.object? r = some object ∧ a ∈ object.blocks

/-- The objects and their blocks are what they were. -/
theorem Owned.congr (h : w.Owned)
    (hlive : ∀ a, w'.memory.process.Live a → w.memory.process.Live a)
    (hobjects : ∀ r object, w.object? r = some object →
      ∃ object', w'.object? r = some object' ∧ object'.blocks = object.blocks) : w'.Owned := by
  intro a ha
  obtain ⟨r, object, hobject, hmem⟩ := h a (hlive a ha)
  obtain ⟨object', hobject', hblocks⟩ := hobjects r object hobject
  exact ⟨r, object', hobject', by rw [hblocks]; exact hmem⟩

/-- Counts leave it as it is whose the blocks in use are. -/
theorem Owned.recounted (h : w.Owned) (hcounts : w.Recounted w') : w'.Owned := by
  refine h.congr (fun a ha => by rw [hcounts.memory] at ha; exact ha) fun r object hobject => ?_
  obtain ⟨count, hobject'⟩ := hcounts.stays hobject
  exact ⟨_, hobject', rfl⟩

/-- After a step every block in use is one of an object that is there. -/
theorem Step.owned (h : w.Step strict w') (howned : w.Owned) : w'.Owned := by
  cases h with
  | recounted h => exact howned.recounted h
  | noticed => exact howned
  | refused h =>
    exact howned.congr (fun a ha => ((h.live_iff.1 ha).resolve_left nofun).2)
      fun _ object hobject => ⟨object, hobject, rfl⟩
  | @made type size body home m hmakes _ h =>
    intro a ha
    -- a block in use is the one that was handed out or was in use before
    rcases h.live_iff.1 ha with heq | ⟨-, ha⟩
    · cases heq
      refine ⟨w.objects.size, fresh type body home, object?_made_self, ?_⟩
      rw [hmakes.blocks]
      exact List.mem_singleton_self home
    · obtain ⟨s, other, hother, hmem⟩ := howned a ha
      exact ⟨s, other, (object?_made_of_some (by rw [hother]; nofun)).trans hother, hmem⟩
  | filled =>
    exact howned.congr (fun a => (Process.live_modifyPayload _ _ _ _).1) fun _ object hobject =>
      ⟨object, hobject, rfl⟩
  | @rebuffered r object _ _ length capacity buffer b m hobject hbody _ _ _ h =>
    intro a ha
    rcases h.live_iff.1 ha with heq | ⟨hended, ha⟩
    · cases heq
      exact ⟨r, _, object?_reshaped_self hobject, Object.mem_blocks.2 (.inl rfl)⟩
    · obtain ⟨s, other, hother, hmem⟩ := howned a ha
      by_cases hrs : r = s
      · -- the old buffer is gone, so what is left of the old blocks is the list's own block
        subst hrs
        obtain rfl : other = object := Option.some.inj (hother.symm.trans hobject)
        have hhome := (Object.mem_blocks.1 hmem).resolve_left fun hbuffer =>
          hended ((buffer_of_list hbody).symm.trans hbuffer)
        exact ⟨r, _, object?_reshaped_self hobject, Object.mem_blocks.2 (.inr hhome)⟩
      · exact ⟨s, other, by rw [object?_reshaped, if_neg hrs, hother], hmem⟩
  | @lengthened r object length capacity b hobject hbody hlt =>
    refine howned.congr (fun _ ha => ha) fun s other hother => ?_
    by_cases hrs : r = s
    · subst hrs
      obtain rfl : other = object := Option.some.inj (hother.symm.trans hobject)
      refine ⟨_, object?_reshaped_self hobject, ?_⟩
      rw [Object.blocks, Object.blocks, buffer_of_list hbody]
      rfl
    · exact ⟨other, by rw [object?_reshaped, if_neg hrs, hother], rfl⟩
  | @ended r object w₁ m hobject _ hcounts h =>
    have howned₁ : w₁.Owned := Owned.recounted (w := w.opened object) howned hcounts
    obtain ⟨count, hobject₁⟩ := hcounts.opened_stays hobject
    intro a ha
    obtain ⟨hmem, ha⟩ := h.live_iff.1 ha
    obtain ⟨s, other, hother, hmem'⟩ := howned₁ a ha
    -- the blocks of the object that ended are not in use any more
    have hrs : r ≠ s := by
      rintro rfl
      obtain rfl := Option.some.inj (hother.symm.trans hobject₁)
      exact hmem hmem'
    exact ⟨s, other, ((object?_without w₁ r s).trans (if_neg hrs)).trans hother, hmem'⟩

/-- Every object has the bytes that it needs. -/
def Spacious (w : World) : Prop :=
  ∀ r object, w.object? r = some object → object.Spacious w.memory.process

/-- The block that an object lies in is what it was. -/
theorem spacious_congr {p p' : Process} (h : object.Spacious p)
    (hsame : ∀ a, object.home = some a → p'.kind a = p.kind a) : object.Spacious p' where
  home a ha := by
    rw [hsame a ha]
    exact h.home a ha
  buffer := h.buffer

/-- A count takes no bytes. -/
theorem spacious_setCount {p : Process} (h : object.Spacious p) (count : Int) :
    Object.Spacious { object with count } p := ⟨h.home, h.buffer⟩

/-- A list needs nothing in its own block. -/
theorem spacious_list {p : Process} {length capacity : Nat} {buffer : Option Address}
    (hbody : object.body = .list length capacity buffer) (h : buffer = none ↔ capacity = 0) :
    object.Spacious p where
  home a _ := by
    rw [hbody]
    exact Nat.zero_le _
  buffer _ _ _ heq := by
    rw [hbody] at heq
    cases heq
    exact h

/-- Counts leave every object the bytes that it needs. -/
theorem Spacious.recounted (h : w.Spacious) (hcounts : w.Recounted w') : w'.Spacious := by
  intro r object hobject
  obtain ⟨count, hbefore⟩ := hcounts.origin hobject
  rw [hcounts.memory]
  exact spacious_setCount (h r _ hbefore) object.count

/-- A block that an object lies in stays as it is unless it ends. -/
theorem Housed.kind_home (hw : w.Housed) {size : Nat} {ended made : Option Address}
    (h : w.memory.Answers size ended made m) (hobject : w.object? r = some object)
    (ha : object.home = some a) (hended : ended ≠ some a) :
    m.process.kind a = w.memory.process.kind a :=
  Process.kind_congr (h.kept ((hw.housed r object hobject).live a (Object.mem_blocks.2 (.inr ha)))
    hended).2

/-- After a step every object has the bytes that it needs. -/
theorem Step.spacious (h : w.Step strict w') (hw : w.Housed) (hspacious : w.Spacious) :
    w'.Spacious := by
  cases h with
  | recounted h => exact hspacious.recounted h
  | noticed => exact fun s other hother => spacious_congr (hspacious s other hother) fun _ _ => rfl
  | refused h =>
    intro s other hother
    exact spacious_congr (hspacious s other hother) fun a ha => hw.kind_home h hother ha nofun
  | @made type size body home m hmakes hroom h =>
    intro s other hother
    -- the new object got what it asked for, and older ones keep what they had
    rw [object?_made] at hother
    split at hother
    · cases hother
      refine ⟨fun a ha => ?_, fun length capacity buffer hbody => ?_⟩
      · cases ha
        exact hroom.trans (h.room home rfl)
      · obtain ⟨-, -, hcapacity, hbuffer⟩ := hmakes.list length capacity buffer hbody
        simp [hcapacity, hbuffer]
    · exact spacious_congr (hspacious s other hother) fun a ha => hw.kind_home h hother ha nofun
  | filled =>
    intro s other hother
    exact spacious_congr (hspacious s other hother) fun a _ => Process.kind_modifyPayload _ _ _ _
  | @rebuffered r object _ _ length capacity buffer b m hobject hbody hcapacity _ _ h =>
    intro s other hother
    -- the list has its new buffer; any other object is not moved
    rcases object?_of_reshaped hobject hother with ⟨-, rfl⟩ | ⟨hs, hother⟩
    · exact spacious_list rfl (by simp [hcapacity])
    · -- what ended was a buffer of the list, and nobody else lies in it
      refine spacious_congr (hspacious s other hother) fun a ha => hw.kind_home h hother ha ?_
      rw [← buffer_of_list hbody]
      exact hw.ne_buffer_of_ne hobject hs hother (Object.mem_blocks.2 (.inr ha))
  | @lengthened r object length capacity b hobject hbody hlt =>
    intro s other hother
    rcases object?_of_reshaped hobject hother with ⟨-, rfl⟩ | ⟨-, hother⟩
    · exact spacious_list rfl ((hspacious r object hobject).buffer length capacity _ hbody)
    · exact hspacious s other hother
  | @ended r object w₁ m hobject hle hcounts h =>
    have hw₁ := (hw.opened object).recounted hcounts
    obtain ⟨count, hobject₁⟩ := hcounts.opened_stays hobject
    have hopened : (w.opened object).Spacious := fun s other hother =>
      spacious_congr (hspacious s other hother) fun _ _ => rfl
    have hspacious₁ := hopened.recounted hcounts
    intro s other hother
    obtain ⟨hrs, hother⟩ := object?_of_without hother
    exact spacious_congr (hspacious₁ s other hother) fun a ha => Process.kind_congr
      (hw₁.same_of_clears hobject₁ h (Ne.symm hrs) hother (Object.mem_blocks.2 (.inr ha)))

/-! ### Departures -/

/-- The types of the objects that are gone. -/
def departed (w : World) : Multiset String := ↑(w.objects.toList.filterMap Object.parted?)

/-- The departures that were reported are those of the objects that are gone. -/
def Told (w : World) : Prop := (w.memory.process.departures : Multiset String) = w.departed

/-- The types of the objects that are gone depend on these objects only. -/
theorem departed_congr
    (h : ∀ r : Ref, (w'.objects[r]?).map Object.parted? = (w.objects[r]?).map Object.parted?) :
    w'.departed = w.departed := by
  have hfilter : ∀ objects : Array Object, objects.toList.filterMap Object.parted? =
      (objects.toList.map Object.parted?).filterMap id := fun objects => by
    rw [List.filterMap_map, Function.id_comp]
  rw [departed, departed, hfilter, hfilter, map_objects_congr h]

/-- Nobody goes when an object is changed that stays. -/
theorem departed_modify {f : Object → Object} (h : ∀ object, (f object).parted? = object.parted?) :
    (w.modify r f).departed = w.departed := by
  refine departed_congr fun s => ?_
  rw [modify, Array.getElem?_modify]
  split
  · rw [Option.map_map]
    exact congrFun (congrArg Option.map (funext h)) _
  · rfl

/-- Nobody goes when counts change. -/
theorem Recounted.departed (h : w.Recounted w') : w'.departed = w.departed := by
  refine departed_congr fun r => ?_
  rcases h.objects r with hr | ⟨-, count, hr⟩
  · rw [hr]
  · rw [hr, Option.map_map]
    rfl

/-- An object of a list goes. -/
theorem perm_parted_modify {objects : List Object} {i : Nat} (hi : objects[i]? = some object)
    (hlive : object.live = true) :
    ((objects.modify i fun object => { object with live := false }).filterMap Object.parted?).Perm
      (object.type.name :: objects.filterMap Object.parted?) := by
  induction objects generalizing i with
  | nil => cases hi
  | cons first rest ih =>
    cases i with
    | zero =>
      obtain rfl : first = object := by simpa using hi
      have hstays : first.parted? = none := by rw [Object.parted?, hlive]; rfl
      rw [List.modify_zero_cons, List.filterMap_cons_none hstays]
      exact .refl _
    | succ i =>
      have hrest := ih (i := i) (by simpa using hi)
      rw [List.modify_succ_cons]
      cases hfirst : first.parted? with
      | none =>
        rw [List.filterMap_cons_none hfirst, List.filterMap_cons_none hfirst]
        exact hrest
      | some name =>
        rw [List.filterMap_cons_some hfirst, List.filterMap_cons_some hfirst]
        exact (hrest.cons name).trans (.swap _ _ _)

/-- An object that ends is one more that is gone, and of its type. -/
theorem departed_without (hobject : w.object? r = some object) :
    (w.without r).departed = object.type.name ::ₘ w.departed := by
  obtain ⟨hr, hlive⟩ := object?_eq_some.1 hobject
  rw [World.departed, World.departed, Multiset.cons_coe, Multiset.coe_eq_coe, without, modify,
    Array.toList_modify]
  exact perm_parted_modify (by rw [Array.getElem?_toList]; exact hr) hlive

/-- A routine reports one departure, and that is the first thing it does. -/
theorem released_openingEvents (w : World) (object : Object) :
    (w.openingEvents object).filterMap Event.released? = [object.type.name] := by
  rw [openingEvents, List.filterMap_cons_some (show Event.released? _ = some _ from rfl)]
  cases object.type.routine <;> rfl

/-- A routine reports the type of the object that it ends. -/
theorem departures_opened (w : World) (object : Object) :
    (w.opened object).memory.process.departures =
      w.memory.process.departures ++ [object.type.name] := by
  show ((w.memory.process.events ++ (w.openingEvents object).toArray).toList).filterMap _ = _
  rw [Array.toList_append, List.toList_toArray, List.filterMap_append, released_openingEvents]
  rfl

/-- After a step the departures that were reported are those of the objects that are gone. -/
theorem Step.told (h : w.Step strict w') (htold : w.Told) : w'.Told := by
  cases h with
  | recounted h => rw [Told, h.memory, h.departed]; exact htold
  | noticed hevent =>
    rw [Told, show (w.report _).memory.process.departures = _ from
      (Process.sameDepartures_report _ hevent).departures]
    exact htold
  | refused h =>
    rw [Told, show (w.withMemory _).memory.process.departures = _ from h.departures]
    exact htold
  | @made type size body home m _ _ h =>
    -- a new object has not departed, so the table only grows by one that is alive
    have hobjects : (w.made m type body home).departed = w.departed := by
      show ((w.objects.push (fresh type body home)).toList.filterMap Object.parted? :
        Multiset String) = _
      rw [Array.toList_push, List.filterMap_append]
      exact congrArg _ (List.append_nil _)
    rw [Told, hobjects,
      show (w.made m type body home).memory.process.departures = _ from h.departures]
    exact htold
  | filled => exact htold
  | @rebuffered r _ _ _ length capacity _ b m _ _ _ _ _ h =>
    rw [Told, show (w.reshaped r _ m).departed = w.departed from departed_modify fun _ => rfl,
      show (w.reshaped r _ m).memory.process.departures = _ from h.departures]
    exact htold
  | lengthened =>
    rw [Told, show (w.reshaped _ _ _).departed = w.departed from departed_modify fun _ => rfl]
    exact htold
  | @ended r object w₁ m hobject _ hcounts h =>
    obtain ⟨count, hobject₁⟩ := hcounts.opened_stays hobject
    -- the object that ended departs in the table and in the reports at once
    have hgone : ((w₁.without r).withMemory m).departed = object.type.name ::ₘ w.departed := by
      show (w₁.without r).departed = _
      rw [departed_without hobject₁, hcounts.departed]
      rfl
    rw [Told, hgone,
      show ((w₁.without r).withMemory m).memory.process.departures = _ from h.departures,
      hcounts.memory, departures_opened, ← htold, Multiset.cons_coe, Multiset.coe_eq_coe]
    exact List.perm_append_singleton _ _

/-! ### Whatever is done -/

/-- Objects and blocks in use belong together, the counters are right, and the
departures were reported. -/
structure Provided (w : World) : Prop where
  housed : w.Housed
  lent : w.memory.lent = false
  tallied : w.memory.storage.Tallied
  bounded : w.memory.process.Bounded
  owned : w.Owned
  spacious : w.Spacious
  told : w.Told

/-- A thread starts without blocks. -/
theorem provided_new (system : System) (settings : AllocatorSettings) :
    (World.new system settings).Provided where
  housed := housed_new system settings
  lent := rfl
  tallied := Storage.tallied_new settings system
  bounded := Process.bounded_new system
  owned a ha := absurd (Process.lt_size_of_live ha) (Nat.not_lt_zero a)
  spacious r object hobject := by
    match r, (object?_new hobject).1 with
    | 0, _ | 1, _ | 2, _ =>
      cases hobject
      exact ⟨nofun, nofun⟩
  told := rfl

/-- After a step objects and blocks belong together, and all of it is accounted for. -/
theorem Step.provided (h : w.Step strict w') (hw : w.Provided) : w'.Provided where
  housed := h.housed hw.housed
  lent := h.orderly.lent hw.lent
  tallied := h.orderly.tallied hw.tallied
  bounded := h.orderly.bounded hw.bounded
  owned := h.owned hw.owned
  spacious := h.spacious hw.housed hw.spacious
  told := h.told hw.told

/-- After a release objects and blocks belong together, and all of it is accounted for. -/
theorem Wanes.provided (h : w.Wanes w') (hw : w.Provided) : w'.Provided :=
  (h.step : w.Step true w').provided hw

/-- After any steps objects and blocks belong together, and all of it is accounted for. -/
theorem Steps.provided (h : w.Steps strict w') (hw : w.Provided) : w'.Provided := by
  induction h with
  | refl => exact hw
  | tail _ hstep ih => exact hstep.provided ih

end World

end ExtensionHost
