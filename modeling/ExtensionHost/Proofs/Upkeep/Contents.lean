import ExtensionHost.Proofs.Box.Reading
import ExtensionHost.Proofs.Upkeep.Thread

/-!
# `ExtensionHost.Proofs.Upkeep.Contents`: objects hold what they were made with

From the step that makes it an object is left alone, but for its count and for the
buffer of a list, and so is its block, until it ends. `World.Sustains` says so of
texts, whose bytes stand in that block. It composes, because an object that is gone
stays gone, and is proved with one case for each kind of step.

What an object is made with depends on who makes it. The operations of the interface
that have no type to choose make objects that hold what their type stands for, and
when the others are held to that too, which is what makes a run `strict`, all objects
do in every world of the run: `laidOut_of_thread`. So the box of a type derived from
`int` has an integer in it, and that of a type derived from `str` has the bytes of a
text.
-/

set_option autoImplicit false

namespace ExtensionHost

open World

/-! ### What types stand for -/

namespace TypeObject

/-- The box of nothing has nothing in it. -/
theorem suits_none : none.Suits .nothing where
  integer h := absurd h (by decide)
  real h := absurd h (by decide)
  text h := absurd h (by decide)
  tuple h := absurd h (by decide)
  list h := absurd h (by decide)

/-- A truth value is kept as an integer. -/
theorem suits_bool (v : Int) : bool.Suits (.integer v) where
  integer _ := ⟨v, rfl⟩
  real h := absurd h (by decide)
  text h := absurd h (by decide)
  tuple h := absurd h (by decide)
  list h := absurd h (by decide)

/-- The buffer of a list may be any. -/
theorem Suits.relist {type : TypeObject} {length capacity length' capacity' : Nat}
    {buffer buffer' : Option Address} (h : type.Suits (.list length capacity buffer)) :
    type.Suits (.list length' capacity' buffer') where
  integer hsub := by obtain ⟨_, hbody⟩ := h.integer hsub; cases hbody
  real hsub := by obtain ⟨_, hbody⟩ := h.real hsub; cases hbody
  text hsub := by obtain ⟨_, hbody⟩ := h.text hsub; cases hbody
  tuple hsub := by obtain ⟨_, hbody⟩ := h.tuple hsub; cases hbody
  list _ := ⟨length', capacity', buffer', rfl⟩

end TypeObject

/-- Of the same type, with the same in it but for the buffer of a list. -/
structure Object.Resembles (object before : Object) : Prop where
  type : object.type = before.type
  suits : before.type.Suits before.body → object.type.Suits object.body
  text : ∀ length, object.body = .text length → before.body = .text length

/-- An object resembles itself. -/
theorem Object.Resembles.refl (object : Object) : object.Resembles object := ⟨rfl, id, fun _ => id⟩

/-- A count is no part of what objects resemble each other in. -/
theorem Object.resembles_setCount (object : Object) (count : Int) :
    object.Resembles { object with count } := ⟨rfl, id, fun _ => id⟩

/-- A list is a list whatever buffer it has. -/
theorem Object.resembles_list {object : Object} {length capacity length' capacity' : Nat}
    {buffer buffer' : Option Address} (hbody : object.body = .list length capacity buffer) :
    Object.Resembles { object with body := .list length' capacity' buffer' } object where
  type := rfl
  suits h := by
    rw [hbody] at h
    exact h.relist
  text _ h := by cases h

namespace World

variable {strict : Bool} {w w' w'' : World} {r s : Ref} {object other : Object} {m : Memory}
  {a : Address}

/-! ### Texts -/

/-- The object was there and is not any more. -/
def Gone (w : World) (r : Ref) : Prop :=
  ∃ object, w.objects[r]? = some object ∧ object.live = false

/-- An object that is gone is not found. -/
theorem Gone.object? (h : w.Gone r) : w.object? r = none := by
  obtain ⟨object, hobject, hlive⟩ := h
  simp [World.object?, hobject, hlive]

/-- Objects that are gone stay gone. A text that is there goes, or else its object
is what it was, but for its count, and its block holds what it held. -/
structure Sustains (w w' : World) : Prop where
  gone : ∀ r, w.Gone r → w'.Gone r
  text : ∀ r object length, w.object? r = some object → object.body = .text length →
    w'.Gone r ∨ ∃ count, w'.object? r = some { object with count } ∧
      w'.payloadOf object = w.payloadOf object

/-- A world sustains what is in it. -/
theorem Sustains.refl (w : World) : w.Sustains w :=
  ⟨fun _ h => h, fun _ object _ h _ => .inr ⟨object.count, h, rfl⟩⟩

/-- What is sustained twice is sustained. -/
theorem Sustains.trans (h : w.Sustains w') (h' : w'.Sustains w'') : w.Sustains w'' where
  gone r hr := h'.gone r (h.gone r hr)
  text r object length hobject hbody := by
    rcases h.text r object length hobject hbody with hgone | ⟨count, hobject', hpayload⟩
    · exact .inl (h'.gone r hgone)
    · rcases h'.text r _ length hobject' hbody with hgone | ⟨count', hobject'', hpayload'⟩
      · exact .inl hgone
      · exact .inr ⟨count', hobject'', hpayload'.trans hpayload⟩

/-- The objects are what they were, and no block of a text is touched. -/
theorem sustains_of_objects (hobjects : w'.objects = w.objects)
    (hsame : ∀ r object a length, w.object? r = some object → object.body = .text length →
      object.home = some a → w'.memory.process.payload a = w.memory.process.payload a) :
    w.Sustains w' where
  gone r hr := by
    rw [Gone, hobjects]
    exact hr
  text r object length hobject hbody := by
    refine .inr ⟨object.count, ?_, payloadOf_congr fun a ha => ?_⟩
    · rw [World.object?, hobjects]
      exact hobject
    · exact hsame r object a length hobject hbody ha

/-- The block of an object is among those that stay. -/
theorem payloadOf_of_blocks
    (h : ∀ a ∈ object.blocks, w'.memory.process.blocks[a]? = w.memory.process.blocks[a]?) :
    w'.payloadOf object = w.payloadOf object :=
  payloadOf_congr fun a ha => Process.payload_congr (h a (Object.mem_blocks.2 (.inr ha)))

/-- Storage that no object lies in changes. -/
theorem sustains_of_storage (hobjects : w'.objects = w.objects)
    (hsame : ∀ s other, w.object? s = some other → ∀ a ∈ other.blocks,
      w'.memory.process.blocks[a]? = w.memory.process.blocks[a]?) : w.Sustains w' :=
  sustains_of_objects hobjects fun r object a _ hobject _ ha =>
    Process.payload_congr (hsame r object hobject a (Object.mem_blocks.2 (.inr ha)))

/-- Counts are no part of what is sustained. -/
theorem Recounted.sustains (h : w.Recounted w') : w.Sustains w' where
  gone r hr := by
    obtain ⟨object, hobject, hlive⟩ := hr
    rcases h.objects r with hsame | ⟨-, count, hcount⟩
    · exact ⟨object, hsame.trans hobject, hlive⟩
    · exact ⟨{ object with count }, by rw [hcount, hobject]; rfl, hlive⟩
  text r object _ hobject _ := by
    obtain ⟨count, hobject'⟩ := h.stays hobject
    exact .inr ⟨count, hobject', payloadOf_congr fun a _ => by rw [h.memory]⟩

/-- A new object sustains the others, if their blocks stay as they are. -/
theorem sustains_made {type : TypeObject} {body : Body} {home : Address}
    (hsame : ∀ s other, w.object? s = some other → ∀ a ∈ other.blocks,
      m.process.blocks[a]? = w.memory.process.blocks[a]?) :
    w.Sustains (w.made m type body home) where
  gone r hr := by
    obtain ⟨object, hobject, hlive⟩ := hr
    have hlt := (Array.getElem?_eq_some_iff.1 hobject).1
    refine ⟨object, ?_, hlive⟩
    rw [made, Array.getElem?_push_lt hlt, ← hobject, Array.getElem?_eq_getElem hlt]
  text r object _ hobject _ := by
    have hthere : w.object? r ≠ none := by
      rw [hobject]
      exact Option.some_ne_none object
    exact .inr ⟨object.count, (object?_made_of_some hthere).trans hobject,
      payloadOf_of_blocks (hsame r object hobject)⟩

/-- Nothing that is done to an object brings it back. -/
theorem Gone.modify {f : Object → Object} (h : w.Gone s)
    (hf : ∀ object, object.live = false → (f object).live = false) : (w.modify r f).Gone s := by
  obtain ⟨object, hobject, hlive⟩ := h
  refine ⟨if r = s then f object else object, ?_, ?_⟩
  · rw [World.modify, Array.getElem?_modify, hobject]
    split <;> rfl
  · split
    · exact hf object hlive
    · exact hlive

/-- Another object gets a body, which is none of a text. -/
theorem sustains_reshaped {body : Body} (hobject : w.object? r = some object)
    (hbody : ∀ length, object.body ≠ .text length)
    (hsame : ∀ s other, s ≠ r → w.object? s = some other → ∀ a ∈ other.blocks,
      m.process.blocks[a]? = w.memory.process.blocks[a]?) :
    w.Sustains (w.reshaped r body m) where
  gone _ hs := hs.modify fun _ hlive => hlive
  text s other length hother htext := by
    have hne : s ≠ r := by
      rintro rfl
      obtain rfl := Option.some.inj (hother.symm.trans hobject)
      exact hbody length htext
    refine .inr ⟨other.count, ?_, payloadOf_of_blocks (hsame s other hne hother)⟩
    rw [object?_reshaped, if_neg (Ne.symm hne), hother]

/-- An object ends and its blocks are freed. -/
theorem sustains_ended (h : w.Housed) (hobject : w.object? r = some object)
    (hclears : w.memory.Clears object.blocks m) : w.Sustains ((w.without r).withMemory m) where
  gone _ hs := hs.modify fun _ _ => rfl
  text s other length hother _ := by
    by_cases hne : s = r
    · subst hne
      refine .inl ⟨{ other with live := false }, ?_, rfl⟩
      show (w.objects.modify s _)[s]? = _
      rw [Array.getElem?_modify, if_pos rfl, (object?_eq_some.1 hother).1]
      rfl
    · refine .inr ⟨other.count, ?_, payloadOf_of_blocks fun a ha => ?_⟩
      · exact ((object?_without w r s).trans (if_neg (Ne.symm hne))).trans hother
      · exact h.same_of_clears hobject hclears hne hother ha

/-- Texts have no slots. -/
theorem SlotsAt.not_text {start length index size : Nat} (h : SlotsAt object a start length)
    (hindex : index < length) (w : World) : object.body ≠ .text size := by
  intro hbody
  have hlength : 0 = length := by
    have htable := h.table w
    rw [slotTable, hbody] at htable
    exact congrArg Prod.fst htable
  omega

/-- One step sustains what is in the world. -/
theorem Step.sustains (h : w.Step strict w') (hw : w.Housed) : w.Sustains w' := by
  cases h with
  | recounted h => exact h.sustains
  | noticed => exact sustains_of_objects rfl fun _ _ _ _ _ _ _ => rfl
  | refused h =>
    exact sustains_of_storage rfl fun s other hs => hw.same_of_hands h.hands hs
  | made _ _ h => exact sustains_made fun s other hs => hw.same_of_hands h.hands hs
  | @filled r object a start length index hobject hat hindex item =>
    -- a slot was written; a text in the same block would be of the same object, which has
    -- slots and so is no text
    refine sustains_of_objects rfl fun s other b _ hother htext hb =>
      Process.payload_modifyPayload_of_ne ?_ _
    rintro rfl
    obtain rfl := hw.apart s r other object hother hobject b (Object.mem_blocks.2 (.inr hb)) hat.mem
    obtain rfl := Option.some.inj (hother.symm.trans hobject)
    exact hat.not_text hindex w htext
  | @rebuffered r object _ _ length capacity buffer b m hobject hbody _ _ _ h =>
    rw [← buffer_of_list hbody] at h
    have hbuffer := hw.bufferAt hobject h
    exact sustains_reshaped hobject (by simp [hbody]) fun s other hs hother a ha =>
      (hbuffer.others s other hs hother a ha).2
  | lengthened hobject hbody _ =>
    exact sustains_reshaped hobject (by simp [hbody]) fun _ _ _ _ _ _ => rfl
  | @ended r object w₁ m hobject _ hcounts h =>
    -- what ended is no longer asked about, and others lie in blocks of their own
    have hopened : w.Sustains (w.opened object) := sustains_of_objects rfl fun _ _ _ _ _ _ _ => rfl
    have hw₁ := (hw.opened object).recounted hcounts
    obtain ⟨count, hobject₁⟩ := hcounts.opened_stays hobject
    exact (hopened.trans hcounts.sustains).trans (sustains_ended hw₁ hobject₁ h)

/-- What keeps objects in blocks of their own and sustains texts does so however often
it happens. -/
theorem sustains_of_each {R : World → World → Prop}
    (hR : ∀ {w w' : World}, R w w' → w.Housed → w'.Housed ∧ w.Sustains w')
    (h : Relation.ReflTransGen R w w') (hw : w.Housed) : w'.Housed ∧ w.Sustains w' := by
  induction h with
  | refl => exact ⟨hw, .refl w⟩
  | tail _ hlast ih =>
    obtain ⟨hhoused, hsustains⟩ := hR hlast ih.1
    exact ⟨hhoused, ih.2.trans hsustains⟩

/-- Steps sustain what is in the world. -/
theorem Steps.sustains (h : w.Steps strict w') (hw : w.Housed) :
    w'.Housed ∧ w.Sustains w' :=
  sustains_of_each (fun hstep hw => ⟨hstep.housed hw, hstep.sustains hw⟩) h hw

/-! ### All objects -/

/-- Every object holds what its type stands for, and the bytes of every text are there. -/
def LaidOut (w : World) : Prop :=
  ∀ r object, w.object? r = some object → Fitted object.type object.body (w.payloadOf object)

/-- At first every object holds what its type stands for. -/
theorem laidOut_new (system : System) (settings : AllocatorSettings) :
    (World.new system settings).LaidOut := by
  intro r object hobject
  match r, (object?_new hobject).1 with
  | 0, _ =>
    cases hobject
    exact TypeObject.suits_none.fitted (fun _ h => by cases h) _
  | 1, _ =>
    cases hobject
    exact (TypeObject.suits_bool 1).fitted (fun _ h => by cases h) _
  | 2, _ =>
    cases hobject
    exact (TypeObject.suits_bool 0).fitted (fun _ h => by cases h) _

/-- An object that is there after a step was there before, or has just been made. -/
theorem Step.origin (h : w.Step true w') (hobject : w'.object? r = some object) :
    (∃ before, w.object? r = some before ∧ object.Resembles before) ∨
      Fitted object.type object.body (w'.payloadOf object) := by
  cases h with
  | recounted h =>
    obtain ⟨count, hbefore⟩ := h.origin hobject
    exact .inl ⟨_, hbefore, object.resembles_setCount count⟩
  | noticed | refused | filled => exact .inl ⟨object, hobject, .refl object⟩
  | made _ _ _ hfitted =>
    rw [object?_made] at hobject
    split at hobject
    · cases hobject
      exact .inr (hfitted rfl)
    · exact .inl ⟨object, hobject, .refl object⟩
  | rebuffered hlist hbody | lengthened hlist hbody =>
    rcases object?_of_reshaped hlist hobject with ⟨rfl, rfl⟩ | ⟨-, hother⟩
    · exact .inl ⟨_, hlist, Object.resembles_list hbody⟩
    · exact .inl ⟨object, hother, .refl object⟩
  | ended _ _ hcounts _ =>
    obtain ⟨-, hother⟩ := object?_of_without hobject
    obtain ⟨count, hbefore⟩ := hcounts.origin hother
    exact .inl ⟨_, hbefore, object.resembles_setCount count⟩

/-- After a strict step every object holds what its type stands for. -/
theorem Step.laidOut (h : w.Step true w') (hw : w.Housed) (hlaid : w.LaidOut) : w'.LaidOut := by
  intro r object hobject
  rcases h.origin hobject with ⟨before, hbefore, hresembles⟩ | hfitted
  · obtain ⟨hsuits, htext⟩ := hlaid r before hbefore
    refine ⟨hresembles.suits hsuits, fun length hbody => ?_⟩
    obtain ⟨text, hsize, hread⟩ := htext length (hresembles.text length hbody)
    refine ⟨text, hsize, ?_⟩
    -- the object is still there, so its block is what it was
    rcases (h.sustains hw).text r before length hbefore (hresembles.text length hbody) with
      hgone | ⟨count, hsame, hpayload⟩
    · rw [hgone.object?] at hobject
      cases hobject
    · obtain rfl := Option.some.inj (hobject.symm.trans hsame)
      rw [← hread, ← hpayload]
      rfl
  · exact hfitted

/-- After strict steps every object holds what its type stands for. -/
theorem Steps.laidOut (h : w.Steps true w') (hw : w.Provided) (hlaid : w.LaidOut) :
    w'.LaidOut := by
  induction h with
  | refl => exact hlaid
  | tail hsteps hstep ih => exact hstep.laidOut (Steps.provided hsteps hw).housed ih

end World

/-- In a strict run every object holds what its type stands for, at any time. -/
theorem laidOut_of_thread {system : System} {settings : AllocatorSettings} {w : World}
    {owned : Multiset Ref} (h : Thread true system settings w owned) : w.LaidOut :=
  Steps.laidOut h.steps (provided_new system settings) (laidOut_new system settings)

end ExtensionHost
