import ExtensionHost.Proofs.Object.Create
import ExtensionHost.Proofs.Storage.Debts
import ExtensionHost.Proofs.Storage.Departures

/-!
# `ExtensionHost.Proofs.Object.Additions`: what is added to a world

`World.Grows` says that nothing goes. `World.Adds` says what comes: which references
were taken, which objects were made, and that nothing else is different, counts and
storage included. It composes, so what an operation adds is what its parts add, one
part after the other.

A count that has come to 2^62 is not raised any more, so how far a count is raised by
several references does not depend on the count alone: `raised` says it in closed form.
-/

set_option autoImplicit false

namespace ExtensionHost

namespace World

variable {w w' w'' : World} {r s : Ref} {object : Object} {owned : Multiset Ref}
  {filled filled' refs refs' made made' : List Ref}

/-! ### Counts that are raised -/

/-- A count after some more references were taken. One that has come to the count of
immortal objects stays there. -/
def raised (count : Int) (more : Nat) : Int := max count (min (count + more) immortalCount)

/-- No reference more leaves the count. -/
@[simp] theorem raised_zero (count : Int) : raised count 0 = count := by
  unfold raised
  omega

/-- References that are added do not lower a count. -/
theorem le_raised (count : Int) (more : Nat) : count ≤ raised count more := Int.le_max_left _ _

/-- References can be added one after the other. -/
theorem raised_add (count : Int) (more more' : Nat) :
    raised (raised count more) more' = raised count (more + more') := by
  unfold raised
  omega

/-- References that are added do not change the count of an immortal object. -/
theorem raised_of_immortal {count : Int} (h : immortalCount ≤ count) (more : Nat) :
    raised count more = count := by
  unfold raised
  omega

/-- As long as the limit is not reached every reference counts. -/
theorem raised_of_le {count : Int} {more : Nat} (h : count + more ≤ immortalCount) :
    raised count more = count + more := by
  unfold raised
  omega

/-! ### What is added -/

/-- The blocks of an object that is there. -/
def blocksOf (w : World) (r : Ref) : List Address := (w.object? r).elim [] Object.blocks

/-- The blocks of an object are those of its body and its home. -/
theorem blocksOf_of_object? (h : w.object? r = some object) : w.blocksOf r = object.blocks := by
  rw [blocksOf, h, Option.elim_some]

/-- The references in `refs` were taken, the objects in `made` were made one after the
other, each with one reference to it, and nothing else was done to objects and storage but
that slots of the objects in `filled` were filled. -/
structure Adds (w : World) (filled refs made : List Ref) (w' : World) : Prop where
  stays : ∀ s object, w.object? s = some object →
    w'.object? s = some { object with count := raised object.count (refs.count s) }
  absent : ∀ s, w.object? s = none → s ∉ made → w'.object? s = none
  slots : ∀ s object, w.object? s = some object → s ∉ filled → w'.slots s = w.slots s
  text : ∀ s object length, w.object? s = some object → object.body = .text length →
    w'.payloadOf object = w.payloadOf object
  size : w'.objects.size = w.objects.size + made.length
  order : made = List.range' w.objects.size made.length
  single : ∀ s ∈ made, w'.count? s = some 1
  draws : w.memory.Draws (made.flatMap w'.blocksOf) w'.memory
  departures : w'.memory.process.departures = w.memory.process.departures

/-- What was made was not there before. -/
theorem Adds.le_of_mem (h : w.Adds filled refs made w') (hs : s ∈ made) : w.objects.size ≤ s := by
  rw [h.order] at hs
  exact (List.mem_range'_1.1 hs).1

/-- Objects that were made are there. -/
theorem Adds.alive (h : w.Adds filled refs made w') (hs : s ∈ made) : (w'.object? s).isSome := by
  rw [← isSome_count?, h.single s hs]
  rfl

/-- Objects that were made were not there before. -/
theorem Adds.fresh (h : w.Adds filled refs made w') (hs : s ∈ made) : w.object? s = none := by
  cases hobject : w.object? s with
  | none => rfl
  | some object => exact absurd (h.le_of_mem hs) (Nat.not_le.2 (lt_size_of_object? hobject))

/-- No object was made twice. -/
theorem Adds.nodup (h : w.Adds filled refs made w') : made.Nodup := by
  rw [h.order]
  exact List.nodup_range'

/-- Adding objects grows the world. -/
theorem Adds.grows (h : w.Adds filled refs made w') : w.Grows filled w' where
  stays s object hs := ⟨_, h.stays s object hs⟩
  slots := h.slots

/-- Who is there was there before or was made. -/
theorem Adds.origin (h : w.Adds filled refs made w') (hs : (w'.object? s).isSome) :
    (w.object? s).isSome ∨ s ∈ made := by
  cases hbefore : w.object? s with
  | some object => exact .inl rfl
  | none =>
    refine .inr (Classical.byContradiction fun hmem => ?_)
    rw [h.absent s hbefore hmem] at hs
    cases hs

/-- Doing nothing adds nothing. -/
theorem Adds.refl (w : World) (filled : List Ref) : w.Adds filled [] [] w where
  stays s object hs := by rw [List.count_nil, raised_zero, hs]
  absent _ hs _ := hs
  slots _ _ _ _ := rfl
  text _ _ _ _ _ := rfl
  size := rfl
  order := rfl
  single _ hs := absurd hs List.not_mem_nil
  draws := (Memory.Alike.refl _).draws
  departures := rfl

/-- More slots may be allowed to change. -/
theorem Adds.mono (h : w.Adds filled refs made w') (hsub : filled ⊆ filled') :
    w.Adds filled' refs made w' :=
  { h with slots := fun s object hs hn => h.slots s object hs fun hmem => hn (hsub hmem) }

/-- The blocks of an object stay when references are taken and others are made. -/
theorem Adds.blocksOf_eq (h : w.Adds filled refs made w') (hs : (w.object? s).isSome) :
    w'.blocksOf s = w.blocksOf s := by
  obtain ⟨object, hobject⟩ := Option.isSome_iff_exists.1 hs
  rw [blocksOf_of_object? hobject, blocksOf_of_object? (h.stays s object hobject)]
  rfl

/-- Nobody takes a second reference to what was made before. It may be filled. -/
theorem Adds.trans (h : w.Adds filled refs made w') (h' : w'.Adds filled' refs' made' w'')
    (hrefs : ∀ s ∈ refs', s ∉ made) (hfilled : ∀ s ∈ filled', s ∈ filled ∨ w.object? s = none) :
    w.Adds filled (refs ++ refs') (made ++ made') w'' where
  stays s object hs := by
    rw [h'.stays s _ (h.stays s object hs), List.count_append, ← raised_add]
  absent s hs hn := by
    obtain ⟨hmade, hmade'⟩ := not_or.1 (mt List.mem_append.2 hn)
    exact h'.absent s (h.absent s hs hmade) hmade'
  slots s object hs hn := by
    -- what is filled later was filled before or is new, so a slot seen here is neither
    have hn' : s ∉ filled' := by
      intro hmem
      rcases hfilled s hmem with hmem | hnone
      · exact hn hmem
      · rw [hnone] at hs
        cases hs
    rw [h'.slots s _ (h.stays s object hs) hn', h.slots s object hs hn]
  text s object length hs hbody :=
    (h'.text s _ length (h.stays s object hs) hbody).trans (h.text s object length hs hbody)
  size := by rw [h'.size, h.size, List.length_append, Nat.add_assoc]
  order := by
    rw [List.length_append, ← List.range'_append_1, ← h.size, ← h'.order, ← h.order]
  single s hs := by
    rcases List.mem_append.1 hs with hs | hs
    · obtain ⟨object, hobject, hcount⟩ := count?_eq_some.1 (h.single s hs)
      have hnone : refs'.count s = 0 := List.count_eq_zero.2 fun hmem => hrefs s hmem hs
      rw [count?_of_object? (h'.stays s object hobject), hnone, raised_zero, hcount]
    · exact h'.single s hs
  draws := by
    have hblocks : made.flatMap w''.blocksOf = made.flatMap w'.blocksOf :=
      List.flatMap_congr fun s hs => h'.blocksOf_eq (h.alive hs)
    rw [List.flatMap_append, hblocks]
    exact h.draws.trans h'.draws
  departures := h'.departures.trans h.departures

/-! ### One more reference -/

/-- Taking a reference leaves all but the count of one object. -/
theorem object?_retain (w : World) (r s : Ref) :
    (w.retain r).object? s = (w.object? s).map fun object =>
      { object with count := raised object.count (if r = s then 1 else 0) } := by
  cases hobject : w.object? r with
  | none =>
    have hsame : w.retain r = w := by simp only [World.retain, hobject]
    rw [hsame]
    cases hs : w.object? s with
    | none => rfl
    | some other =>
      have hrs : r ≠ s := by
        rintro rfl
        rw [hobject] at hs
        cases hs
      rw [if_neg hrs, Option.map_some, raised_zero]
  | some object =>
    rcases retain_cases hobject with ⟨himm, hsame⟩ | ⟨hmortal, hsame⟩
    -- an immortal count does not move, and raising it is no change either
    · rw [hsame]
      cases hs : w.object? s with
      | none => rfl
      | some other =>
        by_cases hrs : r = s
        · subst hrs
          obtain rfl : object = other := Option.some.inj (hobject.symm.trans hs)
          rw [Option.map_some, raised_of_immortal (of_decide_eq_true himm)]
        · rw [if_neg hrs, Option.map_some, raised_zero]
    · have hlt := Int.lt_of_not_ge (of_decide_eq_false hmortal)
      rw [hsame, object?_setCount]
      cases hs : w.object? s with
      | none => rw [Option.map_none, Option.map_none, ite_self]
      | some other =>
        by_cases hrs : r = s
        · subst hrs
          obtain rfl : object = other := Option.some.inj (hobject.symm.trans hs)
          rw [if_pos rfl, if_pos rfl, Option.map_some, Option.map_some, raised_of_le (by omega)]
          rfl
        · rw [if_neg hrs, if_neg hrs, Option.map_some, raised_zero]

/-- Taking a reference changes a count and nothing else. -/
theorem retain_eq (w : World) (r : Ref) :
    ∃ objects, w.retain r = { w with objects } ∧ objects.size = w.objects.size := by
  cases hobject : w.object? r with
  | none => exact ⟨w.objects, by simp only [World.retain, hobject], rfl⟩
  | some object =>
    rcases retain_cases hobject with ⟨-, hsame⟩ | ⟨-, hsame⟩
    · exact ⟨w.objects, hsame, rfl⟩
    · exact ⟨_, hsame, Array.size_modify ..⟩

/-- Taking a reference adds that reference and no object. -/
theorem adds_retain (w : World) (r : Ref) (filled : List Ref) :
    w.Adds filled [r] [] (w.retain r) := by
  obtain ⟨objects, hsame, hsize⟩ := w.retain_eq r
  have hmemory : (w.retain r).memory = w.memory := by rw [hsame]
  refine ⟨fun s object hs => ?_, fun s hs _ => ?_, fun s object hs hn => ?_,
    fun s object length _ _ => ?_, by rw [hsame]; exact hsize, rfl, nofun, ?_, by rw [hmemory]⟩
  · rw [object?_retain, hs, Option.map_some, List.count_singleton]
    simp only [beq_iff_eq]
  · rw [object?_retain, hs, Option.map_none]
  · exact (grows_retain w r filled).slots s object hs hn
  · rw [payloadOf, payloadOf, hmemory]
  · rw [hmemory]
    exact (Memory.Alike.refl _).draws

/-- The first objects are immortal, so there is nothing to count. -/
theorem retain_first (h : w.Housed) (hr : r < 3) : w.retain r = w := by
  cases hobject : w.object? r with
  | none => simp only [World.retain, hobject]
  | some object => simp only [World.retain, hobject, (h.first hobject hr).1, if_true]

/-! ### One more object -/

variable {type : TypeObject} {body : Body} {home : Address} {m : Memory} {event : Event}

/-- An object is made in a block that was handed out for it. -/
theorem adds_made {size : Nat} (h : w.Housed)
    (hhands : w.memory.process.Hands size (some home) m.process)
    (hdraws : w.memory.Draws [home] m)
    (hdepart : m.process.departures = w.memory.process.departures)
    (hblocks : (World.fresh type body home).blocks = [home]) (hevent : event.released? = none)
    (filled : List Ref) :
    w.Adds filled [] [w.objects.size] ((w.made m type body home).report event) := by
  -- the new object is the next one, and every other one is where it was
  have hlookup : ∀ s, ((w.made m type body home).report event).object? s =
      if s = w.objects.size then some (World.fresh type body home) else w.object? s :=
    object?_made
  have hsame : ∀ s object, w.object? s = some object → ∀ a ∈ object.blocks,
      m.process.blocks[a]? = w.memory.process.blocks[a]? :=
    fun s object hs => h.same_of_hands hhands hs
  have hstays : ∀ s object, w.object? s = some object →
      ((w.made m type body home).report event).object? s = some object := fun s object hs => by
    rw [hlookup, if_neg (Nat.ne_of_lt (lt_size_of_object? hs)), hs]
  refine ⟨fun s object hs => ?_, fun s hs hn => ?_, fun s object hs _ => ?_,
    fun s object length hs _ => ?_, Array.size_push _, rfl, fun s hs => ?_, ?_, ?_⟩
  · rw [hstays s object hs, List.count_nil, raised_zero]
  · rw [hlookup, if_neg (fun heq => hn (List.mem_singleton.2 heq)), hs]
  · rw [slots_of_object? hs, slots_of_object? (hstays s object hs)]
    exact slotsOf_congr fun a ha => Process.payload_congr (hsame s object hs a ha)
  · rw [payloadOf, payloadOf]
    cases hhome : object.home with
    | none => rfl
    | some a =>
      exact Process.payload_congr (hsame s object hs a (Object.mem_blocks.2 (.inr hhome)))
  · rw [count?, hlookup, if_pos (List.mem_singleton.1 hs)]
    rfl
  · rw [List.flatMap_singleton, blocksOf, hlookup, if_pos rfl, Option.elim_some, hblocks]
    have hreport := ((Memory.Alike.refl m).report event).draws
    exact hdraws.trans hreport
  · exact ((Process.sameDepartures_report m.process hevent).departures).trans hdepart

end World

end ExtensionHost
