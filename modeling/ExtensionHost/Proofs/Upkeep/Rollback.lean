import ExtensionHost.Proofs.Argument.Construction
import ExtensionHost.Proofs.Upkeep.LeakFreedom

/-!
# `ExtensionHost.Proofs.Upkeep.Rollback`: what is left of a construction that failed

A construction may run out of storage at any of its requests, in whatever state the
allocator is and with tuples around it that are filled in part. Nothing is left of it
then: `RolledBack` compares the world after it with the one before, and
`rolledBack_of_failure` says that of values, lists and tuples of items.

The walk that fails is in `Proofs.Argument.Assembly`, and it ends in `World.Refused`.
What is added here is the comparison of the two ends (`Refused.rolledBack`). The
references of the caller are the same at both, and from that the rest follows: what
was made is gone, blocks that were taken were given back, and a count, which is the
number of references, is the one that it was. The last fails for an object that came
to the limit of 2^62 references on the way. It is immortal from then on, so what was
taken is not given back (`count_build_crowded`).
-/

set_option autoImplicit false

namespace ExtensionHost

open World Box Argument

namespace World

variable {w w' reached : World} {r s : Ref} {object : Object} {owned : Multiset Ref}
  {ended filled refs made : List Ref} {e : ApiError} {base : Nat}

/-- The world is as it was, but for a table of objects that is longer by objects that are
gone. Counts are what they were, too. The exception are counts that came to that of
immortal objects on the way: to them the references in `refs` were added, and nothing is
taken off such a count. -/
structure RolledBack (w : World) (refs : List Ref) (w' : World) : Prop where
  alive : ∀ s, (w'.object? s).isSome ↔ (w.object? s).isSome
  stays : ∀ s object, w.object? s = some object → ∃ count,
    w'.object? s = some { object with count } ∧
      (count = object.count ∨ object.count < immortalCount ∧
        immortalCount ≤ object.count + refs.count s ∧ count = immortalCount)
  slots : ∀ s, w'.slots s = w.slots s
  departures : ∃ gone, w'.memory.process.departures = w.memory.process.departures ++ gone ∧
    gone.Perm ((w'.objects.toList.drop w.objects.size).map (·.type.name))
  usage : w'.usage = w.usage
  blocks : ∀ a, w'.memory.process.Live a ↔ w.memory.process.Live a

/-- A world is rolled back to itself. -/
theorem RolledBack.refl (w : World) (refs : List Ref) : w.RolledBack refs w where
  alive _ := .rfl
  stays _ object hs := ⟨object.count, hs, .inl rfl⟩
  slots _ := rfl
  departures := by
    refine ⟨[], (List.append_nil _).symm, ?_⟩
    rw [List.drop_of_length_le (Nat.le_of_eq Array.length_toList)]
    exact .nil
  usage := rfl
  blocks _ := .rfl

/-- The names of the objects that were made stand at the end of the table. -/
theorem Adds.names (h : w.Adds filled refs made w') :
    made.map w'.nameOf = (w'.objects.toList.drop w.objects.size).map (·.type.name) := by
  apply List.ext_getElem?
  intro i
  have hplace : (w'.objects.toList.drop w.objects.size)[i]? = w'.objects[w.objects.size + i]? := by
    rw [List.getElem?_drop, Array.getElem?_toList]
  rw [h.order, List.getElem?_map, List.getElem?_map, hplace]
  by_cases hi : i < made.length
  · have hlt : w.objects.size + i < w'.objects.size := by
      rw [h.size]
      omega
    rw [List.getElem?_range' hi, Option.map_some, nameOf, Nat.one_mul,
      Array.getElem?_eq_getElem hlt]
    rfl
  · have hle : w'.objects.size ≤ w.objects.size + i := by
      rw [h.size]
      omega
    rw [Array.getElem?_eq_none hle, List.getElem?_eq_none (by rw [List.length_range']; omega)]
    rfl

/-- What was made and what went are the same. -/
theorem Adds.perm_ended (h : w.Adds [] refs made reached) (hsheds : reached.Sheds ended w')
    (hspares : ∀ s ∈ ended, w.object? s = none) (hgone : ∀ s ∈ made, w'.object? s = none) :
    ended.Perm made := by
  refine (List.perm_ext_iff_of_nodup hsheds.nodup h.nodup).2 fun s => ⟨fun hs => ?_, fun hs => ?_⟩
  · refine (h.origin (hsheds.alive s hs)).resolve_left ?_
    rw [hspares s hs]
    exact Bool.false_ne_true
  · by_contra hnot
    obtain ⟨object, hobject⟩ := Option.isSome_iff_exists.1 (h.alive hs)
    obtain ⟨count, hstays, -⟩ := hsheds.leaves.stays s object hobject hnot
    rw [hgone s hs] at hstays
    cases hstays

/-- The table keeps the types of objects that are gone. -/
theorem Sheds.names (h : w.Sheds ended w') (n : Nat) :
    (w'.objects.toList.drop n).map (·.type.name) = (w.objects.toList.drop n).map (·.type.name) := by
  have htypes := map_objects_congr (f := (·.type)) h.types
  have hmap : ∀ objects : List Object, (objects.drop n).map (·.type.name) =
      ((objects.map (·.type)).drop n).map TypeObject.name := fun objects => by
    rw [← List.map_drop, List.map_map]
    rfl
  rw [hmap, hmap, htypes]

/-- Who is there now was there before, if all that was made is gone. -/
theorem Adds.origin_settled (h : w.Adds [] refs made reached) (hleaves : reached.Leaves ended w')
    (hgone : ∀ s ∈ made, w'.object? s = none) (hs : (w'.object? s).isSome) :
    (w.object? s).isSome := by
  rcases h.origin (hleaves.isSome hs) with hbefore | hmade
  · exact hbefore
  · rw [hgone s hmade] at hs
    cases hs

/-- When whatever was made is gone again, the slots of all objects are what they were. -/
theorem Adds.slots_settled (h : w.Adds [] refs made reached) (hleaves : reached.Leaves ended w')
    (hspares : ∀ s ∈ ended, w.object? s = none) (hgone : ∀ s ∈ made, w'.object? s = none)
    (s : Ref) :
    w'.slots s = w.slots s := by
  cases hs : w.object? s with
  | some object =>
    have hstays : s ∉ ended := fun hmem => by
      rw [hspares s hmem] at hs
      cases hs
    rw [hleaves.slots s hstays, h.slots s object hs List.not_mem_nil]
  | none =>
    have hnone : w'.object? s = none := by
      cases hobject : w'.object? s with
      | none => rfl
      | some object =>
        have hbefore := h.origin_settled hleaves hgone (s := s) (by rw [hobject]; rfl)
        rw [hs] at hbefore
        cases hbefore
    rw [slots_of_none hnone, slots_of_none hs]

/-- A count that was raised and went down again is what it was, since it is again the
number of references. It may have become that of an immortal object on the way. -/
theorem Sound.count_settled (hsound : w.Sound owned) (hsound' : w'.Sound owned)
    (hheld : w'.held [] = w.held []) {count count' : Int} {more : Nat}
    (hbefore : w.count? s = some count) (hafter : w'.count? s = some count')
    (hle : count' ≤ raised count more) (himmortal : immortalCount ≤ count → count' = count) :
    count' = count ∨
      count < immortalCount ∧ immortalCount ≤ count + more ∧ count' = immortalCount := by
  by_cases hlt : count < immortalCount
  · by_cases hlt' : count' < immortalCount
    -- both counts are exact, and nobody has a reference more or less
    · left
      rw [hsound.counted.exact s count hbefore hlt, hsound'.counted.exact s count' hafter hlt',
        hheld]
    · right
      unfold raised at hle
      omega
  · exact .inl (himmortal (Int.not_lt.1 hlt))

/-- When the caller has the references that it had before, an operation that gave up what
it made has left nothing behind. -/
theorem Refused.rolledBack (h : w.Refused [] refs w.objects.size e w') (hsound : w.Sound owned)
    (hsound' : w'.Sound owned) : w.RolledBack refs w' := by
  cases h with
  | @intro reached _ taken made ended size adds sub tiered lacks sheds spares =>
    have hgone : ∀ s ∈ made, w'.object? s = none := fun s hs =>
      adds.withdrawn sheds.leaves hsound hsound' tiered hs
    have hperm := adds.perm_ended sheds spares hgone
    have hslots := adds.slots_settled sheds.leaves spares hgone
    have hheld : w'.held [] = w.held [] :=
      held_congr fun s => by rw [contents, contents, hslots]
    have hstays : ∀ s object, w.object? s = some object → ∃ count,
        w'.object? s = some { object with count } ∧
          (count = object.count ∨ object.count < immortalCount ∧
            immortalCount ≤ object.count + refs.count s ∧ count = immortalCount) := by
      intro s object hs
      have hspared : s ∉ ended := fun hmem => by
        rw [spares s hmem] at hs
        cases hs
      obtain ⟨count, hobject', hle, himmortal⟩ :=
        sheds.leaves.stays s _ (adds.stays s object hs) hspared
      -- neither the references that were taken nor those given up are counted then
      have hkept : immortalCount ≤ object.count → count = object.count := fun himm => by
        have hraised := raised_of_immortal himm (taken.count s)
        exact (himmortal (decide_eq_true (himm.trans (le_raised _ _)))).trans hraised
      have htaken := sub.count_le s
      refine ⟨count, hobject', ?_⟩
      rcases hsound.count_settled hsound' hheld (count?_of_object? hs)
        (count?_of_object? hobject') hle hkept with heq | ⟨hlt, himm, heq⟩
      · exact .inl heq
      · exact .inr ⟨hlt, by omega, heq⟩
    -- blocks go with their objects, so all that were handed out were given back
    have howes := adds.draws.settled sheds.returns (hperm.flatMap_right _)
    obtain ⟨hinUse, hheapLive, hheapBlocks, hheapBytes, hlive⟩ := howes.settled
    refine ⟨fun s => ⟨adds.origin_settled sheds.leaves hgone, fun hs => ?_⟩, hstays, hslots,
      ⟨ended.map reached.nameOf, ?_, ?_⟩, ?_, hlive⟩
    · obtain ⟨object, hobject⟩ := Option.isSome_iff_exists.1 hs
      obtain ⟨count, hobject', -⟩ := hstays s object hobject
      rw [hobject']
      rfl
    · rw [sheds.departures, adds.departures]
    · rw [sheds.names, ← adds.names]
      exact hperm.map _
    · rw [World.usage, World.usage, hinUse, hheapLive, hheapBlocks, hheapBytes]

end World

variable {w w' : World} {r : Ref} {owned : Multiset Ref} {e : ApiError}

/-! ### Constructions that fail -/

/-- A value that could not be put together. -/
theorem Argument.rolledBack_build {text : String} {values : List Native} (h : w.Sound owned)
    (hpresent : Present w values) (hpointed : .object none ∉ values)
    (hrun : (build text values).run w = .ok (.error e) w') :
    w.RolledBack (referents values) w' ∧ w'.Sound owned := by
  have hconstructs := constructs_of_run h hpresent hpointed hrun
  obtain ⟨result, _, hrun', hsound⟩ := build_spec text values h hpresent
  cases hrun.symm.trans hrun'
  rw [gained_error] at hsound
  refine ⟨?_, hsound⟩
  by_cases hformat : ∃ format, BuildFormat.parse text = .ok format ∧
      format.codes = values.map Native.code
  · obtain ⟨format, hparse, hcodes⟩ := hformat
    cases (hconstructs.answers format hparse).built hcodes with
    | refused hrefused => exact hrefused.rolledBack h hsound
  · rw [hconstructs.unasked fun format hparse hcodes => hformat ⟨format, hparse, hcodes⟩]
    exact .refl w _

/-- More items than a region has room for, or no storage for them. -/
theorem lacks_calloc {count size : Nat} {m : Memory} (h : w.memory.calloc count size = (none, m)) :
    w.Lacks (min (count * size) Size.greatest) := by
  by_cases hle : count * size ≤ Size.greatest
  · refine .inr ?_
    have hone : w.memory.calloc 1 (count * size) = w.memory.calloc count size := by
      simp only [Memory.calloc, Size.mul?, Nat.one_mul, if_pos hle]
    rw [Nat.min_eq_left hle, hone, h]
  · refine .inl ?_
    rw [Nat.min_eq_right (Nat.le_of_not_le hle)]
    decide

/-- A list for which there is no buffer goes again. -/
theorem Box.rolledBack_newListOf {type : TypeObject} (hroutine : type.routine = .list)
    {length : Nat} (h : w.Sound owned) (hrun : (newListOf type length).run w = .ok (.error e) w') :
    w.RolledBack [] w' ∧ w'.Sound owned := by
  have hmakes := makes_list hroutine type.basicSize
  obtain ⟨result, w₁, hrun₁, hsound₁, -, hmade⟩ := creates_new hmakes w owned h
  have hassembled := assembled_allocate h.housed h.tiered hmakes hrun₁
  rw [newListOf] at hrun
  cases hassembled with
  | refused hrefused =>
    rw [Attempt.run_bind_error hrun₁] at hrun
    cases hrun
    rw [gained_error] at hsound₁
    exact ⟨hrefused.rolledBack h hsound₁, hsound₁⟩
  | @made r _ _ adds tiered what =>
    obtain ⟨hnew, -⟩ := hmade r rfl
    rw [gained_ok] at hsound₁
    rw [Attempt.run_bind_ok hrun₁] at hrun
    split at hrun
    · cases hrun
    · cases hbuffer : w₁.memory.calloc length slotSize with
      | mk buffer m =>
        have hfirst : (modifyGet (World.onMemory (·.calloc length slotSize)) : Attempt _).run w₁ =
            .ok (.ok buffer) (w₁.withMemory m) := run_onMemory hbuffer
        rw [Attempt.run_bind_ok hfirst] at hrun
        cases buffer with
        | some a => cases hrun
        | none =>
          -- the list is there, and goes without a buffer
          obtain ⟨hmemory, hhands, -⟩ := Memory.calloc_spec hsound₁.housed.memory hbuffer
          obtain ⟨hsound₂, -⟩ := hsound₁.withMemory hmemory fun s object =>
            hsound₁.housed.same_of_hands hhands
          have hnone : ∀ s ∈ ([] : List Ref), w.object? s = none := fun s hs =>
            absurd hs List.not_mem_nil
          have hrefused : w.Refused [] [] w.objects.size
              (.allocationFailed (min (length * slotSize) Size.greatest)) (w₁.withMemory m) :=
            .intro adds (List.Sublist.refl []) tiered (lacks_calloc hbuffer)
              (sheds_refused hsound₁.housed hbuffer) hnone
          obtain ⟨w₂, hrelease, hsound, hrefused'⟩ := hrefused.release h hnone hsound₂
          have hlast : (do Host.release r; throw _ : Attempt Ref).run (w₁.withMemory m) = _ :=
            Attempt.run_bind_ok (Attempt.run_lift_ok hrelease) fun _ => throw
              (.allocationFailed (min (length * slotSize) Size.greatest))
          cases hlast.symm.trans hrun
          exact ⟨hrefused'.rolledBack h hsound, hsound⟩

/-- A tuple for which there is no storage: its items are released, and before that the
world is as it was. -/
theorem Box.rolledBack_tupleOf {items : List Ref} {kept : Multiset Ref}
    (h : w.Sound (↑items + kept)) (hrun : (tupleOf items).run w = .ok (.error e) w') :
    ∃ w₁, w.RolledBack [] w₁ ∧ Host.releaseAll items w₁ = .ok () w' ∧ w'.Sound kept := by
  obtain ⟨result, w₁, hrun₁, hsound₁, -, hmade⟩ := creates_newTuple items.length w _ h
  have hfirst : (monadLift (newTuple items.length).run : Attempt _).run w = .ok (.ok result) w₁ :=
    Attempt.run_lift_ok hrun₁
  rw [tupleOf, Attempt.run_bind_ok hfirst] at hrun
  cases assembled_newTuple h.housed h.tiered hrun₁ with
  | refused hrefused =>
    rw [gained_error] at hsound₁
    obtain ⟨w₂, hrelease, hsound₂⟩ := releaseAll_spec items hsound₁
    rw [Attempt.run_bind_ok (Attempt.run_lift_ok hrelease)] at hrun
    cases hrun
    exact ⟨w₁, hrefused.rolledBack h hsound₁, hrelease, hsound₂⟩
  | @made r _ _ adds tiered what =>
    -- a tuple that is there has room for its items
    obtain ⟨-, ⟨home, hobject⟩, -⟩ := hmade r rfl
    rw [gained, add_left_comm] at hsound₁
    obtain ⟨w₂, hrun₂, -⟩ := fillTuple_spec items 0 hsound₁
      (Multiset.mem_add.2 (.inl (Multiset.mem_singleton_self r)))
      ⟨_, tupleObject_eq_ok.2 ⟨hobject, rfl, rfl⟩⟩ (by omega)
    rw [Attempt.run_bind_ok hrun₂] at hrun
    cases hrun

/-- When a construction fails, nothing is left of it. Values that are put together may have
come to any point of a format with groups in groups, and a list may have come to its
buffer. A tuple of items leaves it at releasing these, one after the other. -/
theorem rolledBack_of_failure (h : w.Sound owned) :
    (∀ (text : String) (values : List Native) (size : Nat) (w' : World), Present w values →
      .object none ∉ values →
      (build text values).run w = .ok (.error (.allocationFailed size)) w' →
      w.RolledBack (referents values) w' ∧ w'.Sound owned) ∧
    (∀ (type : TypeObject) (length : Nat) (e : ApiError) (w' : World), type.routine = .list →
      (newListOf type length).run w = .ok (.error e) w' → w.RolledBack [] w' ∧ w'.Sound owned) ∧
    ∀ (items : List Ref) (kept : Multiset Ref) (e : ApiError) (w' : World), owned = ↑items + kept →
      (tupleOf items).run w = .ok (.error e) w' →
      ∃ w₁, w.RolledBack [] w₁ ∧ Host.releaseAll items w₁ = .ok () w' ∧ w'.Sound kept := by
  refine ⟨fun text values size w' hpresent hpointed hrun =>
    rolledBack_build h hpresent hpointed hrun, fun type length e w' hroutine hrun =>
    rolledBack_newListOf hroutine h hrun, ?_⟩
  rintro items kept e w' rfl hrun
  exact rolledBack_tupleOf h hrun

/-! A thread that has hardly any storage makes an integer, and then a value for which the
last block is missing. -/

/-- There is room for a few small blocks. -/
def confined : World :=
  World.new (.bounded 0x1000) { arenaSize := 256, maxArenaSize := 256, memoryLimit := some 256 }

/-- The integer is there. -/
def cramped : World := confined.left (newInteger 7).run

/-- The world with little room is sound. -/
theorem sound_cramped : cramped.Sound {3} := by
  have hmakes : Makes .int TypeObject.int.basicSize (.integer 7) := makes_of_bare nofun nofun nofun
  obtain ⟨result, w', hrun, hsound, -⟩ := creates_new hmakes confined 0 (sound_new _ _)
  cases (show (newInteger 7).run _ = .ok (.ok 3) cramped from rfl).symm.trans hrun
  exact hsound

/-- The integer in two tuples, one of them in the other, with two more numbers. -/
def nested : List Native := [.object (some 3), .object (some 3), .int 1, .int 2]

/-- The values of the nested example are there once the object is. -/
theorem present_nested (hthree : (w.object? 3).isSome) : Present w nested := by
  intro r hr
  have hr : r = 3 := by simpa [nested, referents, referent?] using hr
  rw [hr]
  exact hthree

/-- None of the values of the nested example is a null pointer. -/
theorem pointed_nested : .object none ∉ nested := by simp [nested]

/-- The attempt is refused for want of so many bytes, and of the world that it leaves the
test is true. -/
def refusesLeaving (attempt : Attempt Ref) (w : World) (bytes : Nat) (test : World → Bool) : Bool :=
  match attempt.run w with
  | .ok (.error e) w' => e = .allocationFailed bytes && test w'
  | .ok (.ok _) _ | .error _ _ => false

/-- What was computed of a refusal says how the attempt ended and what it left. -/
theorem of_refusesLeaving {attempt : Attempt Ref} {bytes : Nat} {test : World → Bool}
    (h : refusesLeaving attempt w bytes test = true) :
    ∃ w', attempt.run w = .ok (.error (.allocationFailed bytes)) w' ∧ test w' = true := by
  unfold refusesLeaving at h
  split at h
  · rename_i e w' hrun
    rw [Bool.and_eq_true, decide_eq_true_eq] at h
    exact ⟨w', h.1 ▸ hrun, h.2⟩
  · cases h
  · cases h

/-- The outer tuple, the inner one and the first number were made when storage ran out. -/
theorem rolledBack_cramped : cramped.Sound {3} ∧
    ∃ w', (build "(O(Oii))" nested).run cramped = .ok (.error (.allocationFailed 32)) w' ∧
      w'.objects.size = cramped.objects.size + 3 ∧ w'.count 3 = cramped.count 3 ∧
      cramped.RolledBack (referents nested) w' := by
  have hfails : refusesLeaving (build "(O(Oii))" nested) cramped 32 (fun w' =>
      w'.objects.size = cramped.objects.size + 3 ∧ w'.count 3 = cramped.count 3) = true := by
    decide +kernel
  obtain ⟨w', hrun, hleft⟩ := of_refusesLeaving hfails
  obtain ⟨hsize, hcount⟩ := of_decide_eq_true hleft
  exact ⟨sound_cramped, w', hrun, hsize, hcount, ((rolledBack_of_failure sound_cramped).1
    "(O(Oii))" nested 32 w' (present_nested rfl) pointed_nested hrun).1⟩

/-- The integer has all references but one that make it immortal. -/
def crowded : World :=
  cramped.modify 3 fun object => { object with count := object.count + 0x3FFFFFFFFFFFFFFE }

/-- The failing value takes the last one. The count stays where it is then. -/
theorem count_build_crowded :
    crowded.Sound (Multiset.replicate 0x3FFFFFFFFFFFFFFE 3 + {3}) ∧
    ∃ w', (build "(O(Oii))" nested).run crowded = .ok (.error (.allocationFailed 32)) w' ∧
      w'.count 3 ≠ crowded.count 3 := by
  have hsound : crowded.Sound (Multiset.replicate 0x3FFFFFFFFFFFFFFE 3 + {3}) :=
    sound_cramped.raise rfl rfl _
  have hfails : refusesLeaving (build "(O(Oii))" nested) crowded 32 (fun w' =>
      w'.count 3 ≠ crowded.count 3) = true := by decide +kernel
  obtain ⟨w', hrun, hleft⟩ := of_refusesLeaving hfails
  exact ⟨hsound, w', hrun, of_decide_eq_true hleft⟩

end ExtensionHost
