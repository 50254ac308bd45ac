import ExtensionHost.Proofs.Upkeep.Boxes

/-!
# `ExtensionHost.Proofs.Upkeep.Containers`: the steps of filling containers

The operations here look at a container before they change it, and what they do
depends on what they found. So their steps are followed from the world that they
start in.
-/

set_option autoImplicit false

namespace ExtensionHost

open World Box

variable {strict : Bool} {w w' w₁ : World} {r item : Ref} {object : Object} {a : Address}

/-! ### Slots -/

/-- A slot is filled by steps: the item takes its place, and the one that was there is
released. -/
theorem steps_fillSlot {start length index : Nat} (hw : w.Provided)
    (hobject : w.object? r = some object) (hat : SlotsAt object a start length)
    (hindex : index < length) {u : Unit}
    (hrun : fillSlot a (start + slotSize * index) item w = .ok u w') : w.Steps strict w' := by
  have hstep : w.Step strict _ := .filled hobject hat hindex item
  rw [run_fillSlot] at hrun
  split at hrun
  · next old _ => exact .head hstep (Traces.release old _ _ _ (hstep.provided hw) hrun)
  · cases hrun
    exact .single hstep

/-- The rest of a setter, when the slot is there. -/
theorem steps_lift {operation : Host Unit} {result : Except ApiError Unit}
    (h : ∀ u, operation w = .ok u w' → w.Steps strict w')
    (hrun : (monadLift operation : Attempt Unit).run w = .ok result w') : w.Steps strict w' := by
  rw [Attempt.run_lift] at hrun
  cases hfirst : operation w with
  | error fault w₁ =>
    rw [hfirst] at hrun
    cases hrun
  | ok u w₁ =>
    rw [hfirst] at hrun
    cases hrun
    exact h u hfirst

namespace Traces

/-- An item of a tuple is set by steps. -/
theorem setTupleItem (r : Ref) (index : Nat) (item : Ref) :
    Traces strict (Box.setTupleItem r index item).run := by
  intro w result w' hw hall
  refine (Traces.consuming (.read _) item).bind_from hw hall fun found w₁ hw₁ hfound hrun => ?_
  obtain ⟨object, length⟩ := found
  obtain ⟨htuple, rfl⟩ := Attempt.run_read_eq_ok (Attempt.run_of_consuming hfound)
  obtain ⟨hobject, -, hbody⟩ := tupleObject_eq_ok.1 htuple
  dsimp only at hrun
  by_cases hindex : index < length
  · rw [if_pos hindex] at hrun
    cases hhome : object.home with
    | none =>
      rw [hhome] at hrun
      exact (release item).lift _ _ _ hw₁ hrun
    | some block =>
      rw [hhome] at hrun
      exact steps_lift (fun u => steps_fillSlot hw₁ hobject (slotsAt_tuple hbody hhome) hindex) hrun
  · rw [if_neg hindex] at hrun
    exact (Traces.consuming (.refuse _) item) _ _ _ hw₁ hrun

/-- The slots of a tuple are filled by steps. -/
theorem fillTuple (r : Ref) (items : List Ref) (index : Nat) :
    Traces strict (Box.fillTuple r index items).run := by
  induction items generalizing index with
  | nil => exact .attempt_ret ()
  | cons item rest ih => exact (setTupleItem r index item).attempt_bind fun _ => ih (index + 1)

/-- A tuple is made by steps. -/
theorem newTuple (length : Nat) : Traces strict (Box.newTuple length).run :=
  .newTupleOf ⟨rfl, Nat.le_refl _, Nat.le_refl _⟩ fun _ => TypeObject.suits_tuple length

/-- A tuple of given items is made by steps. -/
theorem tupleOf (items : List Ref) : Traces strict (Box.tupleOf items).run := by
  refine (newTuple items.length).lift.attempt_bind fun made => ?_
  cases made with
  | error e => exact (releaseAll items).lift.attempt_bind fun _ => .refuse e
  | ok r => exact (fillTuple r items 0).attempt_bind fun _ => .attempt_ret r

/-- An item of a list is set by steps. -/
theorem setListItem (r : Ref) (index : Nat) (item : Ref) :
    Traces strict (Box.setListItem r index item).run := by
  intro w result w' hw hall
  refine (Traces.consuming (.read _) item).bind_from hw hall fun found w₁ hw₁ hfound hrun => ?_
  obtain ⟨object, length, capacity, buffer⟩ := found
  obtain ⟨hlist, rfl⟩ := Attempt.run_read_eq_ok (Attempt.run_of_consuming hfound)
  obtain ⟨hobject, -, hbody⟩ := listObject_eq_ok.1 hlist
  dsimp only at hrun
  by_cases hindex : index < length
  · rw [if_pos hindex] at hrun
    cases buffer with
    | none => exact (release item).lift _ _ _ hw₁ hrun
    | some block =>
      rw [show slotSize * index = 0 + slotSize * index from (Nat.zero_add _).symm] at hrun
      exact steps_lift (fun u => steps_fillSlot hw₁ hobject (slotsAt_list hbody) hindex) hrun
  · rw [if_neg hindex] at hrun
    exact (Traces.consuming (.refuse _) item) _ _ _ hw₁ hrun

/-! ### Lists -/

/-- The buffer of a new list is handed out after the list was made, and without
one the list is given up again. -/
theorem newListOf {type : TypeObject} (hroutine : type.routine = .list)
    (hsuits : strict = true → type.Suits (.list 0 0 none)) (length : Nat) :
    Traces strict (Box.newListOf type length).run := by
  intro w result w' hw hrun
  have hmakes := makes_list hroutine type.basicSize
  have hfitted : strict = true → ∀ payload, Fitted type (.list 0 0 none) payload :=
    fun hstrict => (hsuits hstrict).fitted nofun
  -- the list is made without a buffer, so it is well formed if it ends here
  refine (Traces.allocate hmakes (Nat.zero_le _) hfitted).bind_from hw hrun
    fun r w₁ hw₁ hmade hrun => ?_
  obtain ⟨home, hobject⟩ := (steps_allocate hmakes (Nat.zero_le _) hfitted hw hmade).2 r rfl
  by_cases hlength : length = 0
  · rw [if_pos hlength] at hrun
    exact Traces.attempt_ret r _ _ _ hw₁ hrun
  · rw [if_neg hlength] at hrun
    -- what the allocator answers decides between a list with a buffer and none at all
    cases hcalloc : w₁.memory.calloc length slotSize with
    | mk found m =>
      have hanswers := hw₁.answers_calloc hcalloc
      rw [Attempt.run_bind_ok (run_onMemory hcalloc)] at hrun
      cases found with
      | none =>
        -- the refused buffer is one step, and to give the list up is a release like any
        -- other
        have hstep : w₁.Step strict (w₁.withMemory m) := .refused hanswers
        have hlast : Traces strict (do
            Host.release r
            throw (.allocationFailed (min (length * slotSize) Size.greatest)) : Attempt Ref).run :=
          (release r).lift.attempt_bind fun _ => .refuse _
        exact .head hstep (hlast _ _ _ (hstep.provided hw₁) hrun)
      | some buffer =>
        rw [Nat.mul_comm] at hanswers
        cases hrun
        exact .single (.rebuffered hobject rfl hlength (Nat.le_refl _)
          (fun i hi hlt => absurd hlt (Nat.not_lt.2 hi)) hanswers)

end Traces

/-- A full list gets a buffer with room for more, and counts the slots in it. -/
theorem steps_growList {length capacity : Nat} {buffer : Option Address} (hw : w.Provided)
    (hlist : listObject w r = .ok (object, length, capacity, buffer)) (hfull : length = capacity)
    {result : Except ApiError Unit}
    (hrun : (growList r length capacity buffer).run w = .ok result w') :
    w.Steps strict w' ∧ ∀ u, result = .ok u → ∃ object' grown b,
      listObject w' r = .ok (object', length, grown, some b) ∧ length < grown := by
  obtain ⟨hobject, hsub, hbody⟩ := listObject_eq_ok.1 hlist
  cases hgrown : grownCapacity? capacity with
  | none =>
    simp only [growList, hgrown] at hrun
    cases hrun
    exact ⟨.refl, fun _ hdone => by cases hdone⟩
  | some next =>
    obtain ⟨grown, bytes⟩ := next
    obtain ⟨hnext, hbytes⟩ := grownCapacity?_eq_some hgrown
    have hlt : length < grown := by
      rw [hnext, hfull]
      exact lt_grownCapacity capacity
    obtain ⟨moved, m, hrealloc, -⟩ := realloc_cases hw.housed hobject hbody hbytes hlt.le
    have hlive : ∀ a, buffer = some a → w.memory.process.Live a := by
      rintro a rfl
      exact (hw.housed.housed r object hobject).live a
        (Object.mem_blocks.2 (.inl (Object.buffer_eq_some.2 ⟨_, _, hbody⟩)))
    have hanswers := Memory.answers_realloc hw.lent hw.housed.memory hlive hrealloc
    rw [run_growList w r length hgrown hrealloc] at hrun
    cases moved with
    | none =>
      cases hrun
      have hended : (Request.realloc buffer bytes).ended none = none := by cases buffer <;> rfl
      rw [hended] at hanswers
      exact ⟨.single (.refused hanswers), fun _ hdone => by cases hdone⟩
    | some b =>
      cases hrun
      have hended : (Request.realloc buffer bytes).ended (some b) = buffer := by
        cases buffer <;> rfl
      rw [hended, ← hbytes] at hanswers
      have hunused : ∀ i, length ≤ i → i < grown →
          ((emptied m b length grown).process.payload b).word? (slotSize * i) = none :=
        fun i hi hi' => (word?_emptied (hanswers.live b rfl) length grown i).trans
          (if_pos ⟨hi, hi'⟩)
      -- the slots that are emptied end where the buffer ends
      have hends : slotSize * length + slotSize * (grown - length) = slotSize * grown := by
        rw [← Nat.mul_add, Nat.add_sub_cancel' hlt.le]
      have hemptied := hanswers.modifyPayload
        (f := (·.fill (slotSize * length) (slotSize * (grown - length)) 0))
        fun payload i hi => by rw [Payload.cell_fill, if_neg (by omega)]
      refine ⟨.tail (.single (.rebuffered hobject hbody (by omega) hlt.le hunused hemptied))
        (.noticed rfl), fun _ _ =>
          ⟨{ object with body := .list length grown (some b) }, grown, b, ?_, hlt⟩⟩
      exact listObject_eq_ok.2 ⟨object?_reshaped_self hobject, hsub, rfl⟩

/-- Looking for room for an item, with what is found. -/
theorem steps_grownFor (hw : w.Provided)
    {result : Except ApiError (Object × Nat × Nat × Option Address)}
    (hrun : (do
      let (_, length, capacity, buffer) ← Attempt.read (listObject · r)
      if length = capacity then growList r length capacity buffer
      Attempt.read (listObject · r) : Attempt _).run w = .ok result w') :
    w.Steps strict w' ∧
      ∀ object length capacity buffer, result = .ok (object, length, capacity, buffer) →
        listObject w' r = .ok (object, length, capacity, buffer) ∧ length < capacity := by
  rw [Attempt.run_read_bind] at hrun
  cases hlist : listObject w r with
  | error e =>
    rw [hlist] at hrun
    cases hrun
    exact ⟨.refl, nofun⟩
  | ok found =>
    obtain ⟨object, length, capacity, buffer⟩ := found
    rw [hlist] at hrun
    dsimp only at hrun
    by_cases hfull : length = capacity
    · rw [if_pos hfull, Attempt.run_bind] at hrun
      cases hgrow : (growList r length capacity buffer).run w with
      | error fault w₁ =>
        rw [hgrow] at hrun
        cases hrun
      | ok grown w₁ =>
        -- the list is read again, because a larger buffer may lie elsewhere
        obtain ⟨hsteps, hroom⟩ := steps_growList hw hlist hfull hgrow
        rw [hgrow] at hrun
        cases grown with
        | error e =>
          cases hrun
          exact ⟨hsteps, nofun⟩
        | ok u =>
          obtain ⟨object', grown, b, hlist', hlt⟩ := hroom u rfl
          have hrun : (Attempt.read (listObject · r)).run w₁ = .ok result w' := hrun
          rw [Attempt.run_read, hlist'] at hrun
          cases hrun
          refine ⟨hsteps, fun _ _ _ _ heq => ?_⟩
          cases heq
          exact ⟨hlist', hlt⟩
    · rw [if_neg hfull] at hrun
      have hrun : (Attempt.read (listObject · r)).run w = .ok result w' := hrun
      rw [Attempt.run_read, hlist] at hrun
      cases hrun
      refine ⟨.refl, fun _ _ _ _ heq => ?_⟩
      cases heq
      exact ⟨hlist, Nat.lt_of_le_of_ne (exists_buffer hw.housed hlist).1 hfull⟩

/-- The list counts the slot before the item is put into it. -/
theorem Traces.appendItem (r item : Ref) : Traces strict (Box.appendItem r item).run := by
  intro w result w' hw hrun
  have hroom : Traces strict (do
      let (_, length, capacity, buffer) ← Attempt.read (listObject · r)
      if length = capacity then growList r length capacity buffer
      Attempt.read (listObject · r) : Attempt (Object × Nat × Nat × Option Address)).run :=
    fun w _ w' hw hrun => (steps_grownFor hw hrun).1
  refine (hroom.consuming item).bind_from hw hrun fun found w₁ hw₁ hfound hrun => ?_
  obtain ⟨object, length, capacity, buffer⟩ := found
  have hgrown : w.Steps strict w₁ ∧ _ := steps_grownFor hw (Attempt.run_of_consuming hfound)
  obtain ⟨hlist, hlt⟩ := hgrown.2 object length capacity buffer rfl
  obtain ⟨hobject, -, hbody⟩ := listObject_eq_ok.1 hlist
  obtain ⟨a, rfl⟩ := (exists_buffer hw₁.housed hlist).2 (by omega)
  have hstep : w₁.Step strict (w₁.reshaped r (.list (length + 1) capacity (some a)) w₁.memory) :=
    .lengthened hobject hbody hlt
  refine .head hstep (steps_lift (fun u hfill => ?_) hrun)
  rw [show slotSize * length = 0 + slotSize * length from (Nat.zero_add _).symm] at hfill
  exact steps_fillSlot (hstep.provided hw₁) (object?_reshaped_self hobject) (slotsAt_list rfl)
    length.lt_succ_self hfill

end ExtensionHost
