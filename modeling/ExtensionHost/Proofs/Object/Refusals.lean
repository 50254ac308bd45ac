import ExtensionHost.Box.Scalar
import ExtensionHost.Box.Sequence
import ExtensionHost.Box.Text
import ExtensionHost.Proofs.Object.Attempts

/-!
# `ExtensionHost.Proofs.Object.Refusals`: what can be refused

`RefusedOnly P` says of an answer, and of an attempt in any world, that
every cause it is refused for has the property `P`. It goes through the
ways of putting answers and attempts together, so what a whole operation
can be refused for is read off its parts.

The parts that all operations share are here. Objects are looked at and
made without ever counting arguments (`NoArity`).
-/

set_option autoImplicit false

namespace ExtensionHost

variable {α β : Type} {P Q : ApiError → Prop}

/-! ### Answers -/

/-- Every cause that an answer is refused for has the property. -/
def RefusedOnly (P : ApiError → Prop) (answer : Except ApiError α) : Prop :=
  ∀ e, answer = .error e → P e

namespace RefusedOnly

/-- An answer is no refusal. -/
theorem ok (a : α) : RefusedOnly P (.ok a) := nofun

/-- A refusal is allowed if its error is. -/
theorem error {e : ApiError} (h : P e) : RefusedOnly P (.error e : Except ApiError α) := by
  rintro _ ⟨⟩
  exact h

/-- More errors may be allowed. -/
theorem imp {answer : Except ApiError α} (h : RefusedOnly P answer) (hPQ : ∀ e, P e → Q e) :
    RefusedOnly Q answer :=
  fun e he => hPQ e (h e he)

/-- What is done with the answer refuses nothing. -/
theorem map {answer : Except ApiError α} (h : RefusedOnly P answer) (f : α → β) :
    RefusedOnly P (answer.map f) := by
  cases answer with
  | ok a => exact ok _
  | error e => exact error (h e rfl)

/-- Two steps refuse only what each of them does. -/
theorem bind {answer : Except ApiError α} {next : α → Except ApiError β}
    (h : RefusedOnly P answer) (hnext : ∀ a, answer = .ok a → RefusedOnly P (next a)) :
    RefusedOnly P (answer >>= next) := by
  cases answer with
  | ok a => exact hnext a rfl
  | error e => exact error (h e rfl)

end RefusedOnly

/-! ### Attempts -/

namespace Attempt

/-- Every cause that an attempt is refused for has the property, in
whatever world it is made. -/
def RefusedOnly (P : ApiError → Prop) (attempt : Attempt α) : Prop :=
  ∀ w e w', attempt.run w = .ok (.error e) w' → P e

namespace RefusedOnly

/-- An attempt that answers at once refuses nothing. -/
theorem pure (a : α) : RefusedOnly P (Pure.pure a : Attempt α) := by
  intro w e w' hrun
  rw [run_pure] at hrun
  cases hrun

/-- An attempt that is refused at once is refused with its error. -/
theorem throw {e : ApiError} (h : P e) :
    RefusedOnly P (MonadExcept.throw e : Attempt α) := by
  intro w e' w' hrun
  rw [run_throw] at hrun
  cases hrun
  exact h

/-- An attempt that reads is refused as the reading is. -/
theorem read {f : World → Except ApiError α} (h : ∀ w, ExtensionHost.RefusedOnly P (f w)) :
    RefusedOnly P (Attempt.read f) := by
  intro w e w' hrun
  rw [run_read] at hrun
  injection hrun with hrefused
  exact h w e hrefused

/-- What is read need not be thought of beyond what the world can show. -/
theorem read_bind {f : World → Except ApiError α} {next : α → Attempt β}
    (h : ∀ w, ExtensionHost.RefusedOnly P (f w))
    (hnext : ∀ w a, f w = .ok a → RefusedOnly P (next a)) :
    RefusedOnly P (Attempt.read f >>= next) := by
  intro w e w' hrun
  rw [run_read_bind] at hrun
  cases hread : f w with
  | ok a =>
    rw [hread] at hrun
    exact hnext w a hread w e w' hrun
  | error e' =>
    rw [hread] at hrun
    cases hrun
    exact h w e hread

/-- An attempt at what is known is refused as that is. -/
theorem ofExcept {answer : Except ApiError α} (h : ExtensionHost.RefusedOnly P answer) :
    RefusedOnly P (Attempt.ofExcept answer) := by
  intro w e w' hrun
  rw [run_ofExcept] at hrun
  injection hrun with hrefused
  exact h e hrefused

/-- A host operation stops the process or answers; it is not refused. -/
theorem lift (operation : Host α) : RefusedOnly P (monadLift operation : Attempt α) := by
  intro w e w' hrun
  rw [run_lift] at hrun
  cases hoperation : operation w with
  | ok a w'' => rw [hoperation] at hrun; cases hrun
  | error fault w'' => rw [hoperation] at hrun; cases hrun

/-- More errors may be allowed of an attempt. -/
theorem imp {attempt : Attempt α} (h : RefusedOnly P attempt) (hPQ : ∀ e, P e → Q e) :
    RefusedOnly Q attempt :=
  fun w e w' hrun => hPQ e (h w e w' hrun)

/-- Two attempts refuse only what each of them does. -/
theorem bind {attempt : Attempt α} {next : α → Attempt β} (h : RefusedOnly P attempt)
    (hnext : ∀ a, RefusedOnly P (next a)) : RefusedOnly P (attempt >>= next) := by
  intro w e w' hrun
  rw [run_bind] at hrun
  cases hattempt : attempt.run w with
  | error fault w'' => rw [hattempt] at hrun; cases hrun
  | ok answer w'' =>
    rw [hattempt] at hrun
    cases answer with
    | ok a => exact hnext a w'' e w' hrun
    | error e' =>
      obtain ⟨⟩ := hrun
      exact h w e w' hattempt

/-- What is released when an attempt is refused does not change the cause. -/
theorem consuming {attempt : Attempt α} (h : RefusedOnly P attempt) (r : Ref) :
    RefusedOnly P (Attempt.consuming r attempt) := by
  intro w e w' hrun
  rw [Attempt.consuming, run_tryCatch] at hrun
  cases hattempt : attempt.run w with
  | error fault w'' => rw [hattempt] at hrun; cases hrun
  | ok answer w'' =>
    rw [hattempt] at hrun
    cases answer with
    | ok a => cases hrun
    | error e' => exact (lift _).bind (fun _ => throw (h w e' w'' hattempt)) w'' e w' hrun

end RefusedOnly

end Attempt

/-! ### Objects -/

/-- The cause has nothing to do with the number of arguments or their
names. -/
def NoArity (e : ApiError) : Prop := e.kind ≠ .arity

section Looking

variable (w : World) (r : Ref)

/-- An object of another type is refused without counting arguments. -/
theorem refusedOnly_instanceOf (type : TypeObject) :
    RefusedOnly NoArity (w.instanceOf r type) := by
  rw [World.instanceOf, World.object]
  cases w.object? r with
  | none => exact .error nofun
  | some object =>
    dsimp only
    split
    · exact .ok _
    · exact .error nofun

namespace Box

/-- What is no tuple is refused without counting arguments. -/
theorem refusedOnly_tupleObject : RefusedOnly NoArity (tupleObject w r) := by
  rw [tupleObject]
  split
  · next e h => exact .error (refusedOnly_instanceOf w r _ e h)
  · split
    · exact .ok _
    · exact .error nofun

/-- What is no list is refused without counting arguments. -/
theorem refusedOnly_listObject : RefusedOnly NoArity (listObject w r) := by
  rw [listObject]
  split
  · next e h => exact .error (refusedOnly_instanceOf w r _ e h)
  · split
    · exact .ok _
    · exact .error nofun

/-- Reading the slots of a tuple counts no arguments. -/
theorem refusedOnly_tupleSlots : RefusedOnly NoArity (tupleSlots w r) :=
  (refusedOnly_tupleObject w r).map _

/-- Asking for the length of a tuple counts no arguments. -/
theorem refusedOnly_tupleLength : RefusedOnly NoArity (tupleLength w r) :=
  (refusedOnly_tupleObject w r).map _

/-- An empty slot or an index outside is refused without counting arguments. -/
theorem refusedOnly_occupant (object : Object) (length index : Nat) :
    RefusedOnly NoArity (occupant w object length index) := by
  rw [occupant]
  split
  · exact .error nofun
  · exact .error nofun
  · exact .ok _

/-- Reading an item of a tuple counts no arguments. -/
theorem refusedOnly_tupleItem (index : Nat) : RefusedOnly NoArity (tupleItem w r index) :=
  (refusedOnly_tupleObject w r).bind fun _ _ => refusedOnly_occupant w _ _ index

/-- Reading the slots of a sequence counts no arguments. -/
theorem refusedOnly_sequenceSlots : RefusedOnly NoArity (sequenceSlots w r) := by
  rw [sequenceSlots]
  split
  · exact refusedOnly_tupleSlots w r
  · split
    · exact (refusedOnly_listObject w r).map _
    · rw [World.object]
      cases w.object? r with
      | none => exact .error nofun
      | some object => exact .error nofun

/-- Reading an integer counts no arguments. -/
theorem refusedOnly_integer : RefusedOnly NoArity (integer w r) := by
  rw [integer]
  split
  · next e h => exact .error (refusedOnly_instanceOf w r _ e h)
  · split
    · exact .ok _
    · exact .error nofun

/-- Converting an integer counts no arguments. -/
theorem refusedOnly_native (target : NativeInt) : RefusedOnly NoArity (native w r target) := by
  rw [native]
  split
  · next e h => exact .error (refusedOnly_integer w r e h)
  · split
    · exact .ok _
    · exact .error nofun

/-- Reading a real number counts no arguments. -/
theorem refusedOnly_real : RefusedOnly NoArity (real w r) := by
  rw [real, World.object]
  cases w.object? r with
  | none => exact .error nofun
  | some object =>
    dsimp only
    repeat' split
    all_goals first | exact .ok _ | exact .error nofun

/-- What is no text is refused without counting arguments. -/
theorem refusedOnly_textObject : RefusedOnly NoArity (textObject w r) := by
  rw [textObject]
  split
  · next e h => exact .error (refusedOnly_instanceOf w r _ e h)
  · split
    · exact .ok _
    · exact .error nofun

/-- Reading a text counts no arguments. -/
theorem refusedOnly_text : RefusedOnly NoArity (text w r) := by
  rw [text]
  split
  · next e h => exact .error (refusedOnly_textObject w r e h)
  · split
    · exact .ok _
    · exact .error nofun

/-- Reading a text up to its NUL counts no arguments. -/
theorem refusedOnly_terminatedText : RefusedOnly NoArity (terminatedText w r) := by
  rw [terminatedText]
  split
  · next e h => exact .error (refusedOnly_textObject w r e h)
  · repeat' split
    all_goals first | exact .ok _ | exact .error nofun

end Box

end Looking

/-! ### Making objects -/

section Making

/-- Changing the world refuses nothing, and answering does not either. -/
theorem refusedOnly_modifyGet (f : World → α × World) :
    Attempt.RefusedOnly P (modifyGet f : Attempt α) := by
  intro w e w' hrun
  rw [Attempt.run_modifyGet] at hrun
  cases hrun

/-- Seeing the world refuses nothing. -/
theorem refusedOnly_get : Attempt.RefusedOnly P (get : Attempt World) := by
  intro w e w' hrun
  rw [Attempt.run_get] at hrun
  cases hrun

/-- Changing the world refuses nothing. -/
theorem refusedOnly_modify (f : World → World) : Attempt.RefusedOnly P (modify f : Attempt Unit) :=
  refusedOnly_modifyGet _

/-- An object for which there is no storage is refused without counting arguments. -/
theorem Object.refusedOnly_allocate (type : TypeObject) (size : Nat) (body : Body) :
    Attempt.RefusedOnly NoArity (Object.allocate type size body) := by
  refine (refusedOnly_modifyGet _).bind fun home => ?_
  cases home with
  | none => exact .throw nofun
  | some home =>
    exact (refusedOnly_modifyGet _).bind fun r => (Attempt.RefusedOnly.lift _).bind fun _ => .pure r

/-- An object of too many items is refused without counting arguments. -/
theorem Object.refusedOnly_newSized (type : TypeObject) (items : Nat) (body : Body) :
    Attempt.RefusedOnly NoArity (Object.newSized type items body) := by
  rw [Object.newSized]
  split
  · exact .throw nofun
  · split
    · exact .throw nofun
    · exact Object.refusedOnly_allocate _ _ _

namespace Box

/-- A text for which there is no storage is refused without counting arguments. -/
theorem refusedOnly_newText (text : String) : Attempt.RefusedOnly NoArity (newText text) := by
  refine (Object.refusedOnly_newSized _ _ _).bind fun r => refusedOnly_get.bind fun w => ?_
  split
  · exact (refusedOnly_modify _).bind fun _ => .pure r
  · exact .pure r

/-- An item that cannot be set is refused without counting arguments. -/
theorem refusedOnly_setTupleItem (r : Ref) (index : Nat) (item : Ref) :
    Attempt.RefusedOnly NoArity (setTupleItem r index item) := by
  refine ((Attempt.RefusedOnly.read (refusedOnly_tupleObject · r)).consuming item).bind
    fun (object, length) => ?_
  dsimp only
  split
  · split <;> exact .lift _
  · exact .consuming (.throw nofun) item

end Box

end Making

end ExtensionHost
