import ExtensionHost.Box.Scalar
import ExtensionHost.Box.Text
import ExtensionHost.Proofs.Box.Slots

/-!
# `ExtensionHost.Proofs.Box.Boxing`: references to boxes

A native value is boxed in a new object, or in one of the objects that are
there for good. Either way the caller gets one reference and nothing that was
there goes or changes, which is what `Box.Gives` says of an attempt.
-/

set_option autoImplicit false

namespace ExtensionHost

namespace World

variable {w : World} {r s : Ref} {object : Object} {owned : Multiset Ref} {a : Address}

/-- A block that no slots stand in may be written at will. -/
theorem Sound.write (h : w.Sound owned) (hobject : w.object? r = some object) {length : Nat}
    (hbody : object.body = .text length) (ha : a ∈ object.blocks) (f : Payload → Payload) :
    (w.written a f).Sound owned ∧ w.Grows [] (w.written a f) := by
  have hnone : ∀ w : World, w.slotsOf object = [] := by
    intro w
    rw [slotsOf, slotTable, hbody]
    rfl
  have hslots : ∀ s, (w.written a f).slots s = w.slots s := by
    intro s
    by_cases hs : s = r
    · rw [hs, slots_of_object? hobject,
        slots_of_object? (show (w.written a f).object? r = _ from hobject), hnone, hnone]
    · exact slots_written_of_ne h.housed hobject ha hs f
  have hgrows : w.Grows [] (w.written a f) :=
    ⟨fun s other hs => ⟨other.count, hs⟩, fun s other _ _ => hslots s⟩
  refine ⟨⟨h.housed.written hobject ha f fun _ _ _ hlist => ?_, ?_, h.pending, h.draining⟩, hgrows⟩
  · rw [hbody] at hlist
    cases hlist
  · rw [hgrows.held_eq fun s hs => contents_of_none hs]
    exact h.counted.congr fun _ => rfl

/-- The objects that are there for good. -/
theorem Sound.first_alive (h : w.Sound owned) (hr : r < 3) : (w.object? r).isSome := by
  have hsingle := h.housed.singleton r hr
  match r, hr with
  | 0, _ | 1, _ | 2, _ =>
    rw [object?, hsingle]
    rfl

end World

namespace Box

open World

variable {w : World} {r : Ref} {owned : Multiset Ref}

/-- The attempt gives a reference or is refused, and no object that was there
goes or has other slots afterwards. The objects in `borrowed` must be there. -/
def Gives (borrowed : List Ref) (attempt : Attempt Ref) : Prop :=
  ∀ (w : World) (owned : Multiset Ref), w.Sound owned → (∀ r ∈ borrowed, (w.object? r).isSome) →
    ∃ result w', attempt.run w = .ok result w' ∧ w'.Sound (gained result + owned) ∧ w.Grows [] w'

/-- An attempt that is refused at once gives nothing. -/
theorem Gives.throw (borrowed : List Ref) (e : ApiError) : Gives borrowed (throw e) :=
  fun w _ h _ => ⟨.error e, w, rfl, h.refused e, .refl w []⟩

/-- An attempt that makes an object gives the one reference to it. -/
theorem gives_of_creates {attempt : Attempt Ref} {type : TypeObject} {body : Body}
    (h : Creates attempt type body) (borrowed : List Ref) : Gives borrowed attempt :=
  fun w owned hsound _ =>
    let ⟨result, w', hrun, hsound', hgrows, _⟩ := h w owned hsound
    ⟨result, w', hrun, hsound', hgrows⟩

/-- A second reference to an object that is there. -/
theorem gives_retain (r : Ref) : Gives [r] (do Host.retain r; return r) :=
  fun w _ h halive =>
    ⟨.ok r, w.retain r, rfl, h.retain (halive r (List.mem_singleton_self r)), grows_retain w r []⟩

/-- A reference to one of the objects that are there for good. -/
theorem first_spec (h : w.Sound owned) (hr : r < 3) :
    (w.retain r).Sound (r ::ₘ owned) ∧ w.Grows [] (w.retain r) :=
  ⟨h.retain (h.first_alive hr), grows_retain w r []⟩

/-- Boxing nothing gives a reference to the one object for it. -/
theorem gives_newNone (borrowed : List Ref) : Gives borrowed (monadLift newNone) :=
  fun w _ h _ => ⟨.ok Ref.none, w.retain Ref.none, rfl, first_spec h (by decide)⟩

/-- A truth value is one of two objects, to which there is one reference more. -/
theorem newBool_spec (h : w.Sound owned) (b : Bool) :
    newBool b w = .ok (Ref.ofBool b) (w.retain (Ref.ofBool b)) ∧
      (w.retain (Ref.ofBool b)).Sound (Ref.ofBool b ::ₘ owned) := by
  have hr : Ref.ofBool b < 3 := by cases b <;> decide
  exact ⟨rfl, (first_spec h hr).1⟩

/-- A type may be that of an object without slots as long as its objects may
go. -/
theorem makes_of_bare {type : TypeObject} {size : Nat} {body : Body}
    (hmayGo : type.routine ≠ .forbidden) (htuple : ∀ length, body ≠ .tuple length)
    (hlist : ∀ length capacity buffer, body ≠ .list length capacity buffer) :
    Makes type size body :=
  ⟨hmayGo, fun length h => absurd h (htuple length),
    fun length capacity buffer h => absurd h (hlist length capacity buffer)⟩

/-- A boxed integer is given, of any type whose objects may go. -/
theorem gives_newIntegerOf (type : TypeObject) (hmayGo : type.routine ≠ .forbidden) (v : Int)
    (borrowed : List Ref) : Gives borrowed (newIntegerOf type v) := by
  have hmakes : Makes type type.basicSize (.integer v) := makes_of_bare hmayGo nofun nofun
  exact gives_of_creates (creates_new hmakes) borrowed

/-- A boxed real number is given, of any type whose objects may go. -/
theorem gives_newRealOf (type : TypeObject) (hmayGo : type.routine ≠ .forbidden) (x : Double)
    (borrowed : List Ref) : Gives borrowed (newRealOf type x) := by
  have hmakes : Makes type type.basicSize (.real x) := makes_of_bare hmayGo nofun nofun
  exact gives_of_creates (creates_new hmakes) borrowed

/-- The bytes of a text are written into the block that was made for them. -/
theorem gives_newTextOf (type : TypeObject) (hmayGo : type.routine ≠ .forbidden) (text : String)
    (borrowed : List Ref) : Gives borrowed (newTextOf type text) := by
  intro w owned h _
  have hmakes : Makes type (type.itemSize * text.toUTF8.size + type.basicSize)
      (.text text.toUTF8.size) := makes_of_bare hmayGo nofun nofun
  obtain ⟨result, w₁, hrun₁, hsound₁, hgrows₁, hmade⟩ := creates_newSized hmakes w owned h
  cases result with
  | error e => exact ⟨.error e, w₁, Attempt.run_bind_error hrun₁ _, hsound₁, hgrows₁⟩
  | ok r =>
    obtain ⟨-, ⟨home, hobject⟩, -⟩ := hmade r rfl
    have hmem : home ∈ (fresh type (.text text.toUTF8.size) home).blocks :=
      Object.mem_blocks.2 (.inr rfl)
    obtain ⟨hsound₂, hgrows₂⟩ :=
      hsound₁.write hobject rfl hmem (·.write contentStart text.toUTF8)
    refine ⟨.ok r, _, ?_, hsound₂, hgrows₁.trans hgrows₂⟩
    rw [newTextOf, Attempt.run_bind_ok hrun₁, Attempt.run_bind_ok (Attempt.run_get w₁), hobject]
    rfl

/-- The objects of a type can be texts when the type has room for the bytes of
a text and the NUL behind them. -/
structure MakesTexts (type : TypeObject) : Prop where
  mayGo : type.routine ≠ .forbidden
  basicSize : contentStart + 1 ≤ type.basicSize
  itemSize : 1 ≤ type.itemSize

/-- Such a type asks for enough bytes for a text and the zero behind it. -/
theorem MakesTexts.content_le {type : TypeObject} (h : MakesTexts type) (length : Nat) :
    contentStart + length + 1 ≤ type.itemSize * length + type.basicSize := by
  have hitems := Nat.mul_le_mul_right length h.itemSize
  have hbasic := h.basicSize
  omega

/-- The type of texts asks for room for the bytes and the NUL. -/
theorem makesTexts_str : MakesTexts .str := ⟨nofun, Nat.le_refl _, Nat.le_refl _⟩

/-- What making a text comes to: nothing is made, since its bytes are too many or
there is no block for them, or there is an object whose block was zeroed and has the
bytes of the text in it. -/
inductive MadeText (w : World) (type : TypeObject) (text : String) :
    Except ApiError Ref → World → Prop
  | tooLarge {size : Nat} (hsize : 0 < type.itemSize → Size.addressable < size) :
      MadeText w type text (.error (.allocationFailed size)) w
  | refused {m : Memory}
      (hcalloc :
        w.memory.calloc 1 (type.itemSize * text.toUTF8.size + type.basicSize) = (none, m)) :
      MadeText w type text
        (.error (.allocationFailed (type.itemSize * text.toUTF8.size + type.basicSize)))
        (w.withMemory m)
  | made {home : Address} {m : Memory}
      (hcalloc :
        w.memory.calloc 1 (type.itemSize * text.toUTF8.size + type.basicSize) = (some home, m)) :
      MadeText w type text (.ok w.objects.size)
        ((w.made
          { m with process := m.process.modifyPayload home (·.write contentStart text.toUTF8) }
          type (.text text.toUTF8.size) home).report
          (.objectCreated type.name (type.itemSize * text.toUTF8.size + type.basicSize)))

/-- Making a text never stops the process. -/
theorem exists_madeText (w : World) (type : TypeObject) (text : String) :
    ∃ result w', (newTextOf type text).run w = .ok result w' ∧ MadeText w type text result w' := by
  rw [newTextOf, Attempt.run_bind]
  rcases newSized_eq type text.toUTF8.size (.text text.toUTF8.size) with
    ⟨size, hsize, heq⟩ | ⟨-, heq⟩
  · rw [heq]
    exact ⟨_, w, rfl, .tooLarge hsize⟩
  · cases hcalloc :
      w.memory.calloc 1 (type.itemSize * text.toUTF8.size + type.basicSize) with
    | mk found m =>
      rw [heq, run_allocate hcalloc]
      cases found with
      | none => exact ⟨_, _, rfl, .refused hcalloc⟩
      | some home =>
        -- the object that was made is found again by its name
        have hobject : ((w.made m type (.text text.toUTF8.size) home).report
            (.objectCreated type.name
              (type.itemSize * text.toUTF8.size + type.basicSize))).object? w.objects.size =
            some (fresh type (.text text.toUTF8.size) home) :=
          object?_made_self
        dsimp only
        rw [Attempt.run_bind_ok (Attempt.run_get _), hobject]
        exact ⟨_, _, rfl, .made hcalloc⟩

/-- Making a text either has room for it or changes nothing but what is reported. -/
theorem madeText_newTextOf {w' : World} {type : TypeObject} {text : String}
    {result : Except ApiError Ref}
    (hrun : (newTextOf type text).run w = .ok result w') : MadeText w type text result w' := by
  obtain ⟨found, w₁, hfound, hmade⟩ := exists_madeText w type text
  rw [hrun] at hfound
  cases hfound
  exact hmade

/-- What an attempt gives is what its caller has afterwards. -/
theorem Gives.accounts {borrowed : List Ref} {attempt : Attempt Ref} (h : Gives borrowed attempt) :
    Accounts borrowed 0 attempt.run gained := by
  intro w kept hsound halive
  rw [zero_add] at hsound
  obtain ⟨result, w', hrun, hsound', -⟩ := h w kept hsound halive
  exact ⟨result, w', hrun, hsound'⟩

/-- The one object for nothing gets a reference more. -/
theorem accounts_newNone : Accounts [] 0 newNone fun r => {r} := by
  intro w kept hsound _
  rw [zero_add] at hsound
  exact ⟨Ref.none, w.retain Ref.none, rfl, (first_spec hsound (by decide)).1⟩

/-- One of the two truth values gets a reference more. -/
theorem accounts_newBool (b : Bool) : Accounts [] 0 (newBool b) fun r => {r} := by
  intro w kept hsound _
  rw [zero_add] at hsound
  obtain ⟨hrun, hsound'⟩ := newBool_spec hsound b
  exact ⟨_, _, hrun, hsound'⟩

end Box

end ExtensionHost
