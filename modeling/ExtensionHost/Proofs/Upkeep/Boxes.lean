import ExtensionHost.Proofs.Box.Boxing
import ExtensionHost.Proofs.Upkeep.Traces

/-!
# `ExtensionHost.Proofs.Upkeep.Boxes`: the steps of making and filling boxes

A box is made in one step, in a block that was handed out for it, and that step
asks that the block is large enough for what the box holds. So a type may be
that of a text or a tuple only if it asks for enough bytes: `MakesTexts` and
`MakesTuples` say how many.
-/

set_option autoImplicit false

namespace ExtensionHost

open World Box

variable {strict : Bool} {w w' : World} {r : Ref} {object : Object}

/-! ### What types stand for -/

namespace TypeObject

/-- An integer is what the type of integers stands for. -/
theorem suits_int (v : Int) : int.Suits (.integer v) where
  integer _ := ⟨v, rfl⟩
  real h := absurd h (by decide)
  text h := absurd h (by decide)
  tuple h := absurd h (by decide)
  list h := absurd h (by decide)

/-- A real number is what the type of real numbers stands for. -/
theorem suits_float (x : Double) : float.Suits (.real x) where
  integer h := absurd h (by decide)
  real _ := ⟨x, rfl⟩
  text h := absurd h (by decide)
  tuple h := absurd h (by decide)
  list h := absurd h (by decide)

/-- A text is what the type of texts stands for. -/
theorem suits_str (length : Nat) : str.Suits (.text length) where
  integer h := absurd h (by decide)
  real h := absurd h (by decide)
  text _ := ⟨length, rfl⟩
  tuple h := absurd h (by decide)
  list h := absurd h (by decide)

/-- Slots are what the type of tuples stands for. -/
theorem suits_tuple (length : Nat) : tuple.Suits (.tuple length) where
  integer h := absurd h (by decide)
  real h := absurd h (by decide)
  text h := absurd h (by decide)
  tuple _ := ⟨length, rfl⟩
  list h := absurd h (by decide)

/-- Slots in a buffer are what the type of lists stands for. -/
theorem suits_list (length capacity : Nat) (buffer : Option Address) :
    list.Suits (.list length capacity buffer) where
  integer h := absurd h (by decide)
  real h := absurd h (by decide)
  text h := absurd h (by decide)
  tuple h := absurd h (by decide)
  list _ := ⟨length, capacity, buffer, rfl⟩

/-- A body without a text needs no bytes to be there. -/
theorem Suits.fitted {type : TypeObject} {body : Body} (h : type.Suits body)
    (hbody : ∀ length, body ≠ .text length) (payload : Payload) : Fitted type body payload :=
  ⟨h, fun length htext => absurd htext (hbody length)⟩

end TypeObject

namespace Box

/-- A type that can be of texts makes them. -/
theorem MakesTexts.makes {type : TypeObject} (h : MakesTexts type) (length size : Nat) :
    Makes type size (.text length) := makes_of_bare h.mayGo nofun nofun

/-- The bytes of a text and its NUL fit into what its type asks for. -/
theorem MakesTexts.bytes_le {type : TypeObject} (h : MakesTexts type) (length : Nat) :
    (Body.text length).bytes ≤ type.itemSize * length + type.basicSize := by
  have hcontent := h.content_le length
  simp only [Body.bytes]
  omega

/-- The slots of a tuple fit into what its type asks for. -/
theorem MakesTuples.bytes_le {type : TypeObject} (h : MakesTuples type) (length : Nat) :
    (Body.tuple length).bytes ≤ type.itemSize * length + type.basicSize := by
  have hitems := Nat.mul_le_mul_right length h.itemSize
  have hbasic := h.basicSize
  simp only [Body.bytes]
  omega

/-- A type that can be of tuples makes them. -/
theorem MakesTuples.makes {type : TypeObject} (h : MakesTuples type) (length : Nat) :
    Makes type (type.itemSize * length + type.basicSize) (.tuple length) :=
  ⟨by rw [h.routine]; nofun, fun _ heq => by cases heq; exact ⟨h.routine, h.bytes_le length⟩, nofun⟩

/-- A type with the routine of lists makes lists that are empty. -/
theorem makes_list {type : TypeObject} (hroutine : type.routine = .list) (size : Nat) :
    Makes type size (.list 0 0 none) :=
  ⟨by rw [hroutine]; nofun, nofun, fun _ _ _ heq => by cases heq; exact ⟨hroutine, rfl, rfl, rfl⟩⟩

end Box

/-! ### Making objects -/

/-- The answer of storage to a request for the block of an object. -/
theorem World.Provided.answers_calloc (hw : w.Provided) {count size : Nat} {found : Option Address}
    {m : Memory} (hcalloc : w.memory.calloc count size = (found, m)) :
    w.memory.Answers (count * size) none found m :=
  Memory.answers_calloc hw.lent hw.housed.memory hcalloc

/-- An object is made in one step, which is reported, or the request for its
block is refused. -/
theorem steps_allocate {type : TypeObject} {size : Nat} {body : Body}
    (hmakes : Makes type size body) (hroom : body.bytes ≤ size)
    (hfitted : strict = true → ∀ payload, Fitted type body payload) (hw : w.Provided)
    {result : Except ApiError Ref}
    (hrun : (Object.allocate type size body).run w = .ok result w') :
    w.Steps strict w' ∧
      ∀ r, result = .ok r → ∃ home, w'.object? r = some (fresh type body home) := by
  cases hcalloc : w.memory.calloc 1 size with
  | mk found m =>
    have hanswers := hw.answers_calloc hcalloc
    rw [Nat.one_mul] at hanswers
    rw [run_allocate hcalloc] at hrun
    cases found with
    | none =>
      cases hrun
      exact ⟨.single (.refused hanswers), nofun⟩
    | some home =>
      cases hrun
      refine ⟨.tail (.single (.made hmakes hroom hanswers fun hstrict => hfitted hstrict _))
        (.noticed rfl), ?_⟩
      rintro r ⟨⟩
      exact ⟨home, object?_made_self⟩

namespace Traces

/-- Making an object takes one step at most, if its block has room for it. -/
theorem allocate {type : TypeObject} {size : Nat} {body : Body} (hmakes : Makes type size body)
    (hroom : body.bytes ≤ size) (hfitted : strict = true → ∀ payload, Fitted type body payload) :
    Traces strict (Object.allocate type size body).run :=
  fun _ _ _ hw hrun => (steps_allocate hmakes hroom hfitted hw hrun).1

/-- An object with items is made by steps, if its block has room for it. -/
theorem newSized {type : TypeObject} {items : Nat} {body : Body}
    (hmakes : Makes type (type.itemSize * items + type.basicSize) body)
    (hroom : body.bytes ≤ type.itemSize * items + type.basicSize)
    (hfitted : strict = true → ∀ payload, Fitted type body payload) :
    Traces strict (Object.newSized type items body).run := by
  rcases newSized_eq type items body with ⟨size, -, heq⟩ | ⟨-, heq⟩
  · rw [heq]
    exact .refuse _
  · rw [heq]
    exact .allocate hmakes hroom hfitted

/-- An integer of any type that objects may be made of is boxed by steps. -/
theorem newIntegerOf {type : TypeObject} (hmayGo : type.routine ≠ .forbidden) {v : Int}
    (hsuits : strict = true → type.Suits (.integer v)) :
    Traces strict (Box.newIntegerOf type v).run :=
  have hmakes : Makes type type.basicSize (.integer v) := makes_of_bare hmayGo nofun nofun
  .allocate hmakes (Nat.zero_le _) fun hstrict => (hsuits hstrict).fitted nofun

/-- An integer is boxed by steps. -/
theorem newInteger (v : Int) : Traces strict (Box.newInteger v).run :=
  have hmayGo : TypeObject.int.routine ≠ .forbidden := nofun
  .newIntegerOf hmayGo fun _ => TypeObject.suits_int v

/-- A real number of any type that objects may be made of is boxed by steps. -/
theorem newRealOf {type : TypeObject} (hmayGo : type.routine ≠ .forbidden) {x : Double}
    (hsuits : strict = true → type.Suits (.real x)) :
    Traces strict (Box.newRealOf type x).run :=
  have hmakes : Makes type type.basicSize (.real x) := makes_of_bare hmayGo nofun nofun
  .allocate hmakes (Nat.zero_le _) fun hstrict => (hsuits hstrict).fitted nofun

/-- A real number is boxed by steps. -/
theorem newReal (x : Double) : Traces strict (Box.newReal x).run :=
  have hmayGo : TypeObject.float.routine ≠ .forbidden := nofun
  .newRealOf hmayGo fun _ => TypeObject.suits_float x

/-- A tuple of any type that tuples may be made of is made by steps. -/
theorem newTupleOf {type : TypeObject} (h : MakesTuples type) {length : Nat}
    (hsuits : strict = true → type.Suits (.tuple length)) :
    Traces strict (Box.newTupleOf type length).run :=
  .newSized (h.makes length) (h.bytes_le length) fun hstrict => (hsuits hstrict).fitted nofun

/-- The box of a truth value is got by steps. -/
theorem newBool (b : Bool) : Traces strict (Box.newBool b) := (retain _).bind fun _ => .ret _

/-- The box of nothing is got by steps. -/
theorem newNone : Traces strict Box.newNone := (retain _).bind fun _ => .ret _

end Traces

/-- The bytes of the text are written before anybody gets to see the object. -/
theorem Traces.newTextOf {type : TypeObject} (h : MakesTexts type) {text : String}
    (hsuits : strict = true → type.Suits (.text text.toUTF8.size)) :
    Traces strict (Box.newTextOf type text).run := by
  intro w result w' hw hrun
  cases madeText_newTextOf hrun with
  | tooLarge => exact .refl
  | refused hcalloc => exact .single (.refused (hw.answers_calloc hcalloc))
  | made hcalloc =>
    have hanswers := hw.answers_calloc hcalloc
    rw [Nat.one_mul] at hanswers
    have hcontent := h.content_le text.toUTF8.size
    refine .tail (.single (.made (h.makes _ _) (h.bytes_le _) (hanswers.write (by omega))
      fun hstrict => ⟨hsuits hstrict, ?_⟩)) (.noticed rfl)
    rintro _ ⟨⟩
    have hin := Process.lt_size_of_live (hanswers.live _ rfl)
    exact ⟨text, rfl, by rw [Process.payload_modifyPayload_self hin, Payload.read_write]⟩

end ExtensionHost
