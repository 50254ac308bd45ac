import ExtensionHost.Proofs.Argument.Pairs
import ExtensionHost.Proofs.Method.Call

/-!
# `ExtensionHost.Proofs.Method.Invocation`: which calls reach the function

A call is checked before the function of the method is run. `Admits` says which
calls pass the checks of a convention, in terms of what the call came with.
`Hands` says what the function is then run with, and in which world.

Nothing is assumed about the function: it may change the world as it likes and
stop the process. So that it is run once and on nothing else is said by an
equation that holds for all functions. With the rest of the call held fixed,
either the outcome is `Handover.invoke`, in which the function occurs once, or it
is the same refusal for all of them, and none is run.

Up to the function the call leaves all objects alone but the empty tuple that it
may have made (`object?_newTuple`), and afterwards it only releases this tuple
(`release_empty`).
-/

set_option autoImplicit false

namespace ExtensionHost

namespace Method

open World Box Argument

variable {w w' : World} {name : String} {convention : CallConvention} {method : Method}
  {receiver arguments keywords named : Option Ref} {count : Nat} {r s : Ref}

/-! ### What a function is run with -/

/-- What a call hands to the function, and the world that the function is run in. -/
structure Handover where
  arguments : Option Ref
  keywords : Option Ref
  /-- The empty tuple, if one was made for the call. -/
  made : Option Ref
  world : World

namespace Handover

/-- What is done when the function is back. -/
def close (handover : Handover) : Host Unit :=
  match handover.made with
  | some empty => Host.release empty
  | none => pure ()

/-- The function is run, and what it answers is the answer of the call. -/
def invoke (handover : Handover) (name : String) (f : NativeFunction) (receiver : Option Ref) :
    EStateM.Result Fault World (Except ApiError Ref) :=
  match f receiver handover.arguments handover.keywords handover.world with
  | .error fault w => .error fault w
  | .ok answer w =>
    match handover.close w with
    | .error fault w => .error fault w
    | .ok () w =>
      .ok (match answer with
        | some answer => .ok answer
        | none => .error (.callFailed name)) w

end Handover

/-- The call of a method with another function in the place of its own. -/
def callWith (method : Method) (f : NativeFunction) (receiver arguments keywords : Option Ref) :
    Host (Except ApiError Ref) :=
  ({ method with function := f }.call receiver arguments keywords).run

/-- The world in which the call of a method has been announced. -/
def announced (w : World) (name : String) (convention : CallConvention) (count : Nat) : World :=
  w.report (.dispatched name convention.name count)

/-- The argument count of a call: none without a tuple. -/
inductive Counts (w : World) : Option Ref → Nat → Prop
  | absent : Counts w none 0
  | tuple {r : Ref} {slots : List (Option Ref)} (hslots : tupleSlots w r = .ok slots) :
      Counts w (some r) slots.length

/-- What is passed on of the arguments given by name. Those in a box that holds none count
as absent; others must be a sequence of pairs, and the convention must take them. -/
inductive Names (w : World) (convention : CallConvention) : Option Ref → Option Ref → Prop
  | absent : Names w convention none none
  | empty {r : Ref} (hslots : sequenceSlots w r = .ok []) : Names w convention (some r) none
  | pairs {r : Ref} {slots : List (Option Ref)} (hconvention : convention = .varArgsKeywords)
      (hslots : sequenceSlots w r = .ok slots) (hsome : slots ≠ [])
      (hpairs : ∀ slot ∈ slots, ∃ entry, SlotHolds w slot entry) :
      Names w convention (some r) (some r)

/-- What the function of a method is run with, convention by convention. -/
inductive Hands (w : World) (name : String) :
    CallConvention → (arguments keywords : Option Ref) → Handover → Prop
  | nothing {arguments keywords named : Option Ref} (hcount : Counts w arguments 0)
      (hnames : Names w .noArgs keywords named) :
      Hands w name .noArgs arguments keywords ⟨none, none, none, announced w name .noArgs 0⟩
  | item {r item : Ref} {keywords named : Option Ref} (hslots : tupleSlots w r = .ok [some item])
      (hnames : Names w .object keywords named) :
      Hands w name .object (some r) keywords ⟨some item, none, none, announced w name .object 1⟩
  | given {convention : CallConvention} {r : Ref} {keywords named : Option Ref}
      {slots : List (Option Ref)} (htakes : convention = .varArgs ∨ convention = .varArgsKeywords)
      (hslots : tupleSlots w r = .ok slots) (hnames : Names w convention keywords named) :
      Hands w name convention (some r) keywords
        ⟨some r, named, none, announced w name convention slots.length⟩
  | empty {convention : CallConvention} {keywords named : Option Ref} {empty : Ref} {w' : World}
      (htakes : convention = .varArgs ∨ convention = .varArgsKeywords)
      (hnames : Names w convention keywords named)
      (hmade : (newTuple 0).run (announced w name convention 0) = .ok (.ok empty) w') :
      Hands w name convention none keywords ⟨some empty, named, some empty, w'⟩

/-! ### The checks -/

/-- There are as many arguments as slots of the tuple, and none without a tuple. -/
theorem argumentCount_eq_ok_iff :
    argumentCount w arguments = .ok count ↔ Counts w arguments count := by
  cases arguments with
  | none =>
    constructor
    · rintro ⟨⟩
      exact .absent
    · rintro ⟨⟩
      rfl
  | some r =>
    constructor
    · intro h
      obtain ⟨slots, hslots, rfl⟩ := tupleSlots_of_length h
      exact .tuple hslots
    · intro h
      cases h with
      | tuple hslots => exact tupleLength_eq_ok hslots

/-- A tuple of no arguments has no slots. -/
theorem Counts.slots_of_zero (h : Counts w arguments 0) (r : Ref) (hr : arguments = some r) :
    tupleSlots w r = .ok [] := by
  generalize hcount : 0 = count at h
  cases h with
  | absent => cases hr
  | tuple hslots =>
    cases hr
    rw [hslots, List.length_eq_zero_iff.1 hcount.symm]

/-- What is passed on of arguments given by name passes the checks, and nothing else does. -/
theorem names_iff : Names w method.convention keywords named ↔
    namedArguments w keywords = .ok named ∧ checkKeywords w method named = .ok () := by
  constructor
  · intro h
    cases h with
    | absent => exact ⟨rfl, rfl⟩
    | empty hslots =>
      rw [namedArguments, hslots]
      exact ⟨rfl, rfl⟩
    | pairs hconvention hslots hsome hpairs =>
      obtain ⟨entries, hentries⟩ := keywordEntries_readable_iff.2 ⟨_, hslots, hpairs⟩
      constructor
      · rw [namedArguments, hslots]
        exact congrArg Except.ok (if_neg fun hempty => hsome (List.isEmpty_iff.1 hempty))
      · rw [checkKeywords, ofObject_eq_ok_iff.2 ⟨rfl, entries, hentries⟩, hconvention]
        rfl
  · rintro ⟨hnamed, hcheck⟩
    cases keywords with
    | none =>
      cases hnamed
      exact .absent
    | some r =>
      obtain ⟨slots, hslots, hnamed⟩ := except_bind_eq_ok.1 hnamed
      obtain rfl := Except.ok.inj hnamed
      by_cases hempty : slots.isEmpty = true
      · rw [if_pos hempty]
        exact .empty (List.isEmpty_iff.1 hempty ▸ hslots)
      · rw [if_neg hempty] at hcheck ⊢
        obtain ⟨source, hsource, hcheck⟩ := except_bind_eq_ok.1 hcheck
        obtain ⟨rfl, hentries⟩ := ofObject_eq_ok_iff.1 hsource
        obtain ⟨slots', hslots', hpairs⟩ := keywordEntries_readable_iff.1 hentries
        obtain rfl := Except.ok.inj (hslots.symm.trans hslots')
        refine .pairs ?_ hslots (fun hnil => hempty (List.isEmpty_iff.2 hnil)) hpairs
        -- a convention without names refuses any names that are there
        by_contra hother
        rw [CallConvention.acceptsKeywords, if_neg (by simpa using hother)] at hcheck
        obtain ⟨entries, -, hcheck⟩ := except_bind_eq_ok.1 hcheck
        cases hcheck

/-- The checks of a call, with the argument count and the names that are passed on. -/
def checks (w : World) (method : Method) (arguments keywords : Option Ref) :
    Except ApiError (Nat × Option Ref) := do
  let count ← argumentCount w arguments
  let named ← namedArguments w keywords
  checkKeywords w method named
  return (count, named)

/-- The checks before a call accept exactly what can be counted and what may be named. -/
theorem checks_eq_ok_iff : checks w method arguments keywords = .ok (count, named) ↔
    Counts w arguments count ∧ Names w method.convention keywords named := by
  rw [← argumentCount_eq_ok_iff, names_iff]
  constructor
  · intro h
    obtain ⟨count, hcount, h⟩ := except_bind_eq_ok.1 h
    obtain ⟨named, hnamed, h⟩ := except_bind_eq_ok.1 h
    obtain ⟨u, hcheck, h⟩ := except_bind_eq_ok.1 h
    cases h
    exact ⟨hcount, hnamed, hcheck⟩
  · rintro ⟨hcount, hnamed, hcheck⟩
    rw [checks, hcount, hnamed]
    show (checkKeywords w method named >>= fun _ => _) = _
    rw [hcheck]
    rfl

/-- What is made of what the function of a method answered. -/
def concluded (name : String) : EStateM.Result Fault World (Except ApiError (Option Ref)) →
    EStateM.Result Fault World (Except ApiError Ref)
  | .error fault w => .error fault w
  | .ok (.error e) w => .ok (.error e) w
  | .ok (.ok none) w => .ok (.error (.callFailed name)) w
  | .ok (.ok (some answer)) w => .ok (.ok answer) w

/-- A call without an answer is refused, because the function has reported the error itself. -/
theorem run_concluded (name : String) (attempt : Attempt (Option Ref)) (w : World) :
    (do match ← attempt with
      | some answer => return answer
      | none => throw (.callFailed name) : Attempt Ref).run w =
        concluded name (attempt.run w) := by
  rw [Attempt.run_bind]
  cases attempt.run w with
  | error fault w' => rfl
  | ok result w' =>
    cases result with
    | error e => rfl
    | ok answer => cases answer <;> rfl

/-- A call is refused by a check, or comes to what running the function comes to. -/
theorem call_eq (method : Method) (receiver arguments keywords : Option Ref) (w : World) :
    (method.call receiver arguments keywords).run w =
      match checks w method arguments keywords with
      | .error e => .ok (.error e) w
      | .ok (count, named) => concluded method.name
        ((method.run receiver arguments named count).run
          (announced w method.name method.convention count)) := by
  rw [call, checks, Attempt.run_read_bind]
  cases argumentCount w arguments with
  | error e => rfl
  | ok count =>
    dsimp only
    rw [Attempt.run_read_bind]
    cases namedArguments w keywords with
    | error e => rfl
    | ok named =>
      dsimp only
      rw [Attempt.run_read_bind]
      cases hcheck : checkKeywords w method named with
      | error e => simp only [hcheck, bind, Except.bind]
      | ok u =>
        simp only [hcheck, bind, Except.bind, pure, Except.pure]
        exact run_concluded method.name _ (announced w method.name method.convention count)

/-! ### The empty tuple -/

/-- A tuple is made in a block that is handed out for it, or storage is missing. -/
theorem newTuple_cases (length : Nat) (w : World) :
    (∃ size m, (newTuple length).run w = .ok (.error (.allocationFailed size)) (w.withMemory m)) ∨
      ∃ size m home, (newTuple length).run w = .ok (.ok w.objects.size)
        ((w.made m .tuple (.tuple length) home).report
          (.objectCreated TypeObject.tuple.name size)) := by
  rw [newTuple, newTupleOf]
  rcases newSized_eq .tuple length (.tuple length) with ⟨size, -, heq⟩ | ⟨-, heq⟩
  · rw [heq]
    exact .inl ⟨size, w.memory, rfl⟩
  · rw [heq]
    cases hcalloc : w.memory.calloc 1
      (TypeObject.tuple.itemSize * length + TypeObject.tuple.basicSize) with
    | mk found m =>
      rw [run_allocate hcalloc]
      cases found with
      | none => exact .inl ⟨_, m, rfl⟩
      | some home => exact .inr ⟨_, m, home, rfl⟩

/-- No object that is there is touched by making a tuple. -/
theorem object?_newTuple {length : Nat} {result : Except ApiError Ref}
    (hrun : (newTuple length).run w = .ok result w') (hs : (w.object? s).isSome) :
    w'.object? s = w.object? s := by
  rcases newTuple_cases length w with ⟨size, m, hcase⟩ | ⟨size, m, home, hcase⟩
  · obtain ⟨-, rfl⟩ := EStateM.Result.ok.inj (hrun.symm.trans hcase)
    rfl
  · obtain ⟨-, rfl⟩ := EStateM.Result.ok.inj (hrun.symm.trans hcase)
    exact object?_made_of_some (Option.isSome_iff_ne_none.1 hs)

/-- The empty tuple has a name of its own, one reference and no slots. -/
theorem newTuple_empty (hrun : (newTuple 0).run w = .ok (.ok r) w') :
    w.object? r = none ∧ w'.count r = 1 ∧ tupleSlots w' r = .ok [] := by
  rcases newTuple_cases 0 w with ⟨size, m, hcase⟩ | ⟨size, m, home, hcase⟩
  · cases hrun.symm.trans hcase
  · obtain ⟨hr, rfl⟩ := EStateM.Result.ok.inj (hrun.symm.trans hcase)
    obtain rfl := Except.ok.inj hr
    have hobject : ((w.made m .tuple (.tuple 0) home).report
        (.objectCreated TypeObject.tuple.name size)).object? w.objects.size =
          some (fresh .tuple (.tuple 0) home) := object?_made_self
    refine ⟨object?_size w, ?_, ?_⟩
    · rw [World.count, hobject]
      rfl
    · rw [tupleSlots, tupleObject_eq_ok.2 ⟨hobject, rfl, rfl⟩]
      rfl

/-! ### The run of the function -/

/-- A function that gets what it is called with has nothing to be released afterwards. -/
theorem concluded_function (name : String) (f : NativeFunction)
    (receiver arguments keywords : Option Ref) (w : World) :
    concluded name ((do return ← f receiver arguments keywords : Attempt (Option Ref)).run w) =
      Handover.invoke ⟨arguments, keywords, none, w⟩ name f receiver := by
  rw [Handover.invoke]
  show concluded name ((monadLift (f receiver arguments keywords) : Attempt _).run w) = _
  rw [Attempt.run_lift]
  cases f receiver arguments keywords w with
  | error fault w' => rfl
  | ok answer w' => cases answer <;> rfl

/-- A function that was called with a tuple made for it has this tuple released afterwards. -/
theorem concluded_released (name : String) (f : NativeFunction)
    (receiver keywords : Option Ref) (empty : Ref) (w : World) :
    concluded name ((do
        let answer ← f receiver (some empty) keywords
        Host.release empty
        return answer : Attempt (Option Ref)).run w) =
      Handover.invoke ⟨some empty, keywords, some empty, w⟩ name f receiver := by
  rw [Attempt.run_bind, Attempt.run_lift, Handover.invoke]
  cases f receiver (some empty) keywords w with
  | error fault w' => rfl
  | ok answer w' =>
    dsimp only [Handover.close]
    rw [Attempt.run_bind, Attempt.run_lift]
    cases Host.release empty w' with
    | error fault w'' => rfl
    | ok u w'' => cases answer <;> rfl

/-- Names are only passed on by a convention that takes them. -/
theorem Names.passed (h : Names w convention keywords named) :
    (if convention.acceptsKeywords then named else none) = named := by
  cases h with
  | absent | empty => exact ite_self none
  | pairs hconvention =>
    rw [hconvention]
    rfl

/-- A function without arguments is called with none. -/
theorem run_noArgs (hconvention : method.convention = .noArgs) :
    concluded method.name ((method.run receiver arguments named 0).run w) =
      Handover.invoke ⟨none, none, none, w⟩ method.name method.function receiver := by
  unfold run
  simp only [hconvention]
  exact concluded_function _ _ _ _ _ _

/-- A function of one argument is called with the one item of the tuple. -/
theorem run_object {item : Ref} (hconvention : method.convention = .object)
    (hitem : tupleItem w r 0 = .ok item) :
    concluded method.name ((method.run receiver (some r) named 1).run w) =
      Handover.invoke ⟨some item, none, none, w⟩ method.name method.function receiver := by
  unfold run
  simp only [hconvention]
  rw [Attempt.run_read_bind, hitem]
  exact concluded_function _ _ _ _ _ _

/-- Without an occupant of the only slot the function is not run. -/
theorem run_noItem {e : ApiError} (hconvention : method.convention = .object)
    (hitem : tupleItem w r 0 = .error e) :
    concluded method.name ((method.run receiver (some r) named 1).run w) = .ok (.error e) w := by
  unfold run
  simp only [hconvention]
  rw [Attempt.run_read_bind, hitem]
  rfl

section Tuple

variable (htakes : method.convention = .varArgs ∨ method.convention = .varArgsKeywords)
include htakes

/-- A function of any arguments is called with the tuple itself. -/
theorem run_tuple (hpassed : (if method.convention.acceptsKeywords then named else none) = named) :
    concluded method.name ((method.run receiver (some r) named count).run w) =
      Handover.invoke ⟨some r, named, none, w⟩ method.name method.function receiver := by
  unfold run
  rcases htakes with hconvention | hconvention <;>
    (simp only [hconvention] at hpassed ⊢
     rw [hpassed]
     exact concluded_function _ _ _ _ _ _)

/-- A function of any arguments that is called without a tuple gets a new one. -/
theorem run_emptyTuple
    (hpassed : (if method.convention.acceptsKeywords then named else none) = named)
    (hmade : (newTuple 0).run w = .ok (.ok r) w') :
    concluded method.name ((method.run receiver none named count).run w) =
      Handover.invoke ⟨some r, named, some r, w'⟩ method.name method.function receiver := by
  unfold run
  rcases htakes with hconvention | hconvention <;>
    (simp only [hconvention] at hpassed ⊢
     rw [hpassed, Attempt.run_bind_ok hmade]
     exact concluded_released _ _ _ _ _ _)

/-- Without storage for the empty tuple the function is not run. -/
theorem run_noTuple {e : ApiError} (hmade : (newTuple 0).run w = .ok (.error e) w') :
    concluded method.name ((method.run receiver none named count).run w) = .ok (.error e) w' := by
  unfold run
  rcases htakes with hconvention | hconvention <;>
    (simp only [hconvention]
     rw [Attempt.run_bind_error hmade]
     rfl)

end Tuple

/-- What a call hands to the function is what the function is run with, once, and
nothing else is done but to release the empty tuple. -/
theorem Hands.call {handover : Handover}
    (h : Hands w method.name method.convention arguments keywords handover) (f : NativeFunction) :
    callWith method f receiver arguments keywords w = handover.invoke method.name f receiver := by
  obtain ⟨name, doc, convention, function⟩ := method
  dsimp only [callWith] at h ⊢
  have hchecked (count : Nat) (named : Option Ref) (hcount : Counts w arguments count)
      (hnames : Names w convention keywords named) :
      checks w ⟨name, doc, convention, f⟩ arguments keywords = .ok (count, named) :=
    checks_eq_ok_iff.2 ⟨hcount, hnames⟩
  rw [call_eq]
  cases h with
  | nothing hcount hnames =>
    rw [hchecked _ _ hcount hnames]
    exact run_noArgs rfl
  | item hslots hnames =>
    rw [hchecked _ _ (.tuple hslots) hnames]
    exact run_object rfl ((tupleItem_eq_ok_iff hslots 0 _).2 rfl)
  | given htakes hslots hnames =>
    rw [hchecked _ _ (.tuple hslots) hnames]
    exact run_tuple htakes hnames.passed
  | empty htakes hnames hmade =>
    rw [hchecked _ _ .absent hnames]
    exact run_emptyTuple htakes hnames.passed hmade

/-! ### The calls that are admitted -/

/-- The calls whose shape a convention allows. Without arguments a function that takes a
tuple gets an empty one, for which there must be storage. -/
structure Admits (w : World) (name : String) (convention : CallConvention)
    (arguments keywords : Option Ref) : Prop where
  tuple : ∀ r, arguments = some r → ∃ slots, tupleSlots w r = .ok slots
  names : ∀ r, keywords = some r → ∃ slots, sequenceSlots w r = .ok slots ∧
    (slots = [] ∨ convention = .varArgsKeywords ∧
      ∀ slot ∈ slots, ∃ entry, SlotHolds w slot entry)
  nothing : convention = .noArgs → ∀ r, arguments = some r → tupleSlots w r = .ok []
  item : convention = .object → ∃ r item, arguments = some r ∧ tupleSlots w r = .ok [some item]
  room : convention = .varArgs ∨ convention = .varArgsKeywords → arguments = none →
    ∃ empty w', (newTuple 0).run (announced w name convention 0) = .ok (.ok empty) w'

/-- Arguments by name are fine if there are none, or if the convention takes them and
all are pairs. -/
theorem exists_names_iff : (∃ named, Names w convention keywords named) ↔
    ∀ r, keywords = some r → ∃ slots, sequenceSlots w r = .ok slots ∧
      (slots = [] ∨ convention = .varArgsKeywords ∧
        ∀ slot ∈ slots, ∃ entry, SlotHolds w slot entry) := by
  constructor
  · rintro ⟨named, hnames⟩ r rfl
    cases hnames with
    | empty hslots => exact ⟨[], hslots, .inl rfl⟩
    | pairs hconvention hslots _ hpairs => exact ⟨_, hslots, .inr ⟨hconvention, hpairs⟩⟩
  · intro h
    cases keywords with
    | none => exact ⟨none, .absent⟩
    | some r =>
      obtain ⟨slots, hslots, hcases⟩ := h r rfl
      by_cases hempty : slots = []
      · exact ⟨none, .empty (hempty ▸ hslots)⟩
      · obtain ⟨hconvention, hpairs⟩ := hcases.resolve_left hempty
        exact ⟨some r, .pairs hconvention hslots hempty hpairs⟩

/-- The calls that are admitted are those for which there is something to hand over. -/
theorem admits_iff : Admits w name convention arguments keywords ↔
    ∃ handover, Hands w name convention arguments keywords handover := by
  constructor
  · intro h
    obtain ⟨named, hnames⟩ := exists_names_iff.2 h.names
    -- the two conventions that take a tuple differ in the names alone
    have htuple (htakes : convention = .varArgs ∨ convention = .varArgsKeywords) :
        ∃ handover, Hands w name convention arguments keywords handover := by
      cases arguments with
      | none =>
        obtain ⟨empty, w', hmade⟩ := h.room htakes rfl
        exact ⟨_, .empty htakes hnames hmade⟩
      | some r =>
        obtain ⟨slots, hslots⟩ := h.tuple r rfl
        exact ⟨_, .given htakes hslots hnames⟩
    cases convention with
    | noArgs =>
      refine ⟨_, .nothing ?_ hnames⟩
      cases arguments with
      | none => exact .absent
      | some r => exact .tuple (h.nothing rfl r rfl)
    | object =>
      obtain ⟨r, item, rfl, hslots⟩ := h.item rfl
      exact ⟨_, .item hslots hnames⟩
    | varArgs => exact htuple (.inl rfl)
    | varArgsKeywords => exact htuple (.inr rfl)
  · rintro ⟨handover, h⟩
    cases h with
    | nothing hcount hnames =>
      exact ⟨fun r hr => ⟨[], hcount.slots_of_zero r hr⟩, exists_names_iff.1 ⟨_, hnames⟩,
        fun _ => hcount.slots_of_zero, nofun, nofun⟩
    | item hslots hnames =>
      refine ⟨?_, exists_names_iff.1 ⟨_, hnames⟩, nofun, fun _ => ⟨_, _, rfl, hslots⟩, nofun⟩
      rintro r ⟨⟩
      exact ⟨_, hslots⟩
    | given htakes hslots hnames =>
      refine ⟨?_, exists_names_iff.1 ⟨_, hnames⟩, ?_, ?_, fun _ => nofun⟩
      · rintro r ⟨⟩
        exact ⟨_, hslots⟩
      · rintro rfl
        rcases htakes with htakes | htakes <;> cases htakes
      · rintro rfl
        rcases htakes with htakes | htakes <;> cases htakes
    | empty htakes hnames hmade =>
      refine ⟨nofun, exists_names_iff.1 ⟨_, hnames⟩, fun _ => nofun, ?_, fun _ _ => ⟨_, _, hmade⟩⟩
      rintro rfl
      rcases htakes with htakes | htakes <;> cases htakes

/-- When nothing can be handed over although the checks were passed, then the number of
arguments is wrong, or one is missing, or there is no storage for the empty tuple. -/
theorem run_of_not_hands (name : String) (doc : Option String) (receiver : Option Ref)
    (hcount : Counts w arguments count) (hnames : Names w convention keywords named)
    (h : ¬∃ handover, Hands w name convention arguments keywords handover) :
    ∃ e w', (∀ s, w'.object? s = w.object? s) ∧ ∀ f,
      concluded name ((run ⟨name, doc, convention, f⟩ receiver arguments named count).run
        (announced w name convention count)) = .ok (.error e) w' := by
  -- where a tuple is handed over, one that is given will do, so there was none to be made
  have htuple (htakes : convention = .varArgs ∨ convention = .varArgsKeywords) :
      ∃ e w', (∀ s, w'.object? s = w.object? s) ∧ ∀ f, concluded name
        ((run ⟨name, doc, convention, f⟩ receiver arguments named count).run
          (announced w name convention count)) = .ok (.error e) w' := by
    cases hcount with
    | tuple hslots => exact absurd ⟨_, .given htakes hslots hnames⟩ h
    | absent =>
      rcases newTuple_cases 0 (announced w name convention 0) with
        ⟨size, m, hmade⟩ | ⟨size, m, home, hmade⟩
      · exact ⟨_, (announced w name convention 0).withMemory m, fun _ => rfl,
          fun f => run_noTuple htakes hmade⟩
      · exact absurd ⟨_, .empty htakes hnames hmade⟩ h
  cases convention with
  | noArgs =>
    have hsome : count ≠ 0 := fun hzero => h ⟨_, .nothing (hzero ▸ hcount) hnames⟩
    refine ⟨.arity 0 0 count, announced w name .noArgs count, fun _ => rfl, fun f => ?_⟩
    unfold run
    simp only [if_neg hsome]
    rfl
  | object =>
    cases hcount with
    | absent => exact ⟨.arity 1 1 0, announced w name .object 0, fun _ => rfl, fun f => rfl⟩
    | @tuple r slots hslots =>
      match slots, hslots with
      | [], _ => exact ⟨.arity 1 1 0, announced w name .object 0, fun _ => rfl, fun f => rfl⟩
      | [some item], hslots => exact absurd ⟨_, .item hslots hnames⟩ h
      | [none], hslots =>
        -- one argument is what is asked for, but its slot was never set
        have hslots : tupleSlots (announced w name .object 1) r = .ok [none] := hslots
        cases hitem : tupleItem (announced w name .object 1) r 0 with
        | ok item => cases (tupleItem_eq_ok_iff hslots 0 item).1 hitem
        | error e =>
          exact ⟨e, announced w name .object 1, fun _ => rfl, fun f => run_noItem rfl hitem⟩
      | _ :: _ :: more, _ =>
        exact ⟨.arity 1 1 (more.length + 2), announced w name .object (more.length + 2),
          fun _ => rfl, fun f => rfl⟩
  | varArgs => exact htuple (.inl rfl)
  | varArgsKeywords => exact htuple (.inr rfl)

/-- A call that is not admitted is refused with no object touched, and the function has no
part in it. -/
theorem refused_of_not_admits (receiver : Option Ref)
    (h : ¬Admits w method.name method.convention arguments keywords) :
    ∃ e w', (∀ s, w'.object? s = w.object? s) ∧ ∀ f,
      callWith method f receiver arguments keywords w = .ok (.error e) w' := by
  obtain ⟨name, doc, convention, function⟩ := method
  have hchecks (f : NativeFunction) : checks w ⟨name, doc, convention, f⟩ arguments keywords =
      checks w ⟨name, doc, convention, function⟩ arguments keywords := rfl
  simp only [callWith, call_eq, hchecks]
  cases hchecked : checks w ⟨name, doc, convention, function⟩ arguments keywords with
  | error e => exact ⟨e, w, fun _ => rfl, fun _ => rfl⟩
  | ok found =>
    obtain ⟨hcount, hnames⟩ := checks_eq_ok_iff.1 hchecked
    exact run_of_not_hands name doc receiver hcount hnames (mt admits_iff.2 h)

/-- Up to the function no object is touched. -/
theorem Hands.untouched {handover : Handover}
    (h : Hands w name convention arguments keywords handover) (hs : (w.object? s).isSome) :
    handover.world.object? s = w.object? s := by
  cases h with
  | nothing | item | given => rfl
  | empty _ _ hmade =>
    have hannounced : ((announced w name convention 0).object? s).isSome := hs
    have huntouched := object?_newTuple hmade hannounced
    exact huntouched

/-- The tuple that is made for a call is not yet known to anybody. -/
theorem Hands.fresh {handover : Handover} {empty : Ref}
    (h : Hands w name convention arguments keywords handover) (hmade : handover.made = some empty) :
    w.object? empty = none ∧ handover.world.count empty = 1 ∧
      tupleSlots handover.world empty = .ok [] := by
  cases h with
  | nothing | item | given => cases hmade
  | empty _ _ hrun =>
    cases hmade
    have hempty := newTuple_empty hrun
    exact hempty

/-- The release of the empty tuple touches nothing else, and the tuple goes with it unless
the function kept it. -/
theorem release_empty {kept : Multiset Ref} (h : w.Sound (r ::ₘ kept))
    (hempty : tupleSlots w r = .ok []) :
    ∃ w', Host.release r w = .ok () w' ∧ w'.Sound kept ∧
      (∀ s, s ≠ r → w'.object? s = w.object? s) ∧ (w.count r = 1 → w'.object? r = none) := by
  obtain ⟨⟨object, length⟩, htuple, hslots⟩ := except_map_eq_ok.1 hempty
  obtain ⟨hobject, -, -⟩ := tupleObject_eq_ok.1 htuple
  have hbare : w.contents r = [] := by
    rw [contents, slots_of_object? hobject, show w.slotsOf object = [] from hslots]
    rfl
  obtain ⟨w', hrun, hsound, hothers, hlast⟩ := h.release_bare hbare
  refine ⟨w', hrun, hsound, hothers, fun hone => hlast ?_⟩
  rw [World.count, hobject] at hone
  exact count?_eq_some.2 ⟨object, hobject, hone⟩

/-! ### Calls -/

/-- A call reaches the function exactly when its shape is one that the convention allows.
Then the function is run once, on what is handed over, and what it answers is the answer
of the call; up to there no object has been touched. Otherwise the call is refused, again
with no object touched, and it makes no difference what the function is. The empty tuple
that is made for a call without arguments is new, and its release touches nothing else.
Where texts are in their boxes, as they are in every world of a strict run, what counts
as a pair is told by its types. -/
theorem call_reaches (method : Method) (receiver arguments keywords : Option Ref) (w : World) :
    ((∃ handover : Handover, ∀ f, callWith method f receiver arguments keywords w =
        handover.invoke method.name f receiver) ↔
      Admits w method.name method.convention arguments keywords) ∧
    (Admits w method.name method.convention arguments keywords →
      ∃ handover, Hands w method.name method.convention arguments keywords handover ∧
        (∀ f, callWith method f receiver arguments keywords w =
          handover.invoke method.name f receiver) ∧
        (∀ s, (w.object? s).isSome → handover.world.object? s = w.object? s) ∧
        ∀ empty, handover.made = some empty → w.object? empty = none ∧
          handover.world.count empty = 1 ∧ tupleSlots handover.world empty = .ok []) ∧
    (¬Admits w method.name method.convention arguments keywords →
      ∃ e w', (∀ s, w'.object? s = w.object? s) ∧ ∀ f,
        callWith method f receiver arguments keywords w = .ok (.error e) w') ∧
    (∀ w' kept empty, w'.Sound (empty ::ₘ kept) → tupleSlots w' empty = .ok [] →
      ∃ w'', Host.release empty w' = .ok () w'' ∧ w''.Sound kept ∧
        (∀ s, s ≠ empty → w''.object? s = w'.object? s) ∧
        (w'.count empty = 1 → w''.object? empty = none)) ∧
    (w.TextsHold → ∀ slot, (∃ entry, SlotHolds w slot entry) ↔
      ∃ pair key value, slot = some pair ∧ tupleSlots w pair = .ok [some key, some value] ∧
        w.isInstance key .str = true) ∧
    ∀ system settings owned, Thread true system settings w owned → w.TextsHold := by
  refine ⟨⟨fun ⟨handover, hinvoke⟩ => ?_, fun hadmits => ?_⟩, fun hadmits => ?_,
    refused_of_not_admits receiver, fun w' kept empty hsound hempty => release_empty hsound hempty,
    fun hhold slot => slotHolds_iff hhold, fun _ _ _ => textsHold_of_thread⟩
  · -- a function that stops the process would be noticed
    by_contra hnot
    obtain ⟨e, w', -, hrefused⟩ := refused_of_not_admits receiver hnot
    have hstops := (hinvoke fun _ _ _ w => .error .dangling w).symm.trans (hrefused _)
    cases hstops
  · obtain ⟨handover, hhands⟩ := admits_iff.1 hadmits
    exact ⟨handover, hhands.call⟩
  · obtain ⟨handover, hhands⟩ := admits_iff.1 hadmits
    exact ⟨handover, hhands, hhands.call, fun s hs => hhands.untouched hs,
      fun empty hmade => hhands.fresh hmade⟩

/-- A method that takes names, and answers with a truth. -/
def truthful (convention : CallConvention) : Method where
  name := "truthful"
  doc := none
  convention := convention
  function := fun _ _ _ => pure (some Ref.yes)

/-- A pair of a name and a value without arguments reaches a function that takes names,
which gets an empty tuple, and no function that takes nothing. -/
theorem call_reaches_withPair :
    (∃ handover, Hands withPair "truthful" .varArgsKeywords none (some 6) handover ∧
      callWith (truthful .varArgsKeywords) (truthful .varArgsKeywords).function none none (some 6)
        withPair = handover.invoke "truthful" (truthful .varArgsKeywords).function none) ∧
    (∃ e w', ∀ f, callWith (truthful .noArgs) f none none (some 6) withPair = .ok (.error e) w') ∧
    (∃ entry, SlotHolds withPair (some 5) entry) ∧
    ∃ w', w'.Sound {3} ∧ ∃ w'', Host.release 3 w' = .ok () w'' ∧ w''.object? 3 = none := by
  have hslots : sequenceSlots withPair 6 = .ok [some 5] := rfl
  have hpair : tupleSlots withPair 5 = .ok [some 4, some Ref.yes] := rfl
  obtain ⟨-, hreaches, -, hrelease, htexts, hrun⟩ :=
    call_reaches (truthful .varArgsKeywords) none none (some 6) withPair
  have hhold := hrun _ _ _ thread_withPair
  have hholds := (htexts hhold (some 5)).2 ⟨5, 4, Ref.yes, rfl, hpair, rfl⟩
  have hadmits : Admits withPair "truthful" .varArgsKeywords none (some 6) := by
    refine ⟨nofun, ?_, nofun, nofun, fun _ _ => ⟨_, _, rfl⟩⟩
    rintro r ⟨⟩
    refine ⟨[some 5], hslots, .inr ⟨rfl, fun slot hslot => ?_⟩⟩
    obtain rfl := List.mem_singleton.1 hslot
    exact hholds
  have hrefuses : ¬Admits withPair "truthful" .noArgs none (some 6) := by
    intro h
    obtain ⟨slots, hfound, hempty | ⟨hconvention, -⟩⟩ := h.names 6 rfl
    · cases hslots.symm.trans (hfound.trans (congrArg _ hempty))
    · cases hconvention
  obtain ⟨handover, hhands, hinvoke, -⟩ := hreaches hadmits
  obtain ⟨e, w', -, hrefused⟩ :=
    (call_reaches (truthful .noArgs) none none (some 6) withPair).2.2.1 hrefuses
  -- a tuple that was made and never used can be released
  let first := World.new (.bounded 0x1000000) {}
  obtain ⟨w₁, hmade⟩ : ∃ w₁, (newTuple 0).run first = .ok (.ok 3) w₁ := ⟨_, rfl⟩
  obtain ⟨made, w₂, hrun, hsound, -⟩ := creates_newTuple 0 first 0 (sound_new _ _)
  cases hmade.symm.trans hrun
  obtain ⟨-, hone, hempty⟩ := newTuple_empty hmade
  rw [gained_ok] at hsound
  obtain ⟨w₃, hreleased, -, -, hgone⟩ := hrelease w₁ 0 3 hsound hempty
  exact ⟨⟨handover, hhands, hinvoke _⟩, ⟨e, w', hrefused⟩, hholds, w₁, hsound, w₃, hreleased,
    hgone hone⟩

end Method

end ExtensionHost
