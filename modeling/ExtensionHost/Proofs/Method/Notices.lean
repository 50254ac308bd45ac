import ExtensionHost.Proofs.Method.Invocation
import ExtensionHost.Proofs.Object.Notices

/-!
# `ExtensionHost.Proofs.Method.Notices`: calls and the events before them

What a call hands to its function does not depend on the events that were reported before:
`call_withEvents` compares the calls of a method in two worlds that differ in events alone,
with any function in the place of the method's own. The function may look at events. One
that does not (`Unseeing`) makes the whole call blind to them, so the answers are the same
as well (`blind_call`).
-/

set_option autoImplicit false

namespace ExtensionHost

namespace Method

open World Box Argument

variable {w : World} {name : String} {convention : CallConvention} {method : Method}
  {receiver arguments keywords named : Option Ref} {count : Nat}

/-! ### Functions that do not look at events -/

/-- The function does not look at events, whatever it is run with. -/
def Unseeing (f : NativeFunction) : Prop :=
  ∀ receiver arguments keywords, Blind (f receiver arguments keywords)

/-- A method whose function does not look at events does not either. -/
theorem blind_run (h : Unseeing method.function) (receiver arguments keywords : Option Ref)
    (count : Nat) : Blind (method.run receiver arguments keywords count).run := by
  have hruns (receiver arguments keywords : Option Ref) :
      Blind (do return ← method.function receiver arguments keywords : Attempt (Option Ref)).run :=
    .lift (h receiver arguments keywords)
  -- the empty tuple is made and released around the call, and neither looks at events
  have hempty (keywords : Option Ref) : Blind (do
      let empty ← newTuple 0
      let answer ← method.function receiver (some empty) keywords
      Host.release empty
      return answer : Attempt (Option Ref)).run := by
    refine (blind_newTuple 0).attempt_bind fun empty => ?_
    refine (Blind.lift (h receiver (some empty) keywords)).attempt_bind fun answer => ?_
    exact (Blind.lift (blind_release empty)).attempt_bind fun _ => .attempt_ret answer
  unfold run
  cases method.convention with
  | noArgs =>
    by_cases hcount : count = 0
    · simp only [if_pos hcount]
      exact hruns receiver none none
    · simp only [if_neg hcount]
      exact .refuse _
  | object =>
    cases arguments with
    | none => exact .refuse _
    | some r =>
      rcases count with _ | _ | count
      · exact .refuse _
      · have hitem : Blind (Attempt.read (tupleItem · r 0)).run := .read fun _ _ => rfl
        exact hitem.attempt_bind fun item => hruns receiver (some item) none
      · exact .refuse _
  | varArgs =>
    cases arguments with
    | none => exact hempty none
    | some r => exact hruns receiver (some r) none
  | varArgsKeywords =>
    cases arguments with
    | none => exact hempty keywords
    | some r => exact hruns receiver (some r) keywords

/-- The check of the arguments by name does not look at events. -/
theorem checkKeywords_withEvents (w : World) (events : Array Event) (method : Method)
    (named : Option Ref) :
    checkKeywords (w.withEvents events) method named = checkKeywords w method named := by
  cases named with
  | none => rfl
  | some r =>
    have hentries : keywordEntries (w.withEvents events) r = keywordEntries w r :=
      keywordEntries_congr rfl fun _ => rfl
    simp only [checkKeywords, KeywordSource.ofObject, KeywordSource.boxed, hentries]
    cases keywordEntries w r with
    | error e => rfl
    | ok entries => simp only [bind, Except.bind, pure, Except.pure, hentries]

/-- A call of a function that does not look at events does not look at any itself. -/
theorem blind_call (h : Unseeing method.function) (receiver arguments keywords : Option Ref) :
    Blind (method.call receiver arguments keywords).run := by
  rw [call]
  have hcount (w : World) (events : Array Event) :
      argumentCount (w.withEvents events) arguments = argumentCount w arguments := by
    cases arguments <;> rfl
  have hnamed (w : World) (events : Array Event) :
      namedArguments (w.withEvents events) keywords = namedArguments w keywords := by
    cases keywords <;> rfl
  refine (Blind.read hcount).attempt_bind fun count => ?_
  refine (Blind.read hnamed).attempt_bind fun named => ?_
  refine (Blind.read fun w events => checkKeywords_withEvents w events _ named).attempt_bind
    fun _ => ?_
  refine (Blind.lift (.report _)).attempt_bind fun _ => ?_
  refine (blind_run h receiver arguments named count).attempt_bind fun answer => ?_
  cases answer with
  | none => exact .refuse _
  | some answer => exact .attempt_ret answer

/-- Calling a descriptor does not look at events, if its function does not. -/
theorem blind_callDescriptor {descriptor : Descriptor}
    (h : ∀ f, descriptor.function = some f → Unseeing f)
    (receiver arguments keywords : Option Ref) :
    Blind (callDescriptor descriptor receiver arguments keywords).run := by
  rw [callDescriptor]
  cases hmethod : ofDescriptor descriptor with
  | error e => exact .refuse e
  | ok method =>
    exact blind_call (h _ (function_of_ofDescriptor hmethod)) receiver arguments keywords

/-! ### What is handed over -/

/-- The handover with other events so far. -/
def Handover.withEvents (handover : Handover) (events : Array Event) : Handover :=
  { handover with world := handover.world.withEvents events }

/-- A pair is a pair whatever was reported. -/
theorem slotHolds_withEvents {slot : Option Ref} {entry : String × Ref}
    (h : SlotHolds w slot entry) (events : Array Event) :
    SlotHolds (w.withEvents events) slot entry := by
  obtain ⟨pair, hslot, key, hpair, hname⟩ := h
  exact ⟨pair, hslot, key, hpair, hname⟩

/-- What may be named may be named whatever was reported. -/
theorem Names.withEvents (h : Names w convention keywords named) (events : Array Event) :
    Names (w.withEvents events) convention keywords named := by
  cases h with
  | absent => exact .absent
  | empty hslots => exact .empty hslots
  | pairs hconvention hslots hsome hpairs =>
    refine .pairs hconvention hslots hsome fun slot hslot => ?_
    obtain ⟨entry, hholds⟩ := hpairs slot hslot
    exact ⟨entry, slotHolds_withEvents hholds events⟩

/-- Arguments are counted the same whatever was reported. -/
theorem Counts.withEvents (h : Counts w arguments count) (events : Array Event) :
    Counts (w.withEvents events) arguments count := by
  cases h with
  | absent => exact .absent
  | tuple hslots => exact .tuple hslots

/-- What is handed over does not depend on events. -/
theorem Hands.withEvents {handover : Handover}
    (h : Hands w name convention arguments keywords handover) (events : Array Event) :
    ∃ events', Hands (w.withEvents events) name convention arguments keywords
      (handover.withEvents events') := by
  cases h with
  | nothing hcount hnames =>
    exact ⟨_, .nothing (hcount.withEvents events) (hnames.withEvents events)⟩
  | item hslots hnames =>
    have hslots : tupleSlots (w.withEvents events) _ = _ := hslots
    exact ⟨_, .item hslots (hnames.withEvents events)⟩
  | given htakes hslots hnames =>
    have hslots : tupleSlots (w.withEvents events) _ = _ := hslots
    exact ⟨_, .given htakes hslots (hnames.withEvents events)⟩
  | empty htakes hnames hmade =>
    obtain ⟨events', hrun⟩ := blind_newTuple 0 (announced w name convention 0)
      (events.push (.dispatched name convention.name (0 : Nat)))
    rw [hmade] at hrun
    exact ⟨events', .empty htakes (hnames.withEvents events) hrun⟩

/-- Two calls that are told apart by events alone hand the same over, or are refused for the
same reason. -/
theorem call_withEvents (method : Method) (receiver arguments keywords : Option Ref) (w : World)
    (events : Array Event) :
    (∃ (handover : Handover) (events' : Array Event), ∀ f,
      callWith method f receiver arguments keywords w = handover.invoke method.name f receiver ∧
      callWith method f receiver arguments keywords (w.withEvents events) =
        (handover.withEvents events').invoke method.name f receiver) ∨
    ∃ e w' events', ∀ f,
      callWith method f receiver arguments keywords w = .ok (.error e) w' ∧
      callWith method f receiver arguments keywords (w.withEvents events) =
        .ok (.error e) (w'.withEvents events') := by
  by_cases hadmits : Admits w method.name method.convention arguments keywords
  · obtain ⟨handover, hhands⟩ := admits_iff.1 hadmits
    obtain ⟨events', hhands'⟩ := hhands.withEvents events
    exact .inl ⟨handover, events', fun f => ⟨hhands.call f, hhands'.call f⟩⟩
  · obtain ⟨e, w', -, hrefused⟩ := refused_of_not_admits receiver hadmits
    -- a function that stops the process would be noticed, and it looks at no events
    let stop : NativeFunction := fun _ _ _ w => .error .dangling w
    have hunseeing : Unseeing stop := fun _ _ _ _ events => ⟨events, rfl⟩
    obtain ⟨events', hstop⟩ :=
      blind_call (show Unseeing { method with function := stop }.function from hunseeing)
        receiver arguments keywords w events
    have hstop : callWith method stop receiver arguments keywords (w.withEvents events) =
        .ok (.error e) (w'.withEvents events') := hstop.trans (congrArg _ (hrefused stop))
    refine .inr ⟨e, w', events', fun f => ⟨hrefused f, ?_⟩⟩
    by_cases hadmits' : Admits (w.withEvents events) method.name method.convention arguments
        keywords
    · obtain ⟨handover, hhands⟩ := admits_iff.1 hadmits'
      cases (hhands.call stop).symm.trans hstop
    · obtain ⟨e', w'', -, hrefused'⟩ := refused_of_not_admits receiver hadmits'
      exact (hrefused' f).trans ((hrefused' stop).symm.trans hstop)

end Method

end ExtensionHost
