import ExtensionHost.Proofs.Boundary.Conservation
import ExtensionHost.Proofs.Upkeep.Containers

/-!
# `ExtensionHost.Proofs.Upkeep.Operations`: all operations are sequences of steps

What is left is put together from the operations on boxes and containers:
building values, taking arguments apart, the functions of the boundary, calls.

A call runs a function of an extension, of which only its contract is known.
`Method.Honours` is the part of the contract that is about references, and says
nothing of storage: a function could ask for a block and forget it. So there is a
second part, `Method.Upholds`: what the function does to objects and storage it
does by operations of the interface. In a strict run it may also make no object
that does not hold what its type stands for. Methods and tables uphold this when
the functions behind them do.
-/

set_option autoImplicit false

namespace ExtensionHost

open World Box

namespace Traces

variable {strict : Bool} {α : Type} {attempt : Attempt α}

/-! ### Building values -/

/-- A text is boxed by steps. -/
theorem newText (text : String) : Traces strict (Box.newText text).run :=
  .newTextOf makesTexts_str fun _ => TypeObject.suits_str text.toUTF8.size

/-- A native value is boxed by steps. -/
theorem boxNative (value : Native) : Traces strict (Argument.boxNative value).run := by
  cases value with
  | text value =>
    cases value with
    | none => exact newNone.lift
    | some text => exact newText text
  | int v | long v | longLong v => exact newInteger v
  | double x => exact newReal x
  | float x => exact newReal x.widen
  | object pointer =>
    cases pointer with
    | none => exact .refuse _
    | some r => exact (retain r).lift.attempt_bind fun _ => .attempt_ret r

/-- The value of a code is built by steps. -/
theorem buildCode (values : List Native) : Traces strict (Argument.buildCode values).run := by
  cases values with
  | nil => exact .refuse _
  | cons value rest => exact (boxNative value).attempt_bind fun _ => .attempt_ret _

mutual

/-- What an item of a format stands for is built by steps. -/
theorem buildItem : (item : BuildItem) → (values : List Native) →
    Traces strict (Argument.buildItem item values).run
  | .code _, values => by
    rw [Argument.buildItem]
    exact buildCode values
  | .group items, values => by
    rw [Argument.buildItem]
    refine (newTuple items.length).attempt_bind fun r => ?_
    exact ((buildMembers items r 0 values).attempt_bind fun _ => .attempt_ret _).consuming r

/-- The members of a group are built and put into their tuple by steps. -/
theorem buildMembers : (items : List BuildItem) → (r : Ref) → (index : Nat) →
    (values : List Native) → Traces strict (Argument.buildMembers r index items values).run
  | [], r, index, values => by
    rw [Argument.buildMembers]
    exact .attempt_ret values
  | item :: items, r, index, values => by
    rw [Argument.buildMembers]
    refine (buildItem item values).attempt_bind fun found => ?_
    exact (setTupleItem r index found.1).attempt_bind fun _ =>
      buildMembers items r (index + 1) found.2

end

/-- Whatever a format asks for is built by steps. -/
theorem build (text : String) (values : List Native) :
    Traces strict (Argument.build text values).run := by
  have hitem : ∀ item,
      Traces strict (do return (← Argument.buildItem item values).1 : Attempt Ref).run :=
    fun item => (buildItem item values).attempt_bind fun _ => .attempt_ret _
  refine (Traces.check _).attempt_bind fun format => ?_
  refine (Traces.check _).attempt_bind fun _ => ?_
  match format.items with
  | [] => exact newNone.lift
  | [item] => exact hitem item
  | first :: second :: more => exact hitem (.group (first :: second :: more))

/-! ### Refusals at the boundary -/

/-- A report about a failure adds nothing to the steps. -/
theorem reporting (h : Traces strict attempt.run) (entry : String) (failure : α) :
    Traces strict (Boundary.reporting entry failure attempt) :=
  h.bind fun result => by
    cases result with
    | ok a => exact .ret a
    | error e => exact (Traces.report rfl).bind fun _ => .ret failure

/-- What is made of an answer adds nothing to the steps. -/
theorem answer {β : Type} (h : Traces strict attempt.run) (f : α → β) :
    Traces strict (do return f (← attempt) : Attempt β).run :=
  h.attempt_bind fun _ => .attempt_ret _

/-- An entry point that hands out a reference takes the steps of what it attempts. -/
theorem newReference {attempt : Attempt Ref} (h : Traces strict attempt.run) (entry : String) :
    Traces strict (Boundary.newReference entry attempt) :=
  (h.answer some).reporting entry none

/-- An entry point that answers with a status takes the steps of what it attempts. -/
theorem status {attempt : Attempt Unit} (h : Traces strict attempt.run) (entry : String) :
    Traces strict (Boundary.status entry attempt) :=
  (h.answer fun _ => (0 : Int)).reporting entry (-1)

/-- An entry point with an output takes the steps of what it attempts. -/
theorem checked (h : Traces strict attempt.run) (entry : String) (output : Option α) :
    Traces strict (Boundary.checked entry output attempt) :=
  ((h.answer some).reporting entry none).bind fun found => by
    cases found with
    | none => exact .ret _
    | some a => exact .ret _

/-- Reading from an object is no step. -/
theorem readFrom (pointer : Pointer) (f : World → Ref → Except ApiError α) :
    Traces strict (Boundary.readFrom pointer f).run := .read _

/-- Testing an object is no step. -/
theorem test (pointer : Pointer) (f : World → Ref → Bool) :
    Traces strict (Boundary.test pointer f) :=
  .of_looks (Boundary.looks_test pointer f)

/-! ### Arguments -/

/-- A parse changes nothing; one that fails is reported. -/
theorem parsing {text : String} {outputs : List Output} {parse : World →
      (Except ApiError Unit × List Output) × World}
    {values : World → ExtractFormat → Except ApiError Extracted}
    (h : ∀ w, parse w = Argument.parseWith w text outputs (values w)) :
    Traces strict (Boundary.parsing parse).run := by
  have hparse : Traces strict
      (modifyGet parse : Attempt (Except ApiError Unit × List Output)).run := by
    intro w result w' _ hrun
    rw [Attempt.run_modifyGet, h] at hrun
    unfold Argument.parseWith at hrun
    split at hrun
    · cases hrun
      exact .refl
    · split at hrun
      · cases hrun
        exact .refl
      · split at hrun
        · cases hrun
          exact .single (.noticed rfl)
        · cases hrun
          exact .refl
  exact hparse.attempt_bind fun found => (Traces.check found.1).attempt_bind fun _ => .attempt_ret _

/-- An entry point that answers yes or no takes the steps of what it attempts. -/
theorem truth {attempt : Attempt (List Output)} (h : Traces strict attempt.run) (entry : String)
    (outputs : List Output) : Traces strict (Boundary.truth entry outputs attempt) :=
  (h.answer fun stored => ((1 : Int), stored)).reporting entry (0, outputs)

/-- Parsing the arguments of a call is no step. -/
theorem parseTuple (arguments : Pointer) (format : RawText) (slots : Boundary.SlotArray Output) :
    Traces strict (Boundary.parseTuple arguments format slots) := by
  refine (Traces.report rfl).bind fun _ => Traces.truth ?_ _ _
  refine (Traces.check _).attempt_bind fun arguments => (Traces.check _).attempt_bind fun format =>
    (Traces.check _).attempt_bind fun outputs => ?_
  exact .parsing fun w => rfl

/-- Parsing the arguments and keywords of a call is no step. -/
theorem parseTupleAndKeywords (arguments keywords : Pointer) (format : RawText)
    (names : Option (List ByteArray)) (slots : Boundary.SlotArray Output) :
    Traces strict (Boundary.parseTupleAndKeywords arguments keywords format names slots) := by
  refine (Traces.report rfl).bind fun _ => Traces.truth ?_ _ _
  refine (Traces.check _).attempt_bind fun arguments => (Traces.check _).attempt_bind fun format =>
    (Traces.check _).attempt_bind fun names => (Traces.check _).attempt_bind fun outputs => ?_
  have hlast : ∀ source, Traces strict (Boundary.parsing
      (Argument.parseTupleAndKeywords · arguments source format names outputs)).run :=
    fun source => .parsing fun w => rfl
  cases keywords with
  | none => exact (Traces.attempt_ret _).attempt_bind hlast
  | some keywords => exact (Traces.read _).attempt_bind hlast

/-- A value is built by steps for whoever calls from outside. -/
theorem buildValue (format : RawText) (values : Boundary.SlotArray Boundary.RawValue) :
    Traces strict (Boundary.buildValue format values) := by
  refine (Traces.report rfl).bind fun _ => Traces.newReference ?_ _
  exact (Traces.check _).attempt_bind fun format => (Traces.check _).attempt_bind fun raw =>
    (Traces.check _).attempt_bind fun values => build format values

/-! ### Containers -/

/-- An item is set by steps for whoever calls from outside. -/
theorem setItem {set : Ref → Nat → Ref → Attempt Unit}
    (hset : ∀ r index item, Traces strict (set r index item).run) (entry : String)
    (length : World → Ref → Except ApiError Nat) (container : Pointer) (index : Int)
    (item : Pointer) :
    Traces strict (Boundary.status entry (Boundary.setItem length set container index item)) := by
  refine Traces.status ((Traces.check _).attempt_bind fun item => ?_) entry
  have hchecks : Traces strict (do
      let container ← Attempt.ofExcept (Boundary.deref container)
      let length ← Attempt.read (length · container)
      let index ← Attempt.ofExcept (Boundary.containerIndex index length)
      return (container, index) : Attempt (Ref × Nat)).run :=
    (Traces.check _).attempt_bind fun container => (Traces.read _).attempt_bind fun n =>
      (Traces.check _).attempt_bind fun i => .attempt_ret (container, i)
  exact (hchecks.consuming item).attempt_bind fun place => hset _ _ _

/-- An item is appended by steps for whoever calls from outside. -/
theorem listAppend (list item : Pointer) : Traces strict (Boundary.listAppend list item) := by
  refine Traces.status ((Traces.check _).attempt_bind fun r => ?_) _
  exact ((Traces.check (Boundary.deref list)).consuming r).attempt_bind fun found =>
    appendItem found r

/-- A tuple is made by steps for whoever calls from outside. -/
theorem tupleNew (length : Int) : Traces strict (Boundary.tupleNew length) :=
  ((Traces.check _).attempt_bind fun n => newTuple n).newReference _

/-- A list is made by steps for whoever calls from outside. -/
theorem listNew (length : Int) : Traces strict (Boundary.listNew length) :=
  ((Traces.check _).attempt_bind fun n =>
    newListOf rfl (fun _ => TypeObject.suits_list 0 0 none) n).newReference _

/-- A text is boxed by steps for whoever calls from outside. -/
theorem textFromPointer (text : RawText) : Traces strict (Boundary.textFromPointer text) := by
  refine Traces.newReference ?_ _
  cases text with
  | none => exact .refuse _
  | some bytes =>
    show Traces strict (newTextOfBytes .str bytes).run
    unfold newTextOfBytes
    split
    · exact newText _
    · exact .refuse _

end Traces

/-! ### All functions that have a name -/

namespace Boundary

/-- Something is true of every call of a function. -/
def Export.Every (P : {α : Type} → Host α → Prop) : Export → Prop
  | .constant _ => True
  | .ofInteger run => ∀ v, P (run v)
  | .ofReal run => ∀ x, P (run x)
  | .ofText run => ∀ text, P (run text)
  | .ofLength run => ∀ length, P (run length)
  | .toInteger run => ∀ pointer, P (run pointer)
  | .toReal run => ∀ pointer, P (run pointer)
  | .toText run => ∀ pointer, P (run pointer)
  | .test run => ∀ pointer, P (run pointer)
  | .count run => ∀ pointer, P (run pointer)
  | .throughInteger run => ∀ pointer output, P (run pointer output)
  | .throughReal run => ∀ pointer output, P (run pointer output)
  | .getItem run => ∀ container index, P (run container index)
  | .setItem run => ∀ container index item, P (run container index item)
  | .append run => ∀ list item, P (run list item)
  | .retain => ∀ pointer, P (Boundary.retain pointer)
  | .release => ∀ pointer, P (Boundary.release pointer)
  | .parse => ∀ arguments format slots, P (Boundary.parseTuple arguments format slots)
  | .parseWithKeywords => ∀ arguments keywords format names slots,
      P (Boundary.parseTupleAndKeywords arguments keywords format names slots)
  | .build => ∀ format values, P (Boundary.buildValue format values)

/-- What holds of a function whatever it is called with holds of a call. -/
theorem Called.every {P : {α : Type} → Host α → Prop} {function : Export} {α : Type}
    {borrows : List Ref} {takes : Multiset Ref} {operation : Host α} {gives : α → Multiset Ref}
    (h : Called function borrows takes operation gives) (hevery : function.Every P) :
    P operation := by
  cases h with
  | ofInteger | ofReal | ofText | ofLength | toInteger | toReal | toText | test | count | retain
  | release => exact hevery _
  | throughInteger | throughReal | getItem | append | build => exact hevery _ _
  | setItem | parse => exact hevery _ _ _
  | parseWithKeywords => exact hevery _ _ _ _ _

variable {strict : Bool}

/-- A reference is taken by steps, and a null pointer is let pass. -/
theorem traces_retain (pointer : Pointer) : Traces strict (Boundary.retain pointer) := by
  cases pointer with
  | none => exact .ret ()
  | some r => exact .retain r

/-- A reference is given up by steps, and a null pointer is let pass. -/
theorem traces_release (pointer : Pointer) : Traces strict (Boundary.release pointer) := by
  cases pointer with
  | none => exact .ret ()
  | some r => exact .release r

/-- Every function that has a name is a sequence of steps, whatever it is called
with. -/
theorem traced_of_mem_exports : ∀ function ∈ exports, function.2.Every (Traces strict) := by
  -- what several functions of the table have in common
  have hinteger : ∀ entry (v : Int), Traces strict (newReference entry (newInteger v)) :=
    fun entry v => (Traces.newInteger v).newReference entry
  have hreading : ∀ {α : Type} entry (failure : α) pointer (f : World → Ref → Except ApiError α),
      Traces strict (reporting entry failure (readFrom pointer f)) :=
    fun entry failure pointer f => (Traces.readFrom pointer f).reporting entry failure
  have hitem : ∀ entry length item container index,
      Traces strict (newReference entry (getItem length item container index)) :=
    fun entry length item container index => (Traces.readFrom _ _).newReference entry
  unfold exports
  simp only [List.forall_mem_cons, List.not_mem_nil, false_imp_iff, implies_true, and_true,
    Export.Every, true_and]
  refine ⟨hinteger _, hinteger _, hinteger _, hinteger _,
    fun v => (Traces.newBool (v ≠ 0)).map some,
    fun x => (Traces.newReal x).newReference _, Traces.textFromPointer,
    Traces.tupleNew, Traces.listNew, fun _ => hreading _ _ _ _, fun _ => hreading _ _ _ _,
    fun _ => hreading _ _ _ _, fun _ => hreading _ _ _ _,
    fun pointer => ((Traces.readFrom pointer _).answer _).reporting _ _,
    fun pointer => ((Traces.readFrom pointer _).answer _).reporting _ _,
    fun pointer => .of_looks (looks_itemCount pointer), fun _ => hreading _ _ _ _,
    fun pointer => ((Traces.readFrom pointer _).answer _).reporting _ _,
    fun pointer => (Traces.of_looks (looks_typeName pointer)).bind fun _ => .ret _,
    fun _ => .test _ _, fun _ => .test _ _, fun _ => .test _ _, fun _ => .test _ _,
    fun _ => .test _ _, fun _ => .test _ _, fun _ => .test _ _, fun _ => .test _ _,
    fun pointer => .of_looks (looks_refcount pointer),
    fun pointer => (Traces.readFrom pointer _).checked _,
    fun pointer => (Traces.readFrom pointer _).checked _,
    fun pointer => (Traces.readFrom pointer _).checked _,
    fun pointer => (Traces.readFrom pointer _).checked _, hitem _ _ _, hitem _ _ _,
    Traces.setItem Traces.setTupleItem _ _, Traces.setItem Traces.setListItem _ _,
    Traces.listAppend, traces_retain, traces_retain, traces_release, traces_release,
    Traces.parseTuple, Traces.parseTupleAndKeywords, Traces.buildValue⟩

end Boundary

/-! ### Calls -/

namespace Method

variable {strict : Bool}

/-- The part of the contract of a native function that is about storage: what
the function does is a sequence of steps. -/
def Upholds (strict : Bool) (f : NativeFunction) : Prop :=
  ∀ receiver arguments keywords : Option Ref, Traces strict (f receiver arguments keywords)

/-- A function that upholds its contract takes steps when it gets a tuple, be that made
for it. -/
theorem traces_runOnTuple {f : NativeFunction} (hf : Upholds strict f)
    (receiver arguments keywords : Option Ref) : Traces strict (match arguments with
      | some arguments => return ← f receiver (some arguments) keywords
      | none => do
        let empty ← newTuple 0
        let answer ← f receiver (some empty) keywords
        Host.release empty
        return answer : Attempt (Option Ref)).run := by
  cases arguments with
  | some arguments => exact (hf _ _ _).lift
  | none =>
    exact (Traces.newTuple 0).attempt_bind fun empty => (hf _ _ _).lift.attempt_bind fun answer =>
      (Traces.release empty).lift.attempt_bind fun _ => .attempt_ret answer

/-- A method whose function upholds its contract is run by steps. -/
theorem traces_run (method : Method) (hf : Upholds strict method.function)
    (receiver arguments keywords : Option Ref) (count : Nat) :
    Traces strict (run method receiver arguments keywords count).run := by
  unfold run
  cases method.convention with
  | noArgs =>
    by_cases hcount : count = 0
    · simp only [if_pos hcount]
      exact (hf _ _ _).lift
    · simp only [if_neg hcount]
      exact .refuse _
  | object =>
    cases arguments with
    | none => exact .refuse _
    | some arguments =>
      match count with
      | 1 =>
        exact (Traces.read _).attempt_bind fun argument => (hf _ _ _).lift
      | 0 | _ + 2 => exact .refuse _
  | varArgs => exact traces_runOnTuple hf _ _ _
  | varArgsKeywords => exact traces_runOnTuple hf _ _ _

/-- A method whose function upholds its contract is called by steps. -/
theorem traces_call (method : Method) (hf : Upholds strict method.function)
    (receiver arguments keywords : Option Ref) :
    Traces strict (method.call receiver arguments keywords).run := by
  refine (Traces.read _).attempt_bind fun count => (Traces.read _).attempt_bind fun named =>
    (Traces.read _).attempt_bind fun _ => (Traces.report rfl).lift.attempt_bind fun _ => ?_
  refine (traces_run method hf receiver arguments named count).attempt_bind fun answer => ?_
  cases answer with
  | none => exact .refuse _
  | some answer => exact .attempt_ret answer

/-- A descriptor without a function cannot be called, so it has no contract. -/
def UpholdsDescriptor (strict : Bool) (descriptor : Descriptor) : Prop :=
  ∀ f, descriptor.function = some f → Upholds strict f

/-- A descriptor whose function upholds its contract is called by steps. -/
theorem traces_callDescriptor {descriptor : Descriptor} (h : UpholdsDescriptor strict descriptor)
    (receiver arguments keywords : Option Ref) :
    Traces strict (callDescriptor descriptor receiver arguments keywords).run :=
  .after_check _ fun method hmethod =>
    traces_call method (h _ (function_of_ofDescriptor hmethod)) _ _ _

end Method

namespace MethodTable

/-- Every method of a table upholds its contract. -/
def Upholds (strict : Bool) (table : MethodTable) : Prop :=
  ∀ method ∈ table.methods, Method.Upholds strict method.function

/-- A name is called by steps in a table that upholds the contract. -/
theorem traces_call {strict : Bool} {table : MethodTable} (h : table.Upholds strict) (name : String)
    (receiver arguments keywords : Option Ref) :
    Traces strict (table.call name receiver arguments keywords).run := by
  refine .after_check _ fun method hfind => Method.traces_call method (h method ?_) _ _ _
  unfold find at hfind
  split at hfind
  · next found hfound =>
    cases hfind
    exact List.mem_of_find?_eq_some hfound
  · cases hfind

end MethodTable

end ExtensionHost
