import ExtensionHost.Box.Growth
import ExtensionHost.Proofs.Extension.Sample
import ExtensionHost.Proofs.Upkeep.Operations

/-!
# `ExtensionHost.Proofs.Upkeep.Thread`: the runs of a thread

`Thread` is the runs of one thread from the start, with the references that the
caller has in the end. An operation of a run is a `Service`, which says what it
does with references, and it is `Upkept`: the functions of an extension that it
calls use objects and storage only by operations of the interface, and texts and
tuples are made of types that ask for enough bytes.

A run may be strict. Then no object is made of a type that is derived from a
built-in one unless it holds what the built-in type stands for, so that a subtype
of `int` is read as an integer wherever it turns up (`Upkeep.Contents`). What holds
of storage and of references holds of runs that are not strict as well.

What a run leaves is sound (`sound_of_reachable`) and provided
(`Thread.provided`), whatever was refused on the way.
-/

set_option autoImplicit false

namespace ExtensionHost

open World Box

/-! ### Operations of a run -/

/-- The operations of the interface, with the types that they may make objects
of and the functions that they may call. A type may be anything that there is room
for, and in a `strict` run it must also stand for what the object holds. -/
inductive Upkept (strict : Bool) : {α : Type} → Host α → Prop
  | newInteger {type : TypeObject} (hmayGo : type.routine ≠ .forbidden) (v : Int)
      (hsuits : strict = true → type.Suits (.integer v)) : Upkept strict (newIntegerOf type v).run
  | newReal {type : TypeObject} (hmayGo : type.routine ≠ .forbidden) (x : Double)
      (hsuits : strict = true → type.Suits (.real x)) : Upkept strict (newRealOf type x).run
  | newText {type : TypeObject} (htype : MakesTexts type) (text : String)
      (hsuits : strict = true → type.Suits (.text text.toUTF8.size)) :
      Upkept strict (newTextOf type text).run
  | newBool (b : Bool) : Upkept strict (newBool b)
  | newNone : Upkept strict newNone
  | newTuple {type : TypeObject} (htype : MakesTuples type) (length : Nat)
      (hsuits : strict = true → type.Suits (.tuple length)) :
      Upkept strict (newTupleOf type length).run
  | newList {type : TypeObject} (htype : type.routine = .list) (length : Nat)
      (hsuits : strict = true → type.Suits (.list 0 0 none)) :
      Upkept strict (newListOf type length).run
  | tupleOf (items : List Ref) : Upkept strict (tupleOf items).run
  | setTupleItem (r : Ref) (index : Nat) (item : Ref) :
      Upkept strict (setTupleItem r index item).run
  | setListItem (r : Ref) (index : Nat) (item : Ref) : Upkept strict (setListItem r index item).run
  | appendItem (r item : Ref) : Upkept strict (appendItem r item).run
  /-- Items, and arguments that are taken apart. -/
  | read {α : Type} (f : World → Except ApiError α) : Upkept strict (Attempt.read f).run
  | retain (r : Ref) : Upkept strict (Host.retain r)
  | release (r : Ref) : Upkept strict (Host.release r)
  | build (text : String) (values : List Native) : Upkept strict (Argument.build text values).run
  | call (method : Method) (hupholds : Method.Upholds strict method.function)
      (receiver arguments keywords : Option Ref) :
      Upkept strict (method.call receiver arguments keywords).run
  | callNamed (table : MethodTable) (hupholds : table.Upholds strict) (name : String)
      (receiver arguments keywords : Option Ref) :
      Upkept strict (table.call name receiver arguments keywords).run
  | boundary {α : Type} {borrows : List Ref} {takes : Multiset Ref} {operation : Host α}
      {gives : α → Multiset Ref} {function : String × Boundary.Export}
      (hexported : function ∈ Boundary.exports)
      (hcalled : Boundary.Called function.2 borrows takes operation gives) : Upkept strict operation
  | callMethod {descriptor : Option Descriptor}
      (hupholds : ∀ d, descriptor = some d → Method.UpholdsDescriptor strict d)
      (receiver arguments keywords : Pointer) :
      Upkept strict (Boundary.callMethod descriptor receiver arguments keywords)
  | callTable {table : Option (List Descriptor)}
      (hupholds : ∀ descriptors, table = some descriptors →
        ∀ descriptor ∈ descriptors, Method.UpholdsDescriptor strict descriptor)
      (name : RawText) (receiver arguments keywords : Pointer) :
      Upkept strict (Boundary.callTable table name receiver arguments keywords)

namespace Boundary

variable {strict : Bool}

/-- A method is called by steps from outside, if its function upholds its contract. -/
theorem traces_callMethod {descriptor : Option Descriptor}
    (h : ∀ d, descriptor = some d → Method.UpholdsDescriptor strict d)
    (receiver arguments keywords : Pointer) :
    Traces strict (callMethod descriptor receiver arguments keywords) := by
  refine Traces.newReference ?_ _
  cases descriptor with
  | none => exact .refuse _
  | some d => exact Method.traces_callDescriptor (h d rfl) _ _ _

/-- A table that is read from descriptors upholds their contracts. -/
theorem upholds_of_read {descriptors : List Descriptor} {methods : List Method}
    (h : MethodTable.readUntilTerminator descriptors = .ok methods)
    (hdescriptors : ∀ descriptor ∈ descriptors, Method.UpholdsDescriptor strict descriptor) :
    MethodTable.Upholds strict ⟨methods⟩ := by
  intro method hmethod
  obtain ⟨descriptor, hdescriptor, hvalid⟩ := MethodTable.exists_of_read h method hmethod
  exact hdescriptors descriptor hdescriptor _ (Method.function_of_ofDescriptor hvalid)

/-- A table is loaded by steps. -/
theorem traces_load (table : Option (List Descriptor)) :
    Traces strict (MethodTable.load table).run := by
  cases table with
  | none => exact .refuse _
  | some descriptors =>
    refine (Traces.check _).attempt_bind fun methods => ?_
    have hnotice : (Event.tableLoaded methods.length).released? = none := rfl
    exact (Traces.report hnotice).lift.attempt_bind fun _ => .attempt_ret _

/-- A name is called by steps from outside, if the functions of the table uphold their
contracts. -/
theorem traces_callTable {table : Option (List Descriptor)}
    (h : ∀ descriptors, table = some descriptors →
      ∀ descriptor ∈ descriptors, Method.UpholdsDescriptor strict descriptor)
    (name : RawText) (receiver arguments keywords : Pointer) :
    Traces strict (callTable table name receiver arguments keywords) := by
  refine Traces.newReference ((Traces.check _).attempt_bind fun text => ?_) _
  refine Traces.bind_of (traces_load table) (fun w loaded w' hload => ?_) fun loaded hupholds =>
    MethodTable.traces_call hupholds text receiver arguments keywords
  -- what is loaded are methods of the table that is passed
  cases table with
  | none => cases hload
  | some descriptors =>
    rw [MethodTable.run_load] at hload
    cases hread : MethodTable.readUntilTerminator descriptors with
    | error e =>
      rw [hread] at hload
      cases hload
    | ok methods =>
      rw [hread] at hload
      cases hload
      exact upholds_of_read hread (h descriptors rfl)

end Boundary

/-- Every operation of a run is a sequence of steps. -/
theorem Upkept.traces {strict : Bool} {α : Type} {operation : Host α}
    (h : Upkept strict operation) :
    Traces strict operation := by
  -- one case for each operation of a run; the last five run foreign functions
  cases h with
  | newInteger hmayGo v hsuits => exact .newIntegerOf hmayGo hsuits
  | newReal hmayGo x hsuits => exact .newRealOf hmayGo hsuits
  | newText htype text hsuits => exact .newTextOf htype hsuits
  | newBool b => exact .newBool b
  | newNone => exact .newNone
  | newTuple htype length hsuits => exact .newTupleOf htype hsuits
  | newList htype length hsuits => exact .newListOf htype hsuits length
  | tupleOf items => exact .tupleOf items
  | setTupleItem r index item => exact .setTupleItem r index item
  | setListItem r index item => exact .setListItem r index item
  | appendItem r item => exact .appendItem r item
  | read f => exact .read f
  | retain r => exact .retain r
  | release r => exact .release r
  | build text values => exact .build text values
  | call method hupholds => exact Method.traces_call method hupholds _ _ _
  | callNamed table hupholds name => exact MethodTable.traces_call hupholds name _ _ _
  | boundary hexported hcalled =>
    exact hcalled.every (Boundary.traced_of_mem_exports _ hexported)
  | callMethod hupholds => exact Boundary.traces_callMethod hupholds _ _ _
  | callTable hupholds name => exact Boundary.traces_callTable hupholds name _ _ _

/-! ### Functions that uphold their contract

A function of an extension upholds its contract when it is put together from
operations of the interface. The functions of the sample extension are. -/

namespace Extension

variable {strict : Bool}

/-- A native function that makes something takes the steps of the attempt. -/
theorem traces_made {attempt : Attempt Ref} (h : Traces strict attempt.run) :
    Traces strict (made attempt) :=
  h.bind fun _ => .ret _

/-- A native function that shows an object takes no step. -/
theorem traces_shown (pointer : Pointer) : Traces strict (shown pointer) := by
  cases pointer with
  | none => exact traces_made (.newText "NULL")
  | some r => exact (Boundary.traces_retain (some r)).bind fun _ => .ret _

/-- A native function that shows several objects takes no step. -/
theorem traces_shownEach (shownBefore : List Ref) (pointers : List Pointer) :
    Traces strict (shownEach shownBefore pointers) := by
  induction pointers generalizing shownBefore with
  | nil => exact .ret _
  | cons pointer rest ih =>
    refine (traces_shown pointer).bind fun answer => ?_
    cases answer with
    | none => exact (Traces.releaseAll _).bind fun _ => .ret _
    | some r => exact ih (r :: shownBefore)

/-- A native function that adds up the items of a list takes no step. -/
theorem traces_sumItems (list : Pointer) (count index : Nat) (total : Int) :
    Traces strict (sumItems list count index total) := by
  induction count generalizing index total with
  | zero => exact (Traces.newInteger total).newReference _
  | succ count ih =>
    refine ((Traces.readFrom list _).newReference _).bind fun item => ?_
    cases item with
    | none => exact .ret none
    | some item =>
      refine (Traces.test (some item) _).bind fun isInteger => ?_
      cases isInteger with
      | false => exact (Traces.ret total).bind fun total => ih (index + 1) total
      | true =>
        refine ((Traces.readFrom (some item) _).reporting _ _).bind fun v => ?_
        exact (Traces.ret _).bind fun total => ih (index + 1) total

/-- The function that adds up a list upholds its contract. -/
theorem upholds_sumList : Method.Upholds strict sumList := by
  intro receiver argument keywords
  refine (Traces.test argument _).bind fun isList => ?_
  cases isList with
  | false => exact .ret none
  | true =>
    exact (((Traces.readFrom argument _).answer _).reporting _ _).bind fun size =>
      traces_sumItems argument size.toNat 0 0

/-- The function that wraps what it gets upholds its contract. -/
theorem upholds_wrap : Method.Upholds strict wrap := by
  intro receiver argument keywords
  refine (traces_made (Traces.newListOf rfl (fun _ => TypeObject.suits_list 0 0 none) 0)).bind
    fun list => ?_
  cases list with
  | none => exact .ret none
  | some list =>
    refine (Boundary.traces_retain argument).bind fun _ => ?_
    refine (Traces.listAppend (some list) argument).bind fun status => ?_
    by_cases hstatus : status = 0
    · rw [if_pos hstatus]
      exact .ret _
    · rw [if_neg hstatus]
      exact (Boundary.traces_release (some list)).bind fun _ => .ret none

/-- The function that adds two integers upholds its contract. -/
theorem upholds_add : Method.Upholds strict add := by
  intro receiver arguments keywords
  refine (Traces.parseTuple arguments _ _).bind fun found => ?_
  rcases found with ⟨success, outputs⟩
  dsimp only
  split
  · exact (Traces.newInteger _).newReference _
  · exact .ret none

/-- The function that multiplies by a factor upholds its contract. -/
theorem upholds_scaled : Method.Upholds strict scaled := by
  intro receiver arguments keywords
  refine (Traces.parseTupleAndKeywords arguments keywords _ _ _).bind fun found => ?_
  rcases found with ⟨success, outputs⟩
  dsimp only
  split
  · exact (Traces.newReal _).newReference _
  · exact .ret none

/-- The function that shows what it was called with upholds its contract. -/
theorem upholds_probe : Method.Upholds strict probe := by
  intro receiver arguments keywords
  refine (traces_shownEach [] _).bind fun answer => ?_
  cases answer with
  | none => exact .ret none
  | some items => exact traces_made (.tupleOf items)

/-- The function that always fails upholds its contract. -/
theorem upholds_fail : Method.Upholds strict fail := fun _ _ _ => .ret none

/-- Every sample function upholds its contract. -/
theorem upholds_of_mem_functions : ∀ function ∈ functions, Method.Upholds strict function.2 := by
  simp only [functions, List.forall_mem_cons, List.not_mem_nil, false_imp_iff, implies_true,
    and_true]
  exact ⟨upholds_probe, upholds_fail, upholds_add, upholds_scaled, upholds_sumList, upholds_wrap⟩

end Extension

/-! ### Runs -/

/-- A world that a run of a thread leads to, and the references that the caller
has then. -/
inductive Thread (strict : Bool) (system : System) (settings : AllocatorSettings) :
    World → Multiset Ref → Prop
  | start : Thread strict system settings (.new system settings) 0
  | step {α : Type} {w w' : World} (takes kept : Multiset Ref) {borrows : List Ref}
      {operation : Host α} {gives : α → Multiset Ref} {a : α}
      (h : Thread strict system settings w (takes + kept))
      (hservice : Service borrows takes operation gives) (hupkept : Upkept strict operation)
      (halive : ∀ r ∈ borrows, (w.object? r).isSome) (hrun : operation w = .ok a w') :
      Thread strict system settings w' (gives a + kept)

namespace Thread

variable {strict : Bool} {system : System} {settings : AllocatorSettings} {w : World}
  {owned : Multiset Ref}

/-- What a thread comes to have is reached by exits too. -/
theorem reachable (h : Thread strict system settings w owned) : Reachable w owned := by
  induction h with
  | start => exact .start system settings
  | step takes kept _ hservice _ halive hrun ih => exact .step takes kept ih hservice halive hrun

/-- In what a thread comes to have every count is right. -/
theorem sound (h : Thread strict system settings w owned) : w.Sound owned :=
  sound_of_reachable h.reachable

/-- A run is a sequence of steps. -/
theorem steps (h : Thread strict system settings w owned) :
    (World.new system settings).Steps strict w := by
  induction h with
  | start => exact .refl
  | step _ _ _ _ hupkept _ hrun ih =>
    exact ih.trans (hupkept.traces _ _ _ (Steps.provided ih (provided_new system settings)) hrun)

/-- In what a thread comes to have objects and blocks belong together. -/
theorem provided (h : Thread strict system settings w owned) : w.Provided :=
  Steps.provided h.steps (provided_new system settings)

variable {w' : World} {r outer : Ref} {kept : Multiset Ref}

/-- A run goes on when an object is put into a list of its own. -/
theorem singletonList (h : Thread strict system settings w ({r} + kept))
    (hrun : (Box.singletonList r).run w = .ok (.ok outer) w') :
    Thread strict system settings w' ({outer} + kept) := by
  obtain ⟨list, w₁, hlist, hrest⟩ := Attempt.run_bind_eq_ok.1 hrun
  obtain ⟨⟨⟩, w₂, happend, hanswer⟩ := Attempt.run_bind_eq_ok.1 hrest
  cases hanswer
  have hmade : Thread strict system settings w₁ ({outer} + ({r} + kept)) :=
    .step 0 ({r} + kept) (by rwa [zero_add]) (.newList rfl 0)
      (.newList rfl 0 fun _ => TypeObject.suits_list 0 0 none) (by simp)
      (Attempt.run_of_consuming hlist)
  rw [add_left_comm] at hmade
  have hput := Thread.step {r} ({outer} + kept) hmade (.appendItem outer r) (.appendItem outer r)
    (by simp) (Attempt.run_of_consuming happend)
  rwa [zero_add] at hput

/-- A run goes on when an object is wrapped, however often. -/
theorem wrapTimes {inTuple : Nat → Bool} {depth level : Nat}
    (h : Thread strict system settings w ({r} + kept))
    (hrun : (Box.wrapTimes inTuple depth level r).run w = .ok (.ok outer) w') :
    Thread strict system settings w' ({outer} + kept) := by
  induction depth generalizing level r w with
  | zero =>
    cases hrun
    exact h
  | succ depth ih =>
    rw [Box.wrapTimes] at hrun
    split at hrun
    · obtain ⟨middle, w₁, hwrap, hrest⟩ := Attempt.run_bind_eq_ok.1 hrun
      have hwrapped := Thread.step {r} kept h (.tupleOf [r]) (.tupleOf [r]) (by simp) hwrap
      exact ih hwrapped hrest
    · obtain ⟨middle, w₁, hwrap, hrest⟩ := Attempt.run_bind_eq_ok.1 hrun
      exact ih (h.singletonList hwrap) hrest

end Thread

/-! A run to look at: a method of the sample extension is called without arguments,
and the list that it answers is put into a tuple. -/

/-- The method that answers a list with its argument in it. -/
def wrapping : Method where
  name := "wrap"
  doc := none
  convention := .varArgs
  function := Extension.wrap

/-- A list, with the empty tuple that the function was called with in it. -/
def withList : World :=
  (World.new (.bounded 0x1000000) {}).left (wrapping.call none none none).run

/-- The list in a tuple, which is all that the caller has. -/
def withListInTuple : World := withList.left (Box.wrapTimes (fun _ => true) 1 0 4).run

/-- A thread comes to have a tuple that holds a list and a tuple. -/
theorem thread_withListInTuple (strict : Bool) :
    Thread strict (.bounded 0x1000000) {} withListInTuple {5} := by
  have hcall : (wrapping.call none none none).run (.new (.bounded 0x1000000) {}) =
      .ok (.ok 4) withList := rfl
  have hput : (Box.wrapTimes (fun _ => true) 1 0 4).run withList =
      .ok (.ok 5) withListInTuple := rfl
  have hmem : ("wrap", Extension.wrap) ∈ Extension.functions := by
    simp only [Extension.functions, List.mem_cons, true_or, or_true]
  have hwrapped : Thread strict (.bounded 0x1000000) {} withList {4} :=
    .step 0 0 .start (.call wrapping (Extension.honours_of_mem_functions _ hmem) none none none)
      (.call wrapping (Extension.upholds_of_mem_functions _ hmem) none none none)
      (fun _ hr => absurd hr List.not_mem_nil) hcall
  exact (add_zero ({4} : Multiset Ref) ▸ hwrapped).wrapTimes hput

end ExtensionHost
