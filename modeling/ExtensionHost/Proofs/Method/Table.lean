import ExtensionHost.Boundary.Methods
import ExtensionHost.Proofs.Boundary.Arguments
import ExtensionHost.Proofs.Method.Notices

/-!
# `ExtensionHost.Proofs.Method.Table`: tables and calls by name

There are two readers of tables: `load` walks from descriptor to descriptor, and `ofList`
takes what stands before a terminator and checks it. Both come to the checks of the entries
one after the other (`readUntilTerminator_eq`, `ofList_eq`), so they agree, refusals
included, and read nothing from the terminator on (`Reads`).

In a table that was loaded the method of a name is that of the first entry which has it
(`find_eq_ok_iff`). A call by name is then the same attempt as a call of the descriptor of
this entry (`call_of_firstOf`). For foreign code the two calls differ in what is reported:
loading the table is, and a refusal is under the name of the entry point. What is handed to
the function does not depend on reports (`call_withEvents`), so the function is run once on
the same in both calls, or in neither and for the same reason (`CallsEntry`). This is said
with any function in the place of the entry's own, as in
`ExtensionHost.Proofs.Method.Invocation`. A function that looks at the events could answer
differently in the two calls, and no other can.
-/

set_option autoImplicit false

namespace ExtensionHost

/-! ### Steps that may be refused, one after the other -/

section

variable {α β ε : Type} {f : α → Except ε β} {as : List α} {bs : List β} {e : ε}

/-- There is an answer to all steps when there is one to each. -/
theorem mapM_eq_ok_iff : as.mapM f = .ok bs ↔ List.Forall₂ (fun a b => f a = .ok b) as bs := by
  induction as generalizing bs with
  | nil =>
    rw [List.mapM_nil, List.forall₂_nil_left_iff]
    exact ⟨fun h => (Except.ok.inj h).symm, fun h => congrArg _ h.symm⟩
  | cons a as ih =>
    rw [List.mapM_cons, except_bind_eq_ok, List.forall₂_cons_left_iff]
    constructor
    · rintro ⟨b, hb, hrest⟩
      obtain ⟨bs, hbs, hrest⟩ := except_bind_eq_ok.1 hrest
      exact ⟨b, bs, hb, ih.1 hbs, (Except.ok.inj hrest).symm⟩
    · rintro ⟨b, bs, hb, hbs, rfl⟩
      exact ⟨b, hb, except_bind_eq_ok.2 ⟨bs, ih.2 hbs, rfl⟩⟩

/-- The refusal is that of the first step that is refused. -/
theorem mapM_eq_error_iff : as.mapM f = .error e ↔ ∃ before a after, as = before ++ a :: after ∧
    (∀ other ∈ before, ∃ b, f other = .ok b) ∧ f a = .error e := by
  induction as with
  | nil =>
    refine ⟨nofun, ?_⟩
    rintro ⟨before, a, after, h, -⟩
    cases before <;> cases h
  | cons a as ih =>
    rw [List.mapM_cons]
    cases hfirst : f a with
    | error e' =>
      constructor
      · intro h
        exact ⟨[], a, as, rfl, nofun, hfirst.trans (congrArg _ (Except.error.inj h))⟩
      · rintro ⟨before, a', after, h, hbefore, ha'⟩
        cases before with
        | nil =>
          cases h
          exact congrArg _ (Except.error.inj (hfirst.symm.trans ha'))
        | cons other before =>
          cases h
          obtain ⟨b, hb⟩ := hbefore _ List.mem_cons_self
          cases hfirst.symm.trans hb
    | ok b =>
      -- the refusal comes from a later step, so the split is one of those
      have hrest : ((as.mapM f).bind fun bs => .ok (b :: bs)) = .error e ↔
          as.mapM f = .error e := by
        cases as.mapM f with
        | error e' => exact Iff.rfl
        | ok bs => exact ⟨nofun, nofun⟩
      refine hrest.trans (ih.trans ⟨?_, ?_⟩)
      · rintro ⟨before, a', after, rfl, hbefore, ha'⟩
        refine ⟨a :: before, a', after, rfl, fun other hother => ?_, ha'⟩
        rcases List.mem_cons.1 hother with rfl | hother
        · exact ⟨b, hfirst⟩
        · exact hbefore other hother
      · rintro ⟨before, a', after, h, hbefore, ha'⟩
        cases before with
        | nil =>
          cases h
          cases hfirst.symm.trans ha'
        | cons other before =>
          cases h
          exact ⟨before, a', after, rfl,
            fun other hother => hbefore other (List.mem_cons_of_mem _ hother), ha'⟩

end

/-! ### What is answered to foreign code -/

namespace Boundary

/-- What foreign code is answered when the attempt to make an object comes to this. -/
def answered (entry : String) :
    EStateM.Result Fault World (Except ApiError Ref) → EStateM.Result Fault World Pointer
  | .ok (.ok r) w => .ok (some r) w
  | .ok (.error e) w => .ok none (w.report (.entryFailed entry e))
  | .error fault w => .error fault w

/-- A function that answers with a reference answers what its attempt comes to. -/
theorem run_newReference (entry : String) (attempt : Attempt Ref) (w : World) :
    newReference entry attempt w = answered entry (attempt.run w) := by
  rw [newReference, run_reporting, Attempt.run_bind]
  rcases attempt.run w with ⟨_ | _, w₁⟩ | ⟨fault, w₁⟩ <;> rfl

/-- Which entry point it is that answers makes a difference to events alone. -/
theorem answered_withEvents (entry entry' : String) (events : Array Event)
    (result : EStateM.Result Fault World (Except ApiError Ref)) :
    ∃ events', answered entry (leaving (·.withEvents events) result) =
      leaving (·.withEvents events') (answered entry' result) := by
  rcases result with ⟨_ | _, w⟩ | ⟨fault, w⟩
  · exact ⟨_, rfl⟩
  · exact ⟨events, rfl⟩
  · exact ⟨events, rfl⟩

end Boundary

namespace MethodTable

open Method World

variable {descriptors entries before rest : List Descriptor} {descriptor last : Descriptor}
  {table : MethodTable} {method : Method} {methods : List Method} {name : String} {e : ApiError}
  {w : World}

/-! ### The two readers -/

/-- The descriptors are valid, and these are their methods in the same order. -/
def MethodsOf (entries : List Descriptor) (methods : List Method) : Prop :=
  List.Forall₂ (fun entry method => ofDescriptor entry = .ok method) entries methods

/-- The descriptors up to a terminator are found valid one after the other. -/
theorem readUntilTerminator_eq (descriptors : List Descriptor) :
    readUntilTerminator descriptors =
      (descriptors.takeWhile fun descriptor => !isTerminator descriptor).mapM ofDescriptor := by
  induction descriptors with
  | nil => rfl
  | cons descriptor rest ih =>
    rw [readUntilTerminator, List.takeWhile_cons]
    cases isTerminator descriptor with
    | true => rfl
    | false =>
      rw [ih]
      exact (List.mapM_cons).symm

/-- The entries before the terminator are those that no terminator stands before. -/
theorem takeWhile_entries (hentries : ∀ entry ∈ entries, isTerminator entry = false)
    (hlast : isTerminator last = true) (rest : List Descriptor) :
    ((entries ++ last :: rest).takeWhile fun descriptor => !isTerminator descriptor) = entries := by
  rw [List.takeWhile_append_of_pos fun entry hentry => by rw [hentries entry hentry]; rfl,
    List.takeWhile_cons_of_neg (by rw [hlast]; decide), List.append_nil]

/-- The reader of lists checks the same descriptors. -/
theorem ofList_eq (descriptors : List Descriptor) :
    ofList descriptors = (readUntilTerminator descriptors).map MethodTable.mk := by
  rw [readUntilTerminator_eq, ofList]
  cases List.mapM ofDescriptor _ <;> rfl

/-- The reader that walks comes to the same, and reports a table that it has loaded. -/
theorem run_load_eq (descriptors : List Descriptor) (w : World) :
    (load (some descriptors)).run w =
      match ofList descriptors with
      | .ok table => .ok (.ok table) (w.report (.tableLoaded table.methods.length))
      | .error e => .ok (.error e) w := by
  rw [ofList_eq, run_load]
  cases readUntilTerminator descriptors <;> rfl

/-- A table is made of the methods of all entries before the terminator, in order. -/
theorem ofList_eq_ok_iff (hentries : ∀ entry ∈ entries, isTerminator entry = false)
    (hlast : isTerminator last = true) (rest : List Descriptor) :
    ofList (entries ++ last :: rest) = .ok table ↔
      MethodsOf entries table.methods := by
  rw [MethodsOf, ofList_eq, readUntilTerminator_eq, takeWhile_entries hentries hlast,
    except_map_eq_ok, ← mapM_eq_ok_iff]
  constructor
  · rintro ⟨methods, hmethods, rfl⟩
    exact hmethods
  · exact fun hmethods => ⟨table.methods, hmethods, rfl⟩

/-- A table is refused because of the first entry before the terminator that is no method. -/
theorem ofList_eq_error_iff (hentries : ∀ entry ∈ entries, isTerminator entry = false)
    (hlast : isTerminator last = true) (rest : List Descriptor) :
    ofList (entries ++ last :: rest) = .error e ↔ ∃ before entry after,
      entries = before ++ entry :: after ∧
        (∀ other ∈ before, ∃ method, ofDescriptor other = .ok method) ∧
        ofDescriptor entry = .error e := by
  rw [ofList_eq, readUntilTerminator_eq, takeWhile_entries hentries hlast, ← mapM_eq_error_iff]
  cases entries.mapM ofDescriptor with
  | error e' =>
    exact ⟨fun h => congrArg _ (Except.error.inj h), fun h => congrArg _ (Except.error.inj h)⟩
  | ok methods => exact ⟨nofun, nofun⟩

/-! ### The first method of a name -/

/-- The descriptor has the name, and none of those before it has. -/
structure FirstOf (name : String) (before : List Descriptor) (entry : Descriptor) : Prop where
  named : entry.name.read = .ok name
  earlier : ∀ other ∈ before, other.name.read ≠ .ok name

/-- The name of a method is the name that its entry can be read as. -/
theorem named_iff (h : ofDescriptor descriptor = .ok method) :
    descriptor.name.read = .ok name ↔ method.name = name := by
  obtain ⟨hname, -⟩ := ofDescriptor_eq_ok_iff.1 h
  rw [hname]
  exact ⟨Except.ok.inj, congrArg _⟩

/-- By induction on the entries: the search stops at an entry when the method that it gave
has the name. -/
theorem find?_eq_some_iff
    (h : MethodsOf entries methods) :
    (methods.find? fun method => method.name = name) = some method ↔ ∃ before entry after,
      entries = before ++ entry :: after ∧ FirstOf name before entry ∧
        ofDescriptor entry = .ok method := by
  induction h with
  | nil =>
    refine ⟨nofun, ?_⟩
    rintro ⟨before, entry, after, hsplit, -⟩
    cases before <;> cases hsplit
  | @cons first firstMethod entries methods hfirst _ ih =>
    by_cases hname : firstMethod.name = name
    · rw [List.find?_cons_of_pos (by simpa using hname)]
      have hnamed := (named_iff hfirst).2 hname
      constructor
      · rintro ⟨⟩
        exact ⟨[], first, entries, rfl, ⟨hnamed, nofun⟩, hfirst⟩
      · rintro ⟨before, entry, after, hsplit, hfirstOf, hmethod⟩
        cases before with
        | nil =>
          cases hsplit
          exact congrArg _ (Except.ok.inj (hfirst.symm.trans hmethod))
        | cons other before =>
          cases hsplit
          exact absurd hnamed (hfirstOf.earlier first List.mem_cons_self)
    · rw [List.find?_cons_of_neg (by simpa using hname), ih]
      -- the first entry does not have the name, so it is behind none that is the first to have it
      have hnamed := mt (named_iff hfirst).1 hname
      constructor
      · rintro ⟨before, entry, after, rfl, hfirstOf, hmethod⟩
        refine ⟨first :: before, entry, after, rfl,
          ⟨hfirstOf.named, fun other hother => ?_⟩, hmethod⟩
        rcases List.mem_cons.1 hother with rfl | hother
        · exact hnamed
        · exact hfirstOf.earlier other hother
      · rintro ⟨before, entry, after, hsplit, hfirstOf, hmethod⟩
        cases before with
        | nil =>
          cases hsplit
          exact absurd hfirstOf.named hnamed
        | cons other before =>
          cases hsplit
          exact ⟨before, entry, after, rfl, ⟨hfirstOf.named, fun other hother =>
            hfirstOf.earlier other (List.mem_cons_of_mem _ hother)⟩, hmethod⟩

/-- No method is found exactly if no entry has the name. -/
theorem find?_eq_none_iff
    (h : MethodsOf entries methods) :
    (methods.find? fun method => method.name = name) = none ↔
      ∀ entry ∈ entries, entry.name.read ≠ .ok name := by
  induction h with
  | nil => exact ⟨fun _ => nofun, fun _ => rfl⟩
  | cons hfirst _ ih =>
    rw [List.forall_mem_cons, ← ih, Ne, named_iff hfirst, List.find?_eq_none, List.find?_eq_none,
      List.forall_mem_cons, decide_eq_true_eq]

section

variable (hmethods : MethodsOf entries table.methods)
include hmethods

/-- The method that is found is that of the first entry with the name. -/
theorem find_eq_ok_iff : table.find name = .ok method ↔ ∃ before entry after,
    entries = before ++ entry :: after ∧ FirstOf name before entry ∧
      ofDescriptor entry = .ok method := by
  rw [← find?_eq_some_iff hmethods, find]
  cases table.methods.find? fun method => method.name = name with
  | none => exact ⟨nofun, nofun⟩
  | some found =>
    exact ⟨fun h => congrArg _ (Except.ok.inj h), fun h => congrArg _ (Option.some.inj h)⟩

/-- A name is unknown exactly if no entry has it. -/
theorem find_eq_error_iff : table.find name = .error e ↔
    e = .unknownMethod name ∧ ∀ entry ∈ entries, entry.name.read ≠ .ok name := by
  rw [← find?_eq_none_iff hmethods, find]
  cases table.methods.find? fun method => method.name = name with
  | none => exact ⟨fun h => ⟨(Except.error.inj h).symm, rfl⟩, fun h => congrArg _ h.1.symm⟩
  | some found => exact ⟨nofun, nofun⟩

end

/-! ### Calls by name -/

/-- All entries are methods if each of them is one. -/
theorem exists_methods_iff :
    (∃ methods, MethodsOf entries methods) ↔
      ∀ entry ∈ entries, ∃ method, ofDescriptor entry = .ok method := by
  induction entries with
  | nil => exact ⟨fun _ => nofun, fun _ => ⟨[], .nil⟩⟩
  | cons entry entries ih =>
    rw [List.forall_mem_cons, ← ih]
    constructor
    · rintro ⟨methods, h⟩
      cases h with
      | cons hfirst hrest => exact ⟨⟨_, hfirst⟩, _, hrest⟩
    · rintro ⟨⟨method, hfirst⟩, methods, hrest⟩
      exact ⟨_, .cons hfirst hrest⟩

/-- Calling a method through the boundary answers what calling its entry comes to. -/
theorem callMethod_eq (descriptor : Descriptor) (receiver arguments keywords : Option Ref)
    (w : World) :
    Boundary.callMethod (some descriptor) receiver arguments keywords w =
      Boundary.answered "pyabi_call_method"
        ((callDescriptor descriptor receiver arguments keywords).run w) :=
  Boundary.run_newReference _ _ w

/-- Calling a table through the boundary answers what calling the loaded table comes to. -/
theorem callTable_eq {raw : RawText} (hload : ofList descriptors = .ok table)
    (hname : raw.read = .ok name) (receiver arguments keywords : Option Ref) (w : World) :
    Boundary.callTable (some descriptors) raw receiver arguments keywords w =
      Boundary.answered "pyabi_call_table"
        ((table.call name receiver arguments keywords).run
          (w.report (.tableLoaded table.methods.length))) := by
  have hloaded : (load (some descriptors)).run w =
      .ok (.ok table) (w.report (.tableLoaded table.methods.length)) := by
    rw [run_load_eq, hload]
  have hread : (Attempt.ofExcept raw.read).run w = .ok (.ok name) w := by
    rw [hname]
    rfl
  rw [Boundary.callTable, Boundary.run_newReference, Attempt.run_bind_ok hread,
    Attempt.run_bind_ok hloaded]

/-- A descriptor stays valid with another function. -/
theorem ofDescriptor_withFunction (h : ofDescriptor descriptor = .ok method) (f : NativeFunction) :
    ofDescriptor { descriptor with function := some f } = .ok { method with function := f } := by
  obtain ⟨hname, -, hconvention, hdoc⟩ := ofDescriptor_eq_ok_iff.1 h
  exact ofDescriptor_eq_ok_iff.2 ⟨hname, rfl, hconvention, hdoc⟩

/-- Calls by name in a table are calls of one of its descriptors. The descriptors behind it
include the terminator. -/
structure CallsEntry (table : MethodTable) (name : String) (before : List Descriptor)
    (entry : Descriptor) (after : List Descriptor) : Prop where
  /-- In the table that was loaded. -/
  call : ∀ receiver arguments keywords, table.call name receiver arguments keywords =
    callDescriptor entry receiver arguments keywords
  /-- For foreign code, and for a function that does not look at events. -/
  answer : ∀ (raw : RawText) (receiver arguments keywords : Pointer) (w : World),
    raw.read = .ok name → (∀ f, entry.function = some f → Unseeing f) →
      ∃ events, Boundary.callTable (some (before ++ entry :: after)) raw receiver arguments
        keywords w = leaving (·.withEvents events)
          (Boundary.callMethod (some entry) receiver arguments keywords w)
  /-- For foreign code, with any function in the place of the entry's own: it is run
  once and on the same, or it is not run and the refusal is the same. -/
  handover : ∀ (raw : RawText) (receiver arguments keywords : Pointer) (w : World),
    raw.read = .ok name →
      (∃ (handover : Handover) (events : Array Event), ∀ f : NativeFunction,
        Boundary.callMethod (some { entry with function := some f }) receiver arguments keywords w =
          Boundary.answered "pyabi_call_method" (handover.invoke name f receiver) ∧
        Boundary.callTable (some (before ++ { entry with function := some f } :: after)) raw
            receiver arguments keywords w =
          Boundary.answered "pyabi_call_table"
            ((handover.withEvents events).invoke name f receiver)) ∨
      ∃ (e : ApiError) (w' : World) (events : Array Event), ∀ f : NativeFunction,
        Boundary.callMethod (some { entry with function := some f }) receiver arguments keywords w =
          .ok none (w'.report (.entryFailed "pyabi_call_method" e)) ∧
        Boundary.callTable (some (before ++ { entry with function := some f } :: after)) raw
            receiver arguments keywords w =
          .ok none ((w'.withEvents events).report (.entryFailed "pyabi_call_table" e))

section

variable {after : List Descriptor} {entry : Descriptor} {raw : RawText}

/-- The copy that was checked when the table was loaded is the one that the descriptor gives
when it is called on its own. -/
theorem call_of_firstOf
    (hmethods : MethodsOf (before ++ entry :: after) table.methods)
    (hfirst : FirstOf name before entry) (receiver arguments keywords : Option Ref) :
    table.call name receiver arguments keywords =
      callDescriptor entry receiver arguments keywords := by
  obtain ⟨method, hmethod⟩ := exists_methods_iff.1 ⟨_, hmethods⟩ entry
    (List.mem_append_right _ List.mem_cons_self)
  have hfind := (find_eq_ok_iff hmethods).2 ⟨before, entry, after, rfl, hfirst, hmethod⟩
  rw [call, callDescriptor, hfind, hmethod]

/-- An entry with another function in its place hands over to that function. -/
theorem callDescriptor_withFunction (hmethod : ofDescriptor entry = .ok method)
    (f : NativeFunction) (receiver arguments keywords : Option Ref) :
    (callDescriptor { entry with function := some f } receiver arguments keywords).run =
      callWith method f receiver arguments keywords := by
  rw [callDescriptor, ofDescriptor_withFunction hmethod f]
  rfl

variable (hentries : ∀ other ∈ before ++ entry :: after, isTerminator other = false)
  (hlast : isTerminator last = true)
  (hload : ofList (before ++ entry :: after ++ last :: rest) = .ok table)
include hentries hlast hload

/-- A table loads with another function at one of its entries, and is as long as before. -/
theorem exists_load_withFunction (f : NativeFunction) :
    ∃ table', ofList (before ++ { entry with function := some f } :: after ++ last :: rest) =
      .ok table' ∧ table'.methods.length = table.methods.length ∧
      MethodsOf (before ++ { entry with function := some f } :: after) table'.methods := by
  have hmethods := (ofList_eq_ok_iff hentries hlast rest).1 hload
  have hvalid := exists_methods_iff.1 ⟨_, hmethods⟩
  have hentries' : ∀ other ∈ before ++ { entry with function := some f } :: after,
      isTerminator other = false := by
    simp only [List.forall_mem_append, List.forall_mem_cons] at hentries ⊢
    exact hentries
  have hvalid' : ∀ other ∈ before ++ { entry with function := some f } :: after,
      ∃ method, ofDescriptor other = .ok method := by
    simp only [List.forall_mem_append, List.forall_mem_cons] at hvalid ⊢
    obtain ⟨hbefore, ⟨method, hmethod⟩, hafter⟩ := hvalid
    exact ⟨hbefore, ⟨_, ofDescriptor_withFunction hmethod f⟩, hafter⟩
  obtain ⟨methods', hmethods'⟩ := exists_methods_iff.2 hvalid'
  refine ⟨⟨methods'⟩, (ofList_eq_ok_iff hentries' hlast rest).2 hmethods', ?_, hmethods'⟩
  have hlength := hmethods.length_eq
  have hlength' := hmethods'.length_eq
  simp only [List.length_append, List.length_cons] at hlength hlength'
  show methods'.length = _
  omega

/-- With any function at the entry, loading the table reports how many methods it has, and
the call is that of the entry. -/
theorem callTable_withFunction (hfirst : FirstOf name before entry)
    (hmethod : ofDescriptor entry = .ok method) (hname : raw.read = .ok name)
    (f : NativeFunction) (receiver arguments keywords : Pointer) (w : World) :
    Boundary.callTable (some (before ++ { entry with function := some f } ::
        (after ++ last :: rest))) raw receiver arguments keywords w =
      Boundary.answered "pyabi_call_table" (callWith method f receiver arguments keywords
        (w.report (.tableLoaded table.methods.length))) := by
  obtain ⟨table', hload', hlength, hmethods'⟩ := exists_load_withFunction hentries hlast hload f
  rw [List.append_assoc, List.cons_append] at hload'
  rw [callTable_eq hload' hname, call_of_firstOf hmethods' ⟨hfirst.named, hfirst.earlier⟩,
    callDescriptor_withFunction hmethod f, hlength]

/-- The two calls differ in what was reported when the entry is called, and in the name
under which they report a refusal. -/
theorem callsEntry_of_firstOf (hfirst : FirstOf name before entry) :
    CallsEntry table name before entry (after ++ last :: rest) := by
  have hmethods := (ofList_eq_ok_iff hentries hlast rest).1 hload
  have hcall := call_of_firstOf hmethods hfirst
  have hreported (w : World) : w.report (.tableLoaded table.methods.length) = w.withEvents
      (w.memory.process.events.push (.tableLoaded table.methods.length)) := rfl
  constructor
  case call => exact hcall
  case answer =>
    intro raw receiver arguments keywords w hname hunseeing
    have hload' := hload
    rw [List.append_assoc, List.cons_append] at hload'
    obtain ⟨events, hrun⟩ := blind_callDescriptor hunseeing receiver arguments keywords w
      (w.memory.process.events.push (.tableLoaded table.methods.length))
    rw [callTable_eq hload' hname, callMethod_eq, hcall, hreported, hrun]
    exact Boundary.answered_withEvents _ _ events _
  case handover =>
    intro raw receiver arguments keywords w hname
    -- the function of the entry is a parameter here, so that both calls are compared for
    -- every one
    obtain ⟨method, hmethod⟩ := exists_methods_iff.1 ⟨_, hmethods⟩ entry
      (List.mem_append_right _ List.mem_cons_self)
    obtain rfl : method.name = name := (named_iff hmethod).1 hfirst.named
    have halone (f : NativeFunction) := callMethod_eq { entry with function := some f }
      receiver arguments keywords w
    have hnamed (f : NativeFunction) := callTable_withFunction hentries hlast hload hfirst hmethod
      hname f receiver arguments keywords w
    simp only [callDescriptor_withFunction hmethod] at halone
    simp only [hreported] at hnamed
    rcases call_withEvents method receiver arguments keywords w
        (w.memory.process.events.push (.tableLoaded table.methods.length)) with
      ⟨handover, events, hruns⟩ | ⟨e, w', events, hrefused⟩
    · refine .inl ⟨handover, events, fun f => ⟨?_, ?_⟩⟩
      · rw [halone, (hruns f).1]
      · rw [hnamed, (hruns f).2]
    · refine .inr ⟨e, w', events, fun f => ⟨?_, ?_⟩⟩
      · rw [halone, (hrefused f).1]
        rfl
      · rw [hnamed, (hrefused f).2]
        rfl

end

/-! ### Tables that end -/

/-- What the two readers make of `descriptors`, in which `entries` stand before the first
terminator. -/
structure Reads (entries descriptors : List Descriptor) : Prop where
  /-- They come to the same, and the one that walks reports what it has loaded. -/
  agree : ∀ w, (load (some descriptors)).run w =
    match ofList descriptors with
    | .ok table => .ok (.ok table) (w.report (.tableLoaded table.methods.length))
    | .error e => .ok (.error e) w
  /-- The table has the methods of the entries, in their order. -/
  valid : ∀ table, ofList descriptors = .ok table ↔ MethodsOf entries table.methods
  /-- The refusal is that of the first entry that is not valid. -/
  invalid : ∀ e, ofList descriptors = .error e ↔ ∃ before entry after,
    entries = before ++ entry :: after ∧
      (∀ other ∈ before, ∃ method, ofDescriptor other = .ok method) ∧ ofDescriptor entry = .error e
  /-- What is behind the entries, from the terminator on, makes no difference. -/
  behind : ∀ last rest, isTerminator last = true →
    ofList (entries ++ last :: rest) = ofList descriptors ∧
      load (some (entries ++ last :: rest)) = load (some descriptors)

/-- What comes of a name in a table that was loaded from `descriptors`, in which `entries`
stand before the first terminator. -/
structure Resolves (entries descriptors : List Descriptor) (table : MethodTable) (name : String) :
    Prop where
  /-- The method that is found is that of the first entry of the name. -/
  found : ∀ method, table.find name = .ok method ↔ ∃ before entry after,
    entries = before ++ entry :: after ∧ FirstOf name before entry ∧
      ofDescriptor entry = .ok method
  unknown : ∀ e, table.find name = .error e ↔
    e = .unknownMethod name ∧ ∀ entry ∈ entries, entry.name.read ≠ .ok name
  /-- The first entry of the name is the one that is called. -/
  called : ∀ before entry after, entries = before ++ entry :: after → FirstOf name before entry →
    ∃ behind, descriptors = before ++ entry :: behind ∧ CallsEntry table name before entry behind
  /-- Without an entry of the name nothing is called. -/
  uncalled : (∀ entry ∈ entries, entry.name.read ≠ .ok name) →
    (∀ receiver arguments keywords,
      table.call name receiver arguments keywords = throw (.unknownMethod name)) ∧
    ∀ (raw : RawText) (receiver arguments keywords : Pointer) (w : World), raw.read = .ok name →
      Boundary.callTable (some descriptors) raw receiver arguments keywords w =
        .ok none ((w.report (.tableLoaded table.methods.length)).report
          (.entryFailed "pyabi_call_table" (.unknownMethod name)))

/-- Both readers stop at the same terminator and find the same first fault. -/
theorem reads_of_split (hentries : ∀ entry ∈ entries, isTerminator entry = false)
    (hlast : isTerminator last = true) (rest : List Descriptor) :
    Reads entries (entries ++ last :: rest) := by
  refine ⟨run_load_eq _, fun table => ofList_eq_ok_iff hentries hlast rest,
    fun e => ofList_eq_error_iff hentries hlast rest, fun last' rest' hlast' => ?_⟩
  have hread : readUntilTerminator (entries ++ last' :: rest') =
      readUntilTerminator (entries ++ last :: rest) := by
    rw [readUntilTerminator_eq, readUntilTerminator_eq, takeWhile_entries hentries hlast',
      takeWhile_entries hentries hlast]
  exact ⟨by rw [ofList_eq, ofList_eq, hread], by rw [load, load, hread]⟩

/-- A table that is loaded resolves each name as the entries do. -/
theorem resolves_of_load (hentries : ∀ entry ∈ entries, isTerminator entry = false)
    (hlast : isTerminator last = true) (hload : ofList (entries ++ last :: rest) = .ok table)
    (name : String) : Resolves entries (entries ++ last :: rest) table name := by
  have hmethods := (ofList_eq_ok_iff hentries hlast rest).1 hload
  refine ⟨fun method => find_eq_ok_iff hmethods, fun e => find_eq_error_iff hmethods, ?_, ?_⟩
  · rintro before entry after rfl hfirst
    exact ⟨after ++ last :: rest, List.append_assoc _ _ _,
      callsEntry_of_firstOf hentries hlast hload hfirst⟩
  · intro hnone
    have hfind := (find_eq_error_iff hmethods).2 ⟨rfl, hnone⟩
    have hcall (receiver arguments keywords : Option Ref) :
        table.call name receiver arguments keywords = throw (.unknownMethod name) := by
      rw [call, hfind]
      rfl
    refine ⟨hcall, fun raw receiver arguments keywords w hname => ?_⟩
    rw [callTable_eq hload hname, hcall]
    rfl

/-- In a list of descriptors with a terminator, the two readers take the descriptors before
the first one for the entries and read nothing behind it: they give the methods of all the
entries in their order, or the refusal of the first that is not valid. In a table that was
loaded a name stands for the first entry that has it, and a call by name is a call of the
descriptor of that entry, for the host and for foreign code. -/
theorem reads_and_resolves (descriptors : List Descriptor)
    (hends : ∃ descriptor ∈ descriptors, isTerminator descriptor = true) :
    ∃ entries last rest, descriptors = entries ++ last :: rest ∧ isTerminator last = true ∧
      (∀ entry ∈ entries, isTerminator entry = false) ∧ Reads entries descriptors ∧
      ∀ table, ofList descriptors = .ok table →
        ∀ name, Resolves entries descriptors table name := by
  -- of several terminators the first one counts, so it is searched for
  obtain ⟨last, hfirst⟩ := Option.isSome_iff_exists.1 (List.find?_isSome.2 hends)
  obtain ⟨hlast, entries, rest, rfl, hbefore⟩ := List.find?_eq_some_iff_append.1 hfirst
  have hentries : ∀ entry ∈ entries, isTerminator entry = false := fun entry hentry => by
    simpa using hbefore entry hentry
  exact ⟨entries, last, rest, rfl, hlast, hentries, reads_of_split hentries hlast rest,
    fun table hload name => resolves_of_load hentries hlast hload name⟩

/-- The descriptor of a method that answers with a truth. -/
def truthfulDescriptor (convention : CallConvention) : Descriptor where
  name := some "truthful".toUTF8
  function := some (truthful convention).function
  flags := convention.flags
  doc := none

/-- A table that lists a name twice, with a descriptor without function behind its end. -/
def truthfulTwice : List Descriptor :=
  [truthfulDescriptor .varArgs, truthfulDescriptor .noArgs, terminator,
    { truthfulDescriptor .object with function := none }]

/-- The table loads although it has a descriptor that is not valid, and the first method of
the name is called. -/
theorem reads_and_resolves_truthfulTwice :
    (∃ descriptor ∈ truthfulTwice, isTerminator descriptor = true) ∧
    ∃ table, ofList truthfulTwice = .ok table ∧
      table.methods = [truthful .varArgs, truthful .noArgs] ∧
      table.find "truthful" = .ok (truthful .varArgs) ∧
      table.find "truth" = .error (.unknownMethod "truth") ∧
      ∀ receiver arguments keywords w, ∃ events,
        Boundary.callTable (some truthfulTwice) (some "truthful".toUTF8) receiver arguments
          keywords w = leaving (·.withEvents events)
            (Boundary.callMethod (some (truthfulDescriptor .varArgs)) receiver arguments
              keywords w) := by
  have hends : ∃ descriptor ∈ truthfulTwice, isTerminator descriptor = true :=
    ⟨terminator, by simp [truthfulTwice], rfl⟩
  have hread : RawText.read (some "truthful".toUTF8) = .ok "truthful" := rfl
  have hmethod (convention : CallConvention) :
      ofDescriptor (truthfulDescriptor convention) = .ok (truthful convention) := by
    cases convention <;> rfl
  obtain ⟨entries, last, rest, hsplit, hlast, hentries, hreads, hresolves⟩ :=
    reads_and_resolves truthfulTwice hends
  -- the entries are those before the first terminator, whichever split was given
  obtain rfl : entries = [truthfulDescriptor .varArgs, truthfulDescriptor .noArgs] := by
    rw [← takeWhile_entries hentries hlast rest, ← hsplit]
    rfl
  have hload := (hreads.valid ⟨[truthful .varArgs, truthful .noArgs]⟩).2
    (.cons (hmethod _) (.cons (hmethod _) .nil))
  have hfirst : FirstOf "truthful" [] (truthfulDescriptor .varArgs) := ⟨hread, nofun⟩
  obtain ⟨hfound, -, hcalled, -⟩ := hresolves _ hload "truthful"
  obtain ⟨-, hunknown, -, -⟩ := hresolves _ hload "truth"
  obtain ⟨behind, hbehind, -, hanswer, -⟩ := hcalled [] _ _ rfl hfirst
  refine ⟨hends, _, hload, rfl, (hfound _).2 ⟨[], _, _, rfl, hfirst, hmethod _⟩,
    (hunknown _).2 ⟨rfl, ?_⟩, fun receiver arguments keywords w => ?_⟩
  · intro entry hentry hnamed
    have hname : entry.name.read = .ok "truthful" := by
      simp only [List.mem_cons, List.not_mem_nil, or_false] at hentry
      rcases hentry with rfl | rfl <;> exact hread
    exact absurd (Except.ok.inj (hname.symm.trans hnamed)) (by decide)
  · rw [hbehind]
    exact hanswer _ receiver arguments keywords w hread fun f hf => by
      cases hf
      exact fun _ _ _ => .ret _

end MethodTable

end ExtensionHost
