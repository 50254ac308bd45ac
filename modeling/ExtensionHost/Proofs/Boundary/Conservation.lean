import ExtensionHost.Proofs.Boundary.Ownership

/-!
# `ExtensionHost.Proofs.Boundary.Conservation`: no reference is lost or made up

A run is a sequence of operations by a caller who gives up only references it
has. `Service` lists the operations, each with what it takes over and what it
gives, and `Reachable` is the runs. Nothing is assumed of how an operation ends:
the system may refuse any request for storage, an index may be out of range, a
pointer may be null.

`World.Conserved` is what holds between the operations of a run. The caller's
references and the slots of the containers together are the count of every
object that counts its references. So no object goes while it can be reached
from a reference that the caller has, a container that holds itself included.
-/

set_option autoImplicit false

namespace ExtensionHost

open World Box

namespace Boundary

/-- The calls of a function of the boundary. A function that makes something
gives a reference with the pointer it answers; one that puts an item into a
container takes over the reference to the item. -/
inductive Called : Export → {α : Type} → List Ref → Multiset Ref → Host α →
    (α → Multiset Ref) → Prop
  | ofInteger (run : Int → Host Pointer) (v : Int) : Called (.ofInteger run) [] 0 (run v) handed
  | ofReal (run : Double → Host Pointer) (x : Double) : Called (.ofReal run) [] 0 (run x) handed
  | ofText (run : RawText → Host Pointer) (text : RawText) :
      Called (.ofText run) [] 0 (run text) handed
  | ofLength (run : Int → Host Pointer) (length : Int) :
      Called (.ofLength run) [] 0 (run length) handed
  | toInteger (run : Pointer → Host Int) (pointer : Pointer) :
      Called (.toInteger run) [] 0 (run pointer) fun _ => 0
  | toReal (run : Pointer → Host Double) (pointer : Pointer) :
      Called (.toReal run) [] 0 (run pointer) fun _ => 0
  | toText (run : Pointer → Host RawText) (pointer : Pointer) :
      Called (.toText run) [] 0 (run pointer) fun _ => 0
  | test (run : Pointer → Host Bool) (pointer : Pointer) :
      Called (.test run) [] 0 (run pointer) fun _ => 0
  | count (run : Pointer → Host Int) (pointer : Pointer) :
      Called (.count run) [] 0 (run pointer) fun _ => 0
  | throughInteger (run : Pointer → Option Int → Host (Int × Option Int)) (pointer : Pointer)
      (output : Option Int) : Called (.throughInteger run) [] 0 (run pointer output) fun _ => 0
  | throughReal (run : Pointer → Option Double → Host (Int × Option Double)) (pointer : Pointer)
      (output : Option Double) : Called (.throughReal run) [] 0 (run pointer output) fun _ => 0
  | getItem (run : Pointer → Int → Host Pointer) (container : Pointer) (index : Int) :
      Called (.getItem run) [] 0 (run container index) fun _ => 0
  | setItem (run : Pointer → Int → Pointer → Host Int) (container : Pointer) (index : Int)
      (item : Pointer) :
      Called (.setItem run) [] (handed item) (run container index item) fun _ => 0
  | append (run : Pointer → Pointer → Host Int) (list item : Pointer) :
      Called (.append run) [] (handed item) (run list item) fun _ => 0
  | retain (pointer : Pointer) :
      Called .retain pointer.toList 0 (Boundary.retain pointer) fun _ => handed pointer
  | release (pointer : Pointer) :
      Called .release [] (handed pointer) (Boundary.release pointer) fun _ => 0
  | parse (arguments : Pointer) (format : RawText) (slots : SlotArray Output) :
      Called .parse [] 0 (parseTuple arguments format slots) fun _ => 0
  | parseWithKeywords (arguments keywords : Pointer) (format : RawText)
      (names : Option (List ByteArray)) (slots : SlotArray Output) :
      Called .parseWithKeywords [] 0
        (parseTupleAndKeywords arguments keywords format names slots) fun _ => 0
  | build (format : RawText) (values : SlotArray RawValue) :
      Called .build (pointees values) 0 (buildValue format values) handed

variable {α : Type} {borrows : List Ref} {takes : Multiset Ref} {operation : Host α}
  {gives : α → Multiset Ref}

/-- What a function of the boundary does with references follows from what is known of
its export. -/
theorem Called.accounts {function : Export} (h : Called function borrows takes operation gives)
    (haccounted : function.Accounted) : Accounts borrows takes operation gives := by
  cases h with
  | ofInteger | ofReal | ofText | ofLength | toInteger | toReal | toText | test | count | retain
  | release => exact haccounted _
  | throughInteger | throughReal | getItem | append | build => exact haccounted _ _
  | setItem | parse => exact haccounted _ _ _
  | parseWithKeywords => exact haccounted _ _ _ _ _

end Boundary

/-! ### The operations -/

/-- The operations of the interface: the objects that must be there, the
references that are taken over, the operation, and the references that come
with what it answers. -/
inductive Service : {α : Type} → List Ref → Multiset Ref → Host α → (α → Multiset Ref) → Prop
  | newInteger {type : TypeObject} (hmayGo : type.routine ≠ .forbidden) (v : Int) :
      Service [] 0 (newIntegerOf type v).run gained
  | newReal {type : TypeObject} (hmayGo : type.routine ≠ .forbidden) (x : Double) :
      Service [] 0 (newRealOf type x).run gained
  | newText {type : TypeObject} (hmayGo : type.routine ≠ .forbidden) (text : String) :
      Service [] 0 (newTextOf type text).run gained
  | newBool (b : Bool) : Service [] 0 (newBool b) fun r => {r}
  | newNone : Service [] 0 newNone fun r => {r}
  | newTuple {type : TypeObject} (htype : MakesTuples type) (length : Nat) :
      Service [] 0 (newTupleOf type length).run gained
  | newList {type : TypeObject} (htype : type.routine = .list) (length : Nat) :
      Service [] 0 (newListOf type length).run gained
  | tupleOf (items : List Ref) : Service [] ↑items (tupleOf items).run gained
  | setTupleItem (r : Ref) (index : Nat) (item : Ref) :
      Service [] {item} (setTupleItem r index item).run fun _ => 0
  | setListItem (r : Ref) (index : Nat) (item : Ref) :
      Service [] {item} (setListItem r index item).run fun _ => 0
  | appendItem (r item : Ref) : Service [] {item} (appendItem r item).run fun _ => 0
  -- the occupant of a slot is answered without a reference to it
  | tupleItem (r : Ref) (index : Nat) :
      Service [] 0 (Attempt.read (tupleItem · r index)).run fun _ => 0
  | listItem (r : Ref) (index : Nat) :
      Service [] 0 (Attempt.read (listItem · r index)).run fun _ => 0
  | retain (r : Ref) : Service [r] 0 (Host.retain r) fun _ => {r}
  | release (r : Ref) : Service [] {r} (Host.release r) fun _ => 0
  | build (text : String) (values : List Native) :
      Service (Argument.referents values) 0 (Argument.build text values).run gained
  | extract (args : Ref) (format : String) :
      Service [] 0 (Attempt.read (Argument.extract · args format)).run fun _ => 0
  | extractKeywords (args : Ref) (source : KeywordSource) (text : String) (names : List String) :
      Service [] 0 (Attempt.read (Argument.extractKeywords · args source text names)).run fun _ => 0
  | call (method : Method) (hhonours : Method.Honours method.function)
      (receiver arguments keywords : Option Ref) :
      Service (receiver.toList ++ arguments.toList ++ keywords.toList) 0
        (method.call receiver arguments keywords).run gained
  | callNamed (table : MethodTable) (hhonours : table.Honours) (name : String)
      (receiver arguments keywords : Option Ref) :
      Service (receiver.toList ++ arguments.toList ++ keywords.toList) 0
        (table.call name receiver arguments keywords).run gained
  | boundary {α : Type} {borrows : List Ref} {takes : Multiset Ref} {operation : Host α}
      {gives : α → Multiset Ref} {function : String × Boundary.Export}
      (hexported : function ∈ Boundary.exports)
      (hcalled : Boundary.Called function.2 borrows takes operation gives) :
      Service borrows takes operation gives
  | callMethod {descriptor : Option Descriptor}
      (hhonours : ∀ d, descriptor = some d → Method.HonoursDescriptor d)
      (receiver arguments keywords : Pointer) :
      Service (receiver.toList ++ arguments.toList ++ keywords.toList) 0
        (Boundary.callMethod descriptor receiver arguments keywords) handed
  | callTable {table : Option (List Descriptor)}
      (hhonours : ∀ descriptors, table = some descriptors →
        ∀ descriptor ∈ descriptors, Method.HonoursDescriptor descriptor)
      (name : RawText) (receiver arguments keywords : Pointer) :
      Service (receiver.toList ++ arguments.toList ++ keywords.toList) 0
        (Boundary.callTable table name receiver arguments keywords) handed

/-- Every operation keeps account of references. -/
theorem Service.accounts {α : Type} {borrows : List Ref} {takes : Multiset Ref} {operation : Host α}
    {gives : α → Multiset Ref} (h : Service borrows takes operation gives) :
    Accounts borrows takes operation gives := by
  -- one case for each operation a caller may ask for; each has its own lemma
  cases h with
  | newInteger hmayGo v => exact (gives_newIntegerOf _ hmayGo v []).accounts
  | newReal hmayGo x => exact (gives_newRealOf _ hmayGo x []).accounts
  | newText hmayGo text => exact (gives_newTextOf _ hmayGo text []).accounts
  | newBool b => exact accounts_newBool b
  | newNone => exact accounts_newNone
  | newTuple htype length => exact accounts_of_creates (creates_newTupleOf htype length)
  | newList htype length => exact accounts_newListOf htype length
  | tupleOf items => exact accounts_tupleOf items
  | setTupleItem r index item => exact accounts_setTupleItem r index item
  | setListItem r index item => exact accounts_setListItem r index item
  | appendItem r item => exact accounts_appendItem r item
  | tupleItem | listItem | extract | extractKeywords => exact (Looks.read _).accounts
  | retain r => exact accounts_retain r
  | release r => exact accounts_release r
  | build text values => exact Argument.accounts_build text values
  | call method hhonours => exact Method.accounts_call method hhonours _ _ _
  | callNamed table hhonours name => exact MethodTable.accounts_call hhonours name _ _ _
  | boundary hexported hcalled =>
    exact hcalled.accounts (Boundary.accounted_of_mem_exports _ hexported)
  | callMethod hhonours => exact Boundary.accounts_callMethod hhonours _ _ _
  | callTable hhonours name => exact Boundary.accounts_callTable hhonours name _ _ _

/-! ### Runs -/

/-- A world that a run leads to, and the references that the caller has then. An
operation takes some of them over, and the caller keeps the others. -/
inductive Reachable : World → Multiset Ref → Prop
  | start (system : System) (settings : AllocatorSettings) : Reachable (.new system settings) 0
  | step {α : Type} {w w' : World} (takes kept : Multiset Ref) {borrows : List Ref}
      {operation : Host α} {gives : α → Multiset Ref} {a : α} (h : Reachable w (takes + kept))
      (hservice : Service borrows takes operation gives)
      (halive : ∀ r ∈ borrows, (w.object? r).isSome) (hrun : operation w = .ok a w') :
      Reachable w' (gives a + kept)

/-- Whatever is called in whatever order, references and objects stay in order. -/
theorem sound_of_reachable {w : World} {owned : Multiset Ref} (h : Reachable w owned) :
    w.Sound owned := by
  induction h with
  | start system settings => exact sound_new system settings
  | step takes kept h hservice halive hrun ih =>
    obtain ⟨b, w'', hrun', hsound⟩ := hservice.accounts _ _ ih halive
    rw [hrun] at hrun'
    cases hrun'
    exact hsound

/-! ### What a run conserves -/

namespace World

variable {w : World} {owned : Multiset Ref} {r s : Ref}

/-- How many slots of containers that are still there hold an object. -/
def slotsHolding (w : World) (r : Ref) : Nat :=
  ∑ s ∈ Finset.range w.objects.size, (w.slots s).count (some r)

/-- An object leads to another one through slots. -/
inductive Leads (w : World) (r : Ref) : Ref → Prop
  | here : Leads w r r
  | slot {s t : Ref} (h : Leads w r s) (ht : some t ∈ w.slots s) : Leads w r t

/-- The references of the caller and those in slots are all there are, and
whatever they lead to is there. -/
structure Conserved (w : World) (owned : Multiset Ref) : Prop where
  counted : ∀ r object, w.object? r = some object → object.isImmortal = false →
    object.count = owned.count r + w.slotsHolding r ∧ 1 ≤ object.count
  singletons : ∀ r ∈ [Ref.none, Ref.yes, Ref.no], w.count r = immortalCount
  present : ∀ r ∈ owned, ∀ s, w.Leads r s → (w.object? s).isSome

/-- The references in slots are the slots that have an occupant. -/
theorem count_filterMap_id (slots : List (Option Ref)) (r : Ref) :
    (slots.filterMap id).count r = slots.count (some r) := by
  induction slots with
  | nil => rfl
  | cons slot slots ih =>
    cases slot with
    | none => simpa using ih
    | some found =>
      rw [List.filterMap_cons_some (show id (some found) = some found from rfl), List.count_cons,
        List.count_cons, ih]
      simp

/-- References that objects hold are counted by the slots that hold them. -/
theorem count_held (w : World) (r : Ref) : (w.held []).count r = w.slotsHolding r := by
  rw [held, slotsHolding, Multiset.count_sum']
  refine Finset.sum_congr rfl fun s _ => ?_
  rw [if_neg List.not_mem_nil, Multiset.coe_count, contents, count_filterMap_id]

/-- Slots lead only to objects that are there. -/
theorem Sound.alive_of_leads (h : w.Sound owned) (hr : (w.object? r).isSome)
    (hleads : w.Leads r s) :
    (w.object? s).isSome := by
  induction hleads with
  | here => exact hr
  | slot _ ht _ => exact h.alive_of_contents (mem_contents.2 ht)

/-- A world in order accounts for every reference. -/
theorem Sound.conserved (h : w.Sound owned) : w.Conserved owned where
  counted r object hobject hmortal := by
    have hn : w.count? r = some object.count := count?_of_object? hobject
    have hlt : object.count < immortalCount := Int.lt_of_not_ge (of_decide_eq_false hmortal)
    have hexact := h.counted.exact r _ hn hlt
    have hpos := h.counted.pos hn hlt
    rw [Multiset.count_add, count_held] at hexact
    refine ⟨?_, by omega⟩
    rw [hexact]
    exact Int.natCast_add _ _
  singletons r hr := by
    simp only [List.mem_cons, List.not_mem_nil, or_false] at hr
    have hsingle := h.housed.singleton r (by rcases hr with rfl | rfl | rfl <;> decide)
    rcases hr with rfl | rfl | rfl <;> rw [World.count, object?, hsingle] <;> rfl
  present r hr s hleads := h.alive_of_leads (h.alive hr) hleads

end World

/-- Between the operations of a run every reference is where it belongs, and
every operation that the caller may ask for ends. -/
theorem conserved_of_reachable {w : World} {owned : Multiset Ref} (h : Reachable w owned) :
    w.Conserved owned ∧
      ∀ {α : Type} {borrows : List Ref} {takes kept : Multiset Ref} {operation : Host α}
        {gives : α → Multiset Ref}, Service borrows takes operation gives → owned = takes + kept →
        (∀ r ∈ borrows, (w.object? r).isSome) →
        ∃ a w', operation w = .ok a w' ∧ Reachable w' (gives a + kept) := by
  refine ⟨(sound_of_reachable h).conserved, fun hservice howned halive => ?_⟩
  obtain rfl := howned
  obtain ⟨a, w', hrun, -⟩ := hservice.accounts w _ (sound_of_reachable h) halive
  exact ⟨a, w', hrun, .step _ _ h hservice halive hrun⟩

/-- What an operation leaves. -/
def World.left {α : Type} (w : World) (operation : Host α) : World :=
  match operation w with
  | .ok _ w' | .error _ w' => w'

/-- A tuple with one slot. -/
def withTuple : World := (World.new (.bounded 0x1000000) {}).left (newTupleOf .tuple 1).run

/-- The tuple in its own slot, and the caller with a reference to it. -/
def withLoop : World := (withTuple.left (Host.retain 3)).left (setTupleItem 3 0 3).run

/-- A tuple that holds itself comes about by ordinary calls. -/
theorem reachable_withLoop : Reachable withLoop {3} := by
  have htuple : MakesTuples .tuple := ⟨rfl, Nat.le_refl _, Nat.le_refl _⟩
  have hmake : (newTupleOf .tuple 1).run (.new (.bounded 0x1000000) {}) = .ok (.ok 3) withTuple :=
    rfl
  have hput : (setTupleItem 3 0 3).run (withTuple.left (Host.retain 3)) =
      .ok (.ok ()) withLoop := rfl
  have hmade : Reachable withTuple {3} :=
    .step 0 0 (.start _ _) (.newTuple htuple 1) nofun hmake
  have halive : ∀ r ∈ [3], (withTuple.object? r).isSome := by
    intro r hr
    rw [List.mem_singleton.1 hr]
    rfl
  have hretain : Host.retain 3 withTuple = .ok () (withTuple.left (Host.retain 3)) := rfl
  have hretained := Reachable.step 0 {3} hmade (.retain 3) halive hretain
  exact .step {3} {3} hretained (.setTupleItem 3 0 3) nofun hput

/-- The tuple that holds itself has two references, one of the caller and one of its own
slot. -/
theorem conserved_withLoop :
    Reachable withLoop {3} ∧ withLoop.slots 3 = [some 3] ∧ withLoop.count 3 = 2 ∧
      withLoop.Conserved {3} :=
  ⟨reachable_withLoop, rfl, rfl, (conserved_of_reachable reachable_withLoop).1⟩

end ExtensionHost
