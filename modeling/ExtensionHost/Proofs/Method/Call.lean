import ExtensionHost.Method.Table
import ExtensionHost.Proofs.Box.Slots
import ExtensionHost.Proofs.Object.Accounts

/-!
# `ExtensionHost.Proofs.Method.Call`: references in a call

A native function borrows what it is called with and answers a new reference.
That is its contract, `Method.Honours`, and a call of a function that honours
it gives its caller one reference or none. The call has a reference of its own
to give up in one case, the empty tuple that it makes for a function that takes
a tuple and was given none, and it does so after the function is back.
-/

set_option autoImplicit false

namespace ExtensionHost

namespace Method

open World Box

variable {w : World} {kept : Multiset Ref} {receiver arguments keywords : Option Ref}

/-- The ownership contract of a native function: it borrows the receiver, the
arguments and those given by name, and what it answers is a new reference. -/
def Honours (f : NativeFunction) : Prop :=
  ∀ receiver arguments keywords : Option Ref,
    Accounts (receiver.toList ++ arguments.toList ++ keywords.toList) 0
      (f receiver arguments keywords) handed

/-- The objects that pointers point to are there. -/
def Alive (w : World) (pointers : List (Option Ref)) : Prop :=
  ∀ pointer ∈ pointers, ∀ r, pointer = some r → (w.object? r).isSome

/-- What a method is called with is there if each of the three is. -/
theorem alive_of_each {receiver : Option Ref} (arguments keywords : Option Ref)
    (hreceiver : ∀ r, receiver = some r → (w.object? r).isSome)
    (harguments : ∀ r, arguments = some r → (w.object? r).isSome)
    (hkeywords : ∀ r, keywords = some r → (w.object? r).isSome) :
    Alive w [receiver, arguments, keywords] := by
  intro pointer hpointer
  simp only [List.mem_cons, List.not_mem_nil, or_false] at hpointer
  rcases hpointer with rfl | rfl | rfl
  · exact hreceiver
  · exact harguments
  · exact hkeywords

/-- Pointers to objects that are borrowed point to objects that are there. -/
theorem alive_of_borrowed
    (h : ∀ r ∈ receiver.toList ++ arguments.toList ++ keywords.toList, (w.object? r).isSome) :
    Alive w [receiver, arguments, keywords] := by
  simp only [List.mem_append, Option.mem_toList] at h
  exact alive_of_each _ _ (fun r hr => h r (.inl (.inl hr))) (fun r hr => h r (.inl (.inr hr)))
    fun r hr => h r (.inr hr)

/-- A function that honours its contract is run on objects that are there. -/
theorem Honours.run {f : NativeFunction} (hf : Honours f) (h : w.Sound kept)
    (halive : Alive w [receiver, arguments, keywords]) :
    ∃ answer w', (monadLift (f receiver arguments keywords) : Attempt (Option Ref)).run w =
      .ok (.ok answer) w' ∧ w'.Sound (handed answer + kept) := by
  have hborrows : ∀ r ∈ receiver.toList ++ arguments.toList ++ keywords.toList,
      (w.object? r).isSome := by
    intro r hr
    simp only [List.mem_append, Option.mem_toList] at hr
    rcases hr with (hr | hr) | hr
    · exact halive receiver (by simp) r hr
    · exact halive arguments (by simp) r hr
    · exact halive keywords (by simp) r hr
  obtain ⟨answer, w', hrun, hsound⟩ :=
    hf receiver arguments keywords w kept (by rw [zero_add]; exact h) hborrows
  exact ⟨answer, w', Attempt.run_lift_ok hrun, hsound⟩

/-- A refused call leaves nothing behind. -/
theorem refused_spec {α : Type} (h : w.Sound kept) (gives : α → Multiset Ref) (e : ApiError) :
    w.Sound (unlessRefused gives (.error e) + kept) := by
  rw [unlessRefused, zero_add]
  exact h

/-- The occupant of a slot is there. -/
theorem alive_of_tupleItem {r item : Ref} {index : Nat} (h : w.Sound kept)
    (hitem : tupleItem w r index = .ok item) : (w.object? item).isSome := by
  obtain ⟨⟨object, length⟩, htuple, hoccupant⟩ := except_bind_eq_ok.1 hitem
  obtain ⟨hobject, -, -⟩ := tupleObject_eq_ok.1 htuple
  have hoccupant : occupant w object length index = .ok item := hoccupant
  rw [occupant, slot?_eq_getElem?_slotsOf] at hoccupant
  cases hslot : (w.slotsOf object)[index]? with
  | none => simp only [hslot] at hoccupant; cases hoccupant
  | some slot =>
    cases slot with
    | none => simp only [hslot] at hoccupant; cases hoccupant
    | some found =>
      simp only [hslot] at hoccupant
      cases hoccupant
      refine h.alive_of_contents (r := r) (mem_contents.2 ?_)
      rw [slots_of_object? hobject]
      exact List.mem_of_getElem? hslot

/-- A function that takes a tuple gets an empty one if there is none, and the
empty one goes when the function is back. -/
theorem runOnTuple_spec {f : NativeFunction} (hf : Honours f) (h : w.Sound kept)
    (halive : Alive w [receiver, arguments, keywords]) :
    ∃ result w', (match arguments with
      | some arguments => return ← f receiver (some arguments) keywords
      | none => do
        let empty ← newTuple 0
        let answer ← f receiver (some empty) keywords
        Host.release empty
        return answer : Attempt (Option Ref)).run w = .ok result w' ∧
      w'.Sound (unlessRefused handed result + kept) := by
  cases arguments with
  | some arguments =>
    obtain ⟨answer, w', hrun, hsound⟩ := hf.run h halive
    exact ⟨.ok answer, w', hrun, hsound⟩
  | none =>
    obtain ⟨made, w₁, hrun₁, hsound₁, hgrows, -⟩ := creates_newTuple 0 w kept h
    cases made with
    | error e => exact ⟨.error e, w₁, Attempt.run_bind_error hrun₁ _, hsound₁⟩
    | ok empty =>
      have hempty : ∀ r, some empty = some r → (w₁.object? r).isSome := by
        rintro r ⟨⟩
        exact hsound₁.alive (Multiset.mem_add.2 (.inl (Multiset.mem_singleton_self _)))
      -- making the empty tuple cost none of the others its life
      have halive₁ : Alive w₁ [receiver, some empty, keywords] :=
        alive_of_each _ _ (fun r hr => hgrows.isSome (halive receiver (by simp) r hr)) hempty
          fun r hr => hgrows.isSome (halive keywords (by simp) r hr)
      obtain ⟨answer, w₂, hrun₂, hsound₂⟩ := hf.run hsound₁ halive₁
      rw [gained_ok, Multiset.add_cons] at hsound₂
      obtain ⟨ended, w₃, hrelease, hsound₃, -⟩ := hsound₂.release
      refine ⟨.ok answer, w₃, ?_, hsound₃⟩
      refine (Attempt.run_bind_ok hrun₁ _).trans ((Attempt.run_bind_ok hrun₂ _).trans ?_)
      exact Attempt.run_bind_ok
        (Attempt.run_lift_ok (show Host.release empty w₂ = _ from hrelease)) _

/-- A function that takes one object gets the occupant of the only slot, which
the tuple keeps alive. -/
theorem runOnItem_spec {f : NativeFunction} (hf : Honours f) (h : w.Sound kept)
    (hreceiver : ∀ r, receiver = some r → (w.object? r).isSome) (arguments : Ref) :
    ∃ result w', (do
        let argument ← Attempt.read (tupleItem · arguments 0)
        return ← f receiver (some argument) none : Attempt (Option Ref)).run w = .ok result w' ∧
      w'.Sound (unlessRefused handed result + kept) := by
  rw [Attempt.run_read_bind]
  cases hitem : tupleItem w arguments 0 with
  | error e => exact ⟨.error e, w, rfl, refused_spec h handed e⟩
  | ok item =>
    have hargument : ∀ r, some item = some r → (w.object? r).isSome := by
      rintro r ⟨⟩
      exact alive_of_tupleItem h hitem
    obtain ⟨answer, w', hrun, hsound⟩ :=
      hf.run h (alive_of_each (some item) none hreceiver hargument nofun)
    exact ⟨.ok answer, w', hrun, hsound⟩

/-- The function is run the way its convention asks for. -/
theorem run_spec (method : Method) (hf : Honours method.function) (h : w.Sound kept)
    (halive : Alive w [receiver, arguments, keywords]) (count : Nat) :
    ∃ result w', (run method receiver arguments keywords count).run w = .ok result w' ∧
      w'.Sound (unlessRefused handed result + kept) := by
  have hrefused : ∀ e : ApiError, ∃ result w',
      (throw e : Attempt (Option Ref)).run w = .ok result w' ∧
      w'.Sound (unlessRefused handed result + kept) := by
    intro e
    exact ⟨.error e, w, rfl, refused_spec h handed e⟩
  -- those that are not passed on need not be there
  have hreceiver : ∀ r, receiver = some r → (w.object? r).isSome :=
    halive receiver List.mem_cons_self
  unfold run
  cases method.convention with
  | noArgs =>
    by_cases hcount : count = 0
    · obtain ⟨answer, w', hrun, hsound⟩ := hf.run h (alive_of_each none none hreceiver nofun nofun)
      simp only [if_pos hcount]
      exact ⟨.ok answer, w', hrun, hsound⟩
    · simp only [if_neg hcount]
      exact hrefused _
  | object =>
    cases arguments with
    | none => exact hrefused _
    | some arguments =>
      match count with
      | 1 => exact runOnItem_spec hf h hreceiver arguments
      | 0 | _ + 2 => exact hrefused _
  | varArgs =>
    exact runOnTuple_spec hf h (alive_of_each _ none hreceiver (halive arguments (by simp)) nofun)
  | varArgsKeywords => exact runOnTuple_spec hf h halive

/-- What is passed on of the arguments given by name is what the call came
with, if it is passed on. -/
theorem namedArguments_eq_ok {named : Option Ref} (h : namedArguments w keywords = .ok named) :
    named = none ∨ named = keywords := by
  cases keywords with
  | none =>
    cases h
    exact .inl rfl
  | some keywords =>
    obtain ⟨slots, -, hnamed⟩ := except_bind_eq_ok.1 h
    obtain rfl := Except.ok.inj hnamed
    by_cases hempty : slots.isEmpty = true
    · exact .inl (if_pos hempty)
    · exact .inr (if_neg hempty)

/-- A call gives a new reference or none, whatever it comes to. -/
theorem accounts_call (method : Method) (hf : Honours method.function)
    (receiver arguments keywords : Option Ref) :
    Accounts (receiver.toList ++ arguments.toList ++ keywords.toList) 0
      (method.call receiver arguments keywords).run gained := by
  intro w kept h hborrows
  rw [zero_add] at h
  rw [call, Attempt.run_read_bind]
  cases argumentCount w arguments with
  | error e => exact ⟨.error e, w, rfl, h.refused e⟩
  | ok count =>
    dsimp only
    rw [Attempt.run_read_bind]
    cases hnamed : namedArguments w keywords with
    | error e => exact ⟨.error e, w, rfl, h.refused e⟩
    | ok named =>
      dsimp only
      rw [Attempt.run_read_bind]
      cases checkKeywords w method named with
      | error e => exact ⟨.error e, w, rfl, h.refused e⟩
      | ok u =>
        have hall := alive_of_borrowed hborrows
        have halive : Alive w [receiver, arguments, named] := by
          refine alive_of_each _ _ (hall receiver (by simp)) (hall arguments (by simp))
            fun r hr => ?_
          rcases namedArguments_eq_ok hnamed with rfl | rfl
          · cases hr
          · exact hall named (by simp) r hr
        -- the event moves nothing, so the function finds the world it was promised
        have hreport := h.report (.dispatched method.name method.convention.name count)
        obtain ⟨result, w', hrun, hsound⟩ := run_spec method hf hreport halive count
        have hcall := fun next : Option Ref → Attempt Ref =>
          Attempt.run_bind (run method receiver arguments named count) next
            (w.report (.dispatched method.name method.convention.name count))
        simp only [hrun] at hcall
        cases result with
        | error e => exact ⟨.error e, w', hcall _, hsound⟩
        | ok answer =>
          cases answer with
          | none => exact ⟨.error (.callFailed method.name), w', hcall _, hsound⟩
          | some answer => exact ⟨.ok answer, w', hcall _, hsound⟩

/-! ### Calls of what is written down -/

/-- A descriptor without a function cannot be called, so it has no contract. -/
def HonoursDescriptor (descriptor : Descriptor) : Prop :=
  ∀ f, descriptor.function = some f → Honours f

/-- A descriptor is valid when its name is a text, it has a function, and its flags state a
convention. The method has all of these, and the documentation if it is a text. -/
theorem ofDescriptor_eq_ok_iff {descriptor : Descriptor} {method : Method} :
    ofDescriptor descriptor = .ok method ↔ descriptor.name.read = .ok method.name ∧
      descriptor.function = some method.function ∧
      CallConvention.ofFlags descriptor.flags = .ok method.convention ∧
      descriptor.doc.read? = method.doc := by
  constructor
  · intro h
    obtain ⟨name, hname, h⟩ := except_bind_eq_ok.1 h
    cases hfunction : descriptor.function with
    | none =>
      rw [hfunction] at h
      cases h
    | some f =>
      rw [hfunction] at h
      obtain ⟨g, hg, h⟩ := except_bind_eq_ok.1 h
      obtain rfl := Except.ok.inj hg
      obtain ⟨convention, hconvention, h⟩ := except_bind_eq_ok.1 h
      obtain rfl := Except.ok.inj h
      exact ⟨hname, rfl, hconvention, rfl⟩
  · rintro ⟨hname, hfunction, hconvention, hdoc⟩
    rw [ofDescriptor, hname, hfunction, hconvention, hdoc]
    rfl

/-- The function of a method is that of its descriptor. -/
theorem function_of_ofDescriptor {descriptor : Descriptor} {method : Method}
    (h : ofDescriptor descriptor = .ok method) : descriptor.function = some method.function :=
  (ofDescriptor_eq_ok_iff.1 h).2.1

/-- Calling a descriptor borrows what it is called with, if its function keeps the contract. -/
theorem accounts_callDescriptor {descriptor : Descriptor} (h : HonoursDescriptor descriptor)
    (receiver arguments keywords : Option Ref) :
    Accounts (receiver.toList ++ arguments.toList ++ keywords.toList) 0
      (callDescriptor descriptor receiver arguments keywords).run gained := by
  refine Accounts.after_check _ fun method hmethod => ?_
  exact accounts_call method (h _ (function_of_ofDescriptor hmethod)) _ _ _

end Method

namespace MethodTable

open World Method

/-- Every method of a table honours its contract. -/
def Honours (table : MethodTable) : Prop := ∀ method ∈ table.methods, Method.Honours method.function

/-- Calling a method of a table by its name borrows what it is called with, if the table
keeps the contract. -/
theorem accounts_call {table : MethodTable} (h : table.Honours) (name : String)
    (receiver arguments keywords : Option Ref) :
    Accounts (receiver.toList ++ arguments.toList ++ keywords.toList) 0
      (table.call name receiver arguments keywords).run gained := by
  refine Accounts.after_check _ fun method hmethod => ?_
  refine Method.accounts_call method (h method ?_) _ _ _
  unfold find at hmethod
  split at hmethod
  · next found hfound =>
    cases hmethod
    exact List.mem_of_find?_eq_some hfound
  · cases hmethod

/-- A table is loaded without looking at the world, and reported when it was. -/
theorem run_load (descriptors : List Descriptor) (w : World) :
    (load (some descriptors)).run w =
      match readUntilTerminator descriptors with
      | .ok methods => .ok (.ok ⟨methods⟩) (w.report (.tableLoaded methods.length))
      | .error e => .ok (.error e) w := by
  rw [load, Attempt.run_bind, Attempt.run_ofExcept]
  cases readUntilTerminator descriptors <;> rfl

/-- The methods that are read off a table come from its descriptors. -/
theorem exists_of_read {descriptors : List Descriptor} {methods : List Method}
    (h : readUntilTerminator descriptors = .ok methods) :
    ∀ method ∈ methods, ∃ descriptor ∈ descriptors, ofDescriptor descriptor = .ok method := by
  induction descriptors generalizing methods with
  | nil =>
    cases h
    exact nofun
  | cons descriptor rest ih =>
    rw [readUntilTerminator] at h
    split at h
    · cases h
      exact nofun
    · obtain ⟨first, hfirst, h⟩ := except_bind_eq_ok.1 h
      obtain ⟨others, hothers, h⟩ := except_bind_eq_ok.1 h
      cases h
      intro method hmethod
      rcases List.mem_cons.1 hmethod with rfl | hmethod
      · exact ⟨descriptor, List.mem_cons_self, hfirst⟩
      · obtain ⟨other, hother, hvalid⟩ := ih hothers method hmethod
        exact ⟨other, List.mem_cons_of_mem _ hother, hvalid⟩

/-- The methods that are read from descriptors keep the contract, if these do. -/
theorem honours_of_read {descriptors : List Descriptor} {methods : List Method}
    (h : readUntilTerminator descriptors = .ok methods)
    (hdescriptors : ∀ descriptor ∈ descriptors, HonoursDescriptor descriptor) :
    MethodTable.Honours ⟨methods⟩ := by
  intro method hmethod
  obtain ⟨descriptor, hdescriptor, hvalid⟩ := exists_of_read h method hmethod
  exact hdescriptors descriptor hdescriptor _ (function_of_ofDescriptor hvalid)

end MethodTable

end ExtensionHost
