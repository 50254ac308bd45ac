import ExtensionHost.Object.World

/-!
# `ExtensionHost.Object.Release`: counting references

An object goes when its last reference does. A container that goes
releases the occupants of its slots, which may go in turn; so that no depth
of nesting matters, an object whose count reaches zero while a routine is
running is only put in front of a queue, and the queue is worked off when
the routine is done. That one is running is a mark that every release reads.
What a release does that finds the mark clear is a parameter (`releaseWith`):
outside of routines it works the queue off (`release`), and inside of one it
would have to start a second one (`nested`).

Each routine that runs leaves one live object less, and nothing else that
happens meanwhile makes or ends an object. The number of live objects
therefore bounds the work, which is why the loop needs no fuel.
-/

set_option autoImplicit false

namespace ExtensionHost

namespace World

/-- How many objects are still there. -/
def liveCount (w : World) : Nat := w.objects.toList.countP (·.live)

/-- Adds a reference to an object. The count of an immortal object stays
as it is. -/
def retain (w : World) (r : Ref) : World :=
  match w.object? r with
  | some object =>
    if object.isImmortal then w
    else w.modify r fun object => { object with count := object.count + 1 }
  | none => w

/-- Takes one reference off the count of an object. The answer says
whether it was the last. -/
def lower (r : Ref) : Host Bool := fun w =>
  match w.object? r with
  | none => .error .dangling w
  | some object =>
    if object.isImmortal then .ok false w
    else if object.count ≤ 0 then .error .overReleased w
    else
      .ok (object.count = 1)
        (w.modify r fun object => { object with count := object.count - 1 })

/-- Releases a reference. When it was the last one the object waits in front
of the queue, and if no routine is running, `start` works the queue off under
the mark that says that one is. -/
def releaseWith (start : Host Unit) (r : Ref) : Host Unit := fun w =>
  match lower r w with
  | .error fault w => .error fault w
  | .ok false w => .ok () w
  | .ok true w =>
    if w.draining then .ok () { w with pending := r :: w.pending }
    else
      match start { w with pending := r :: w.pending, draining := true } with
      | .error fault w => .error fault w
      | .ok () w => .ok () { w with draining := false }

/-- Releases references one after the other. -/
def releaseAllWith (start : Host Unit) : List Ref → Host Unit
  | [] => fun w => .ok () w
  | r :: rest => fun w =>
    match releaseWith start r w with
    | .error fault w => .error fault w
    | .ok () w => releaseAllWith start rest w

/-- Frees a block, if there is one. -/
def freeBlock : Option Address → Host Unit
  | none => fun w => .ok () w
  | some a => Host.runMemory (Memory.free a)

/-- The end of an object: its storage is freed, and its name stands for
nothing from now on. -/
def discard (r : Ref) (home : Option Address) : Host Unit := fun w =>
  freeBlock home (w.modify r fun object => { object with live := false })

/-- Runs the release routine of an object without references, which releases
what the object holds. -/
def destroyWith (start : Host Unit) (r : Ref) : Host Unit := fun w =>
  match w.object? r with
  | none => .error .dangling w
  | some object =>
    let w := w.report (.objectReleased object.type.name)
    match object.type.routine with
    | .forbidden => .error .immortalReleased w
    | .plain => discard r object.home w
    | .reporting =>
      let w := match object.body with
        | .labelled label => { w with reports := w.reports.push label }
        | _ => w
      discard r object.home w
    | .tuple =>
      let slots := w.slotsOf object
      let w := w.report (.tupleReleased slots.length)
      match releaseAllWith start (slots.filterMap id) w with
      | .error fault w => .error fault w
      | .ok () w => discard r object.home w
    | .list =>
      let slots := w.slotsOf object
      let (capacity, buffer) := match object.body with
        | .list _ capacity buffer => (capacity, buffer)
        | _ => (0, none)
      let w := w.report (.listReleased slots.length capacity)
      match releaseAllWith start (slots.filterMap id) w with
      | .error fault w => .error fault w
      | .ok () w =>
        match freeBlock buffer w with
        | .error fault w => .error fault w
        | .ok () w => discard r object.home w

/-- What a routine does that would have to start another one: it stops the
process. No routine ever gets here, since the mark is set while one runs. -/
def nested : Host Unit := fun w => .error .nestedRoutine w

/-- Runs the release routine of an object without references, inside which no
other one is started. -/
def destroy (r : Ref) : Host Unit := destroyWith nested r

/-! ### The number of live objects -/

/-- A change that the predicate does not see leaves the number of entries that satisfy it. -/
private theorem countP_modify_of_iff {α : Type} {p : α → Bool} {f : α → α}
    (hf : ∀ a, p (f a) = p a) (l : List α) (i : Nat) :
    (l.modify i f).countP p = l.countP p := by
  induction l generalizing i with
  | nil => simp
  | cons a l ih =>
    cases i with
    | zero => simp [List.modify_zero_cons, List.countP_cons, hf]
    | succ i => simp [List.modify_succ_cons, List.countP_cons, ih]

/-- An entry that stops satisfying the predicate is counted no more. -/
private theorem countP_modify_of_not {α : Type} {p : α → Bool} {f : α → α}
    (hf : ∀ a, p (f a) = false) {l : List α} {i : Nat} {a : α}
    (ha : l[i]? = some a) (hp : p a = true) :
    (l.modify i f).countP p + 1 = l.countP p := by
  induction l generalizing i with
  | nil => simp at ha
  | cons b l ih =>
    cases i with
    | zero =>
      obtain rfl : b = a := by simpa using ha
      simp [List.modify_zero_cons, hf, hp]
    | succ i =>
      simp only [List.modify_succ_cons, List.countP_cons]
      have := ih (i := i) (by simpa using ha)
      omega

/-- Events are no objects. -/
@[simp] theorem objects_report (w : World) (event : Event) :
    (w.report event).objects = w.objects := rfl

/-- Objects are counted by whether they are there, whatever else of them changes. -/
theorem liveCount_modify {w : World} {r : Ref} {f : Object → Object}
    (hf : ∀ object, (f object).live = object.live) :
    (w.modify r f).liveCount = w.liveCount := by
  simp only [liveCount, modify, Array.toList_modify]
  exact countP_modify_of_iff hf _ _

/-- Ending an object leaves one live object less. -/
theorem liveCount_modify_end {w : World} {r : Ref} {object : Object}
    (h : w.object? r = some object) :
    (w.modify r fun object => { object with live := false }).liveCount + 1 = w.liveCount := by
  simp only [object?] at h
  split at h
  · rename_i found hfound
    split at h
    · rename_i hlive
      simp only [liveCount, modify, Array.toList_modify]
      exact countP_modify_of_not (fun _ => rfl) (by simpa using hfound) hlive
    · cases h
  · cases h

/-- Storage is no object. -/
theorem objects_freeBlock {home : Option Address} {w w' : World}
    (h : freeBlock home w = .ok () w') : w'.objects = w.objects := by
  cases home with
  | none => cases h; rfl
  | some a =>
    simp only [freeBlock, Host.runMemory] at h
    split at h <;> cases h
    rfl

/-- Giving up a reference ends no object. -/
theorem liveCount_lower {r : Ref} {w w' : World} {last : Bool}
    (h : lower r w = .ok last w') : w'.liveCount = w.liveCount := by
  unfold lower at h
  split at h
  · cases h
  · split at h
    · cases h; rfl
    · split at h
      · cases h
      · cases h
        exact liveCount_modify fun _ => rfl

/-- Counting a reference off ends no object. -/
theorem object?_lower {r s : Ref} {w w' : World} {last : Bool}
    (h : lower r w = .ok last w') : (w'.object? s).isSome = (w.object? s).isSome := by
  unfold lower at h
  split at h
  · cases h
  · split at h
    · cases h; rfl
    · split at h
      · cases h
      · cases h
        simp only [object?, modify, Array.getElem?_modify]
        by_cases hrs : r = s
        · subst hrs
          cases w.objects[r]? with
          | none => simp
          | some object => cases hl : object.live <;> simp [hl]
        · simp [hrs]

/-- A release inside a routine only counts, and puts an object into the
queue. -/
theorem releaseWith_nested {r : Ref} {w w' : World}
    (h : releaseWith nested r w = .ok () w') :
    ∃ last w₁, lower r w = .ok last w₁ ∧
      w' = { w₁ with pending := (if last then [r] else []) ++ w₁.pending } := by
  unfold releaseWith at h
  split at h
  · cases h
  · next hlower =>
    cases h
    exact ⟨false, _, hlower, rfl⟩
  · next w₁ hlower =>
    split at h
    · cases h
      exact ⟨true, w₁, hlower, rfl⟩
    · cases h

/-- Releases inside a routine end no object. -/
theorem objects_releaseAllWith_nested {rs : List Ref} {w w' : World}
    (h : releaseAllWith nested rs w = .ok () w') :
    w'.liveCount = w.liveCount ∧ ∀ s, (w'.object? s).isSome = (w.object? s).isSome := by
  induction rs generalizing w with
  | nil =>
    cases h
    exact ⟨rfl, fun _ => rfl⟩
  | cons r rest ih =>
    simp only [releaseAllWith] at h
    split at h
    · cases h
    · next w₁ hfirst =>
      obtain ⟨last, w₂, hlower, rfl⟩ := releaseWith_nested hfirst
      obtain ⟨hcount, hthere⟩ := ih h
      have hlive : w₂.liveCount = w.liveCount := liveCount_lower hlower
      refine ⟨hcount.trans hlive, fun s => ?_⟩
      have hlowered : (w₂.object? s).isSome = (w.object? s).isSome := object?_lower hlower
      exact (hthere s).trans hlowered

/-- An object that is discarded is one live object less. -/
theorem liveCount_discard {r : Ref} {home : Option Address} {w w' : World}
    (h : discard r home w = .ok () w') (hr : (w.object? r).isSome) :
    w'.liveCount + 1 = w.liveCount := by
  obtain ⟨object, hobject⟩ := Option.isSome_iff_exists.1 hr
  have := objects_freeBlock h
  rw [liveCount, this]
  exact liveCount_modify_end hobject

/-- A routine that runs leaves one live object less. -/
theorem liveCount_destroy {r : Ref} {w w' : World}
    (h : destroy r w = .ok () w') : w'.liveCount + 1 = w.liveCount := by
  unfold destroy destroyWith at h
  split at h
  · cases h
  · rename_i object hobject
    have hsome : (w.object? r).isSome := by simp [hobject]
    simp only at h
    split at h
    · cases h
    -- only the end of the routine takes an object away; what it releases merely joins the
    -- queue
    · have := liveCount_discard h (by exact hsome)
      exact this
    · split at h
      · have := liveCount_discard h (by exact hsome)
        exact this
      · have := liveCount_discard h (by exact hsome)
        exact this
    · split at h
      · cases h
      · rename_i hall
        obtain ⟨hcount, hthere⟩ := objects_releaseAllWith_nested hall
        have := liveCount_discard h (by rw [hthere]; exact hsome)
        exact this.trans hcount
    · split at h
      · cases h
      · rename_i hall
        split at h
        · cases h
        · rename_i hbuffer
          have hobjects := objects_freeBlock hbuffer
          obtain ⟨hcount, hthere⟩ := objects_releaseAllWith_nested hall
          have := liveCount_discard h (by
            simp only [object?, hobjects]
            exact (hthere r).trans hsome)
          rw [this, liveCount, hobjects]
          exact hcount

/-! ### Working off the queue -/

/-- Runs the routines of the objects in the queue, those that join it
meanwhile first. -/
def drain (w : World) : EStateM.Result Fault World Unit :=
  match w.pending with
  | [] => .ok () w
  | r :: rest =>
    match _h : destroy r { w with pending := rest } with
    | .error fault w => .error fault w
    | .ok () w => drain w
termination_by w.liveCount
decreasing_by
  have := liveCount_destroy _h
  simp only [liveCount] at this ⊢
  omega

/-- Releases a reference. When it was the last one the object goes, and
with it whatever then has no reference left. -/
def release (r : Ref) : Host Unit := releaseWith drain r

end World

namespace Host

/-- Adds a reference to an object. -/
def retain (r : Ref) : Host Unit := modify (·.retain r)

/-- Releases a reference. -/
def release (r : Ref) : Host Unit := World.release r

/-- Releases references one after the other. -/
def releaseAll : List Ref → Host Unit
  | [] => pure ()
  | r :: rest => do
    release r
    releaseAll rest

end Host

namespace Attempt

/-- Makes an attempt that uses up a reference: when it is refused the
reference is released. -/
def consuming {α : Type} (r : Ref) (attempt : Attempt α) : Attempt α :=
  try attempt
  catch e => do
    Host.release r
    throw e

end Attempt

end ExtensionHost
