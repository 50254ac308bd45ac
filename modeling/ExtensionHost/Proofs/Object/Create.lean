import ExtensionHost.Proofs.Object.Attempts
import ExtensionHost.Proofs.Object.Release

/-!
# `ExtensionHost.Proofs.Object.Create`: references that are made

Two things make references: an object that is made comes with one, and a
reference to an object that is there can be had a second time. Neither ends
an object or touches a slot, which is what `World.Grows` says. An object is
made with empty slots: its block is zeroed, and a zero is no occupant.
-/

set_option autoImplicit false

namespace ExtensionHost

namespace World

variable {w w' w'' : World} {r s : Ref} {object : Object} {refs owned : Multiset Ref}

/-- Every object is still there and is what it was, and of those that are not
listed as being filled the slots are what they were. -/
structure Grows (w : World) (filled : List Ref) (w' : World) : Prop where
  stays : ∀ s object, w.object? s = some object →
    ∃ count, w'.object? s = some { object with count }
  slots : ∀ s object, w.object? s = some object → s ∉ filled → w'.slots s = w.slots s

/-- Doing nothing grows nothing. -/
theorem Grows.refl (w : World) (filled : List Ref) : w.Grows filled w where
  stays _ object h := ⟨object.count, h⟩
  slots _ _ _ _ := rfl

/-- Growing goes on. -/
theorem Grows.trans {filled : List Ref} (h : w.Grows filled w') (h' : w'.Grows filled w'') :
    w.Grows filled w'' where
  stays s object hs := by
    obtain ⟨count, hs'⟩ := h.stays s object hs
    obtain ⟨count', hs''⟩ := h'.stays s _ hs'
    exact ⟨count', hs''⟩
  slots s object hs hn := by
    obtain ⟨count, hs'⟩ := h.stays s object hs
    rw [h'.slots s _ hs' hn, h.slots s object hs hn]

/-- More slots may be filled. -/
theorem Grows.mono {filled filled' : List Ref} (h : w.Grows filled w') (hsub : filled ⊆ filled') :
    w.Grows filled' w' where
  stays := h.stays
  slots s object hs hn := h.slots s object hs fun hmem => hn (hsub hmem)

/-- What is filled after it was made was not there before. -/
theorem Grows.trans_fresh {filled : List Ref} (h : w.Grows filled w') (hr : w.object? r = none)
    (h' : w'.Grows [r] w'') : w.Grows filled w'' where
  stays s object hs := by
    obtain ⟨count, hs'⟩ := h.stays s object hs
    obtain ⟨count', hs''⟩ := h'.stays s _ hs'
    exact ⟨count', hs''⟩
  slots s object hs hn := by
    obtain ⟨count, hs'⟩ := h.stays s object hs
    have hsr : s ∉ [r] := by
      intro hmem
      rw [List.mem_singleton.1 hmem, hr] at hs
      cases hs
    rw [h'.slots s _ hs' hsr, h.slots s object hs hn]

/-- What is there stays there. -/
theorem Grows.isSome {filled : List Ref} (h : w.Grows filled w')
    (hr : (w.object? r).isSome) : (w'.object? r).isSome := by
  obtain ⟨object, hobject⟩ := Option.isSome_iff_exists.1 hr
  obtain ⟨count, hobject'⟩ := h.stays r object hobject
  rw [hobject']
  rfl

/-- A report grows nothing. -/
theorem grows_report (w : World) (event : Event) (filled : List Ref) :
    w.Grows filled (w.report event) where
  stays _ object h := ⟨object.count, h⟩
  slots _ _ _ _ := rfl

/-- A report leaves a world in order. -/
theorem Sound.report (h : w.Sound owned) (event : Event) : (w.report event).Sound owned where
  housed := h.housed.noticing _ _
  counted := h.counted.congr fun _ => rfl
  pending := h.pending
  draining := h.draining

/-- A reference in `owned` leads to an object that is still there. -/
theorem Sound.alive (h : w.Sound owned) (hr : r ∈ owned) : (w.object? r).isSome := by
  rw [← isSome_count?]
  exact h.counted.alive r (Multiset.mem_add.2 (.inl hr))

/-- Nothing is in the slots of a container that is no longer there, and what
is in those of the others is. -/
theorem Sound.alive_of_contents (h : w.Sound owned) (hs : s ∈ w.contents r) :
    (w.object? s).isSome := by
  rw [← isSome_count?]
  exact h.counted.alive s (Multiset.mem_add.2 (.inr (mem_held.2 ⟨r, List.not_mem_nil, hs⟩)))

/-! ### One more reference -/

/-- A count that changes takes nothing away. -/
theorem grows_setCount (w : World) (r : Ref) (f : Object → Int) (filled : List Ref) :
    w.Grows filled (w.modify r fun object => { object with count := f object }) where
  stays s object hs := by
    rw [object?_setCount, hs]
    by_cases hrs : r = s
    · exact ⟨f object, by rw [if_pos hrs]; rfl⟩
    · exact ⟨object.count, by rw [if_neg hrs]⟩
  slots s object hs _ := by
    rw [World.slots, World.slots, object?_setCount, hs]
    by_cases hrs : r = s
    · rw [if_pos hrs]
      rfl
    · rw [if_neg hrs]
      rfl

/-- Nobody's slots change. -/
theorem Grows.held_eq (h : w.Grows [] w')
    (hnew : ∀ s, w.object? s = none → w'.contents s = []) : w'.held [] = w.held [] := by
  refine held_congr fun s => ?_
  rw [if_neg List.not_mem_nil, if_neg List.not_mem_nil]
  cases hs : w.object? s with
  | none => rw [hnew s hs, contents_of_none hs]
  | some object => rw [contents, contents, h.slots s object hs List.not_mem_nil]

/-- An immortal object is not counted, and a mortal one is counted once more. -/
theorem retain_cases (hobject : w.object? r = some object) :
    (object.isImmortal = true ∧ w.retain r = w) ∨
      (object.isImmortal = false ∧
        w.retain r = w.modify r fun object => { object with count := object.count + 1 }) := by
  cases himm : object.isImmortal with
  | true => exact .inl ⟨rfl, by simp only [World.retain, hobject, himm, if_true]⟩
  | false =>
    exact .inr ⟨rfl, by simp only [World.retain, hobject, himm, Bool.false_eq_true, if_false]⟩

/-- An immortal object does not count the references to it, so it may have more
than its count says. -/
theorem Counted.cons_immortal {zeros : List Ref} {n : Int} (h : w.Counted refs zeros)
    (hn : w.count? r = some n) (hle : immortalCount ≤ n) : w.Counted (r ::ₘ refs) zeros := by
  refine ⟨fun s hs => ?_, fun s k hs hlt => ?_, h.zero, h.nodup⟩
  · rcases Multiset.mem_cons.1 hs with rfl | hs
    · rw [hn]
      rfl
    · exact h.alive s hs
  · have hsr : s ≠ r := by
      rintro rfl
      rw [hn] at hs
      obtain rfl : n = k := Option.some.inj hs
      omega
    rw [Multiset.count_cons_of_ne hsr]
    exact h.exact s k hs hlt

/-- A count goes up with the references. -/
theorem Counted.raised {n : Int} (h : w.Counted refs []) (hn : w.count? r = some n)
    (hlt : n < immortalCount) (more : Nat) :
    (w.modify r fun object => { object with count := object.count + more }).Counted
      (Multiset.replicate more r + refs) [] := by
  have hexact := h.exact r n hn hlt
  have hpos := h.pos hn hlt
  have hself : (w.count? r).map (· + (more : Int)) = some (n + more) := by rw [hn, Option.map_some]
  refine ⟨fun s hs => ?_, fun s k hs hk => ?_, fun s => ?_, h.nodup⟩
  · rw [count?_modify w r s (· + (more : Int))]
    by_cases hrs : r = s
    · rw [if_pos hrs, ← hrs, hself]
      rfl
    · rw [if_neg hrs]
      refine h.alive s ((Multiset.mem_add.1 hs).resolve_left fun hmem => hrs ?_)
      exact (Multiset.eq_of_mem_replicate hmem).symm
  · rw [count?_modify w r s (· + (more : Int))] at hs
    rw [Multiset.count_add]
    by_cases hrs : r = s
    · rw [if_pos hrs, ← hrs, hself] at hs
      obtain rfl : n + more = k := Option.some.inj hs
      rw [← hrs, Multiset.count_replicate_self]
      omega
    · rw [if_neg hrs] at hs
      rw [Multiset.count_replicate, if_neg hrs, Nat.zero_add]
      exact h.exact s k hs hk
  -- the count was positive, so it is no count that becomes zero or stops to be zero
  · rw [count?_modify w r s (· + (more : Int)), h.zero]
    by_cases hrs : r = s
    · rw [if_pos hrs, ← hrs, hself, hn, Option.some.injEq, Option.some.injEq]
      omega
    · rw [if_neg hrs]

/-- Taking a reference takes nothing away. -/
theorem grows_retain (w : World) (r : Ref) (filled : List Ref) : w.Grows filled (w.retain r) := by
  cases hobject : w.object? r with
  | none =>
    have hsame : w.retain r = w := by simp only [World.retain, hobject]
    rw [hsame]
    exact .refl w filled
  | some object =>
    rcases retain_cases hobject with ⟨-, hsame⟩ | ⟨-, hsame⟩
    · rw [hsame]
      exact .refl w filled
    · rw [hsame]
      exact grows_setCount w r _ filled

/-- More references to an object that counts them. -/
theorem Sound.raise (h : w.Sound owned) (hobject : w.object? r = some object)
    (hmortal : object.isImmortal = false) (more : Nat) :
    (w.modify r fun object => { object with count := object.count + more }).Sound
      (Multiset.replicate more r + owned) := by
  have hcounted := h.counted.raised (count?_of_object? hobject)
    (Int.lt_of_not_ge (of_decide_eq_false hmortal)) more
  have hheld : (w.modify r fun object => { object with count := object.count + more }).held [] =
      w.held [] := (grows_setCount w r _ []).held_eq fun s hs =>
    contents_of_none (by rw [object?_setCount, hs, Option.map_none, ite_self])
  rw [← add_assoc, ← hheld] at hcounted
  exact ⟨h.housed.setCount (h.housed.le_of_mortal hobject hmortal) _, hcounted, h.pending,
    h.draining⟩

/-- A second reference to an object that is there. -/
theorem Sound.retain (h : w.Sound owned) (hr : (w.object? r).isSome) :
    (w.retain r).Sound (r ::ₘ owned) := by
  obtain ⟨object, hobject⟩ := Option.isSome_iff_exists.1 hr
  rcases retain_cases hobject with ⟨himm, hsame⟩ | ⟨hmortal, hsame⟩
  · have hcounted := h.counted.cons_immortal (count?_of_object? hobject) (of_decide_eq_true himm)
    rw [← Multiset.cons_add] at hcounted
    rw [hsame]
    exact ⟨h.housed, hcounted, h.pending, h.draining⟩
  · have hraised := h.raise hobject hmortal 1
    rw [Multiset.replicate_one, Multiset.singleton_add] at hraised
    rw [hsame]
    exact hraised

/-! ### One more object -/

/-- The object of a type that is put into a block, with the reference that it
comes with. -/
def fresh (type : TypeObject) (body : Body) (home : Address) : Object :=
  { type, count := 1, body, home := some home }

/-- What can be made of a type in `size` bytes: the slots of a tuple lie in
its block, and a list is made without a buffer. -/
structure Makes (type : TypeObject) (size : Nat) (body : Body) : Prop where
  mayGo : type.routine ≠ .forbidden
  tuple : ∀ length, body = .tuple length →
    type.routine = .tuple ∧ contentStart + slotSize * length ≤ size
  list : ∀ length capacity buffer, body = .list length capacity buffer →
    type.routine = .list ∧ length = 0 ∧ capacity = 0 ∧ buffer = none

variable {type : TypeObject} {size : Nat} {body : Body} {home : Address} {m : Memory}

/-- A fresh object fits its type. -/
theorem Makes.fits (h : Makes type size body) : (fresh type body home).Fits where
  home := rfl
  mayGo := h.mayGo
  tuple length hbody := (h.tuple length hbody).1
  list length capacity buffer hbody := (h.list length capacity buffer hbody).1

/-- A fresh object has one block. -/
theorem Makes.blocks (h : Makes type size body) : (fresh type body home).blocks = [home] := by
  have hbuffer : (fresh type body home).buffer = none := by
    unfold Object.buffer fresh
    cases body with
    | list length capacity buffer => exact (h.list length capacity buffer rfl).2.2.2
    | _ => rfl
  rw [Object.blocks, hbuffer]
  rfl

/-- A fresh object is housed in the block that was handed out for it. -/
theorem Makes.housedIn (h : Makes type size body) {p : Process} (hlive : p.Live home) :
    (fresh type body home).HousedIn p where
  live a ha := by
    rw [h.blocks, List.mem_singleton] at ha
    rw [ha]
    exact hlive
  nodup := by
    rw [h.blocks]
    exact List.nodup_singleton home
  roomy := by
    refine ⟨fun length capacity hbody => ?_, fun length capacity a hbody => ?_,
      fun length capacity a hbody => ?_⟩
    · obtain ⟨-, hlength, hcapacity, -⟩ := h.list length capacity none hbody
      exact ⟨hlength, hcapacity⟩
    · cases (h.list length capacity (some a) hbody).2.2.2
    · cases (h.list length capacity (some a) hbody).2.2.2

/-- The world with another object, after its block was taken from storage. -/
def made (w : World) (m : Memory) (type : TypeObject) (body : Body) (home : Address) : World :=
  { w with memory := m, objects := w.objects.push (fresh type body home) }

/-- The object that was made is the last one, and the others are what they were. -/
theorem object?_made (s : Ref) :
    (w.made m type body home).object? s =
      if s = w.objects.size then some (fresh type body home) else w.object? s := by
  simp only [object?, made, Array.getElem?_push]
  by_cases hs : s = w.objects.size
  · rw [if_pos hs, if_pos hs]
    rfl
  · rw [if_neg hs, if_neg hs]

/-- No object has the number of the next one. -/
theorem object?_size (w : World) : w.object? w.objects.size = none := by
  cases h : w.object? w.objects.size with
  | none => rfl
  | some object => exact absurd (lt_size_of_object? h) (Nat.lt_irrefl _)

/-- A block that is handed out is none of an object. -/
theorem Housed.notMem_of_hands (h : w.Housed)
    (hhands : w.memory.process.Hands size (some home) m.process)
    (hobject : w.object? s = some object) : home ∉ object.blocks := fun hmem =>
  hhands.fresh home rfl ((h.housed s object hobject).live home hmem)

/-- A block that is handed out is none of those that objects have. -/
theorem Housed.same_of_hands (h : w.Housed) {found : Option Address}
    (hhands : w.memory.process.Hands size found m.process) (hobject : w.object? s = some object) :
    ∀ a ∈ object.blocks, m.process.blocks[a]? = w.memory.process.blocks[a]? := by
  intro a ha
  refine hhands.others a fun hfound => ?_
  exact hhands.fresh a hfound ((h.housed s object hobject).live a ha)

/-- The other objects are what they were when the storage of none of them has
changed. -/
theorem grows_of_same (filled : List Ref)
    (hlookup : ∀ s, w.object? s ≠ none → w'.object? s = w.object? s)
    (hsame : ∀ s object, w.object? s = some object → ∀ a ∈ object.blocks,
      w'.memory.process.blocks[a]? = w.memory.process.blocks[a]?) : w.Grows filled w' where
  stays s object hs := by
    refine ⟨object.count, ?_⟩
    rw [hlookup s (by rw [hs]; nofun), hs]
  slots s object hs _ := by
    have hs' : w'.object? s = some object := by rw [hlookup s (by rw [hs]; nofun), hs]
    rw [slots_of_object? hs, slots_of_object? hs']
    exact slotsOf_congr fun a ha => Process.payload_congr (hsame s object hs a ha)

/-- The object that was made is there. -/
theorem object?_made_self :
    (w.made m type body home).object? w.objects.size = some (fresh type body home) :=
  (object?_made _).trans (if_pos rfl)

/-- Objects that were there are what they were. -/
theorem object?_made_of_some (hs : w.object? s ≠ none) :
    (w.made m type body home).object? s = w.object? s := by
  rw [object?_made, if_neg]
  rintro rfl
  exact hs (object?_size w)

/-- The slots of a new object are empty, since its block reads as zeros. -/
theorem slots_made (hmakes : Makes type size body)
    (hzero : ∀ i, i < size → (m.process.payload home).cell i = .byte 0) :
    ∀ slot ∈ (w.made m type body home).slots w.objects.size, slot = none := by
  have hobject : (w.made m type body home).object? w.objects.size =
      some (fresh type body home) := by
    rw [object?_made, if_pos rfl]
  rw [slots_of_object? hobject]
  intro slot hslot
  cases hbody : body with
  | tuple length =>
    obtain ⟨-, hsize⟩ := hmakes.tuple length hbody
    subst hbody
    -- a word that starts with a zero byte is no name of an object
    obtain ⟨i, hi, rfl⟩ := List.mem_map.1 hslot
    have hlt : i < length := List.mem_range.1 hi
    have hcell : contentStart + slotSize * i < size := by
      have : slotSize * i < slotSize * length := Nat.mul_lt_mul_of_pos_left hlt (by decide)
      omega
    show (m.process.payload home).word? (contentStart + slotSize * i) = none
    rw [Payload.word?, hzero _ hcell]
    rfl
  | list length capacity buffer =>
    obtain ⟨-, -, -, hbuffer⟩ := hmakes.list length capacity buffer hbody
    subst hbody
    subst hbuffer
    cases hslot
  | _ =>
    subst hbody
    cases hslot

/-- What is made in zeroed bytes holds nothing yet. -/
theorem contents_made (hmakes : Makes type size body)
    (hzero : ∀ i, i < size → (m.process.payload home).cell i = .byte 0) :
    (w.made m type body home).contents w.objects.size = [] := by
  rw [contents, List.filterMap_eq_nil_iff]
  exact slots_made hmakes hzero

/-- The object that was made has one reference, and the others as many as they had. -/
theorem count?_made (s : Ref) :
    (w.made m type body home).count? s = if s = w.objects.size then some 1 else w.count? s := by
  rw [count?, object?_made]
  split <;> rfl

/-- The new object comes last, in a block that no other object has. -/
theorem Housed.made (h : w.Housed) (hmakes : Makes type size body) (hmemory : m.Sound)
    (hhands : w.memory.process.Hands size (some home) m.process) :
    (w.made m type body home).Housed := by
  refine h.change (r := w.objects.size) hmemory (fun s hs => ?_) (fun s hs => ?_)
    (fun s other _ hs => h.same_of_hands hhands hs) fun object hobject => ?_
  · -- the first objects are there, so the new one is none of them
    have hlt : s < w.objects.size := by
      have hsome : (singletons[s]?).isSome := by
        rw [Array.getElem?_eq_getElem (show s < singletons.size from hs)]
        rfl
      rw [← h.singleton s hs] at hsome
      by_contra hge
      rw [Array.getElem?_eq_none (Nat.not_lt.1 hge)] at hsome
      cases hsome
    simp only [World.made, Array.getElem?_push, if_neg (Nat.ne_of_lt hlt)]
  · rw [object?_made, if_neg hs]
  · rw [object?_made, if_pos rfl] at hobject
    cases hobject
    refine ⟨fun _ => hmakes.fits, hmakes.housedIn (hhands.live home rfl),
      fun s other _ hs a ha => ?_⟩
    rw [hmakes.blocks, List.mem_singleton] at ha
    rw [ha]
    exact h.notMem_of_hands hhands hs

/-- The new object has the one reference to it, and nobody had one before. -/
theorem Counted.made (h : w.Counted refs []) :
    (w.made m type body home).Counted (w.objects.size ::ₘ refs) [] := by
  -- nobody refers to a name that stands for nothing yet
  have habsent : w.objects.size ∉ refs := by
    intro hmem
    have := h.alive _ hmem
    rw [isSome_count?, object?_size] at this
    cases this
  refine ⟨fun s hs => ?_, fun s n hs hn => ?_, fun s => ?_, .nil⟩
  · rw [count?_made]
    split
    · rfl
    · next hne => exact h.alive s ((Multiset.mem_cons.1 hs).resolve_left hne)
  · rw [count?_made] at hs
    by_cases hsize : s = w.objects.size
    · rw [if_pos hsize] at hs
      obtain rfl : 1 = n := Option.some.inj hs
      rw [hsize, Multiset.count_cons_self, Multiset.count_eq_zero.2 habsent]
      rfl
    · rw [if_neg hsize] at hs
      rw [Multiset.count_cons_of_ne hsize]
      exact h.exact s n hs hn
  · rw [count?_made]
    split
    · simp
    · exact h.zero s

/-- An object is made in a block that was handed out for it. -/
theorem Sound.made (h : w.Sound owned) (hmakes : Makes type size body) (hmemory : m.Sound)
    (hhands : w.memory.process.Hands size (some home) m.process)
    (hzero : ∀ i, i < size → (m.process.payload home).cell i = .byte 0) :
    (w.made m type body home).Sound (w.objects.size ::ₘ owned) ∧
      w.Grows [] (w.made m type body home) := by
  have hgrows : w.Grows [] (w.made m type body home) :=
    grows_of_same [] (fun s => object?_made_of_some) fun s object => h.housed.same_of_hands hhands
  have hheld : (w.made m type body home).held [] = w.held [] := by
    refine hgrows.held_eq fun s hs => ?_
    by_cases hsize : s = w.objects.size
    · rw [hsize]
      exact contents_made hmakes hzero
    · refine contents_of_none ?_
      rw [object?_made, if_neg hsize, hs]
  refine ⟨⟨h.housed.made hmakes hmemory hhands, ?_, h.pending, h.draining⟩, hgrows⟩
  rw [hheld, Multiset.cons_add]
  exact h.counted.made

/-- The storage changes, but no block of an object. -/
theorem Sound.withMemory (h : w.Sound owned) (hmemory : m.Sound)
    (hsame : ∀ s object, w.object? s = some object → ∀ a ∈ object.blocks,
      m.process.blocks[a]? = w.memory.process.blocks[a]?) :
    (w.withMemory m).Sound owned ∧ w.Grows [] (w.withMemory m) := by
  have hgrows : w.Grows [] (w.withMemory m) := grows_of_same [] (fun _ _ => rfl) hsame
  refine ⟨⟨h.housed.of_memory rfl hmemory hsame, ?_, h.pending, h.draining⟩, hgrows⟩
  rw [hgrows.held_eq fun s hs => contents_of_none hs]
  exact h.counted.congr fun _ => rfl

/-- The references that an attempt to make an object gives. -/
def gained : Except ApiError Ref → Multiset Ref
  | .ok r => {r}
  | .error _ => 0

/-- What was gained is one reference more. -/
theorem gained_ok (r : Ref) (refs : Multiset Ref) : gained (.ok r) + refs = r ::ₘ refs :=
  Multiset.singleton_add r refs

/-- A refusal gains nothing. -/
theorem gained_error (e : ApiError) (refs : Multiset Ref) : gained (.error e) + refs = refs :=
  zero_add refs

/-- A refusal leaves the caller with what it had. -/
theorem Sound.refused (h : w.Sound owned) (e : ApiError) : w.Sound (gained (.error e) + owned) := by
  rw [gained_error]
  exact h

/-- The attempt makes an object with one reference and empty slots, or it is
refused, and it leaves the other objects alone either way. -/
def Creates (attempt : Attempt Ref) (type : TypeObject) (body : Body) : Prop :=
  ∀ (w : World) (owned : Multiset Ref), w.Sound owned → ∃ result w',
    attempt.run w = .ok result w' ∧ w'.Sound (gained result + owned) ∧ w.Grows [] w' ∧
      ∀ r, result = .ok r → w.object? r = none ∧
        (∃ home, w'.object? r = some (fresh type body home)) ∧ ∀ slot ∈ w'.slots r, slot = none

/-- A refusal at once creates nothing. -/
theorem creates_throw (e : ApiError) : Creates (throw e) type body := fun w _ h =>
  ⟨.error e, w, rfl, h.refused e, .refl w [], nofun⟩

/-- What is asked of the storage. -/
theorem run_onMemory {α : Type} {f : Memory → α × Memory} {a : α} (h : f w.memory = (a, m)) :
    (modifyGet (World.onMemory f) : Attempt α).run w = .ok (.ok a) (w.withMemory m) := by
  rw [Attempt.run_modifyGet]
  simp only [onMemory, h]
  rfl

/-- An object is made in a block that is handed out for it, if one is. -/
theorem run_allocate {found : Option Address} (hcalloc : w.memory.calloc 1 size = (found, m)) :
    (Object.allocate type size body).run w =
      match found with
      | none => .ok (.error (.allocationFailed size)) (w.withMemory m)
      | some home =>
        .ok (.ok w.objects.size)
          ((w.made m type body home).report (.objectCreated type.name size)) := by
  rw [Object.allocate, Attempt.run_bind_ok (run_onMemory hcalloc)]
  cases found with
  | none => rfl
  | some home => rfl

/-- Asking for a block of an object makes an object in it, or is refused. -/
theorem creates_allocate (hmakes : Makes type size body) :
    Creates (Object.allocate type size body) type body := by
  intro w owned h
  cases hcalloc : w.memory.calloc 1 size with
  | mk found m =>
    obtain ⟨hmemory, hhands, hzero⟩ := Memory.calloc_spec h.housed.memory hcalloc
    rw [Nat.one_mul] at hhands hzero
    have hrun : (Object.allocate type size body).run w = _ := run_allocate hcalloc
    cases found with
    | none =>
      obtain ⟨hsound, hgrows⟩ := h.withMemory hmemory fun s object => h.housed.same_of_hands hhands
      exact ⟨_, _, hrun, hsound.refused _, hgrows, nofun⟩
    | some home =>
      obtain ⟨hsound, hgrows⟩ := h.made hmakes hmemory hhands (hzero home rfl)
      refine ⟨_, _, hrun, ?_, hgrows.trans (grows_report _ _ _), ?_⟩
      · rw [gained_ok]
        exact hsound.report _
      · rintro r ⟨⟩
        refine ⟨object?_size w, ⟨home, ?_⟩, slots_made hmakes (hzero home rfl)⟩
        exact object?_made_self

/-- A new object of a type without items is made in its basic size. -/
theorem creates_new (hmakes : Makes type type.basicSize body) :
    Creates (Object.new type body) type body := creates_allocate hmakes

/-- Neither the bytes of the items nor those of the whole object are ever
computed modulo anything. -/
theorem instanceSize?_eq_some {items total : Nat} :
    type.instanceSize? items = some total ↔
      type.itemSize * items + type.basicSize ≤ Size.greatest ∧
        type.itemSize * items + type.basicSize = total := by
  rw [TypeObject.instanceSize?, Option.bind_eq_some_iff]
  constructor
  · rintro ⟨bytes, hbytes, htotal⟩
    obtain ⟨-, rfl⟩ := Size.mul?_eq_some.1 hbytes
    exact Size.add?_eq_some.1 htotal
  · rintro ⟨hle, htotal⟩
    exact ⟨_, Size.mul?_eq_some.2 ⟨(Nat.le_add_right _ _).trans hle, rfl⟩,
      Size.add?_eq_some.2 ⟨hle, htotal⟩⟩

/-- An object with items is made with the bytes that its type asks for, unless
they are too many or there are too many items. If items have bytes, nobody can
have as many as were asked for then. -/
theorem newSized_eq (type : TypeObject) (items : Nat) (body : Body) :
    (∃ size, (0 < type.itemSize → Size.addressable < size) ∧
      Object.newSized type items body = throw (.allocationFailed size)) ∨
      items ≤ Size.addressable ∧ Object.newSized type items body =
        Object.allocate type (type.itemSize * items + type.basicSize) body := by
  unfold Object.newSized
  cases hsize : type.instanceSize? items with
  | none => exact .inl ⟨_, fun _ => by decide, rfl⟩
  | some total =>
    obtain ⟨-, rfl⟩ := instanceSize?_eq_some.1 hsize
    by_cases hitems : Size.addressable < items
    · refine .inl ⟨_, fun hpos => ?_, if_pos hitems⟩
      have hbytes := Nat.mul_le_mul_right items (Nat.succ_le_of_lt hpos)
      omega
    · exact .inr ⟨Nat.le_of_not_lt hitems, if_neg hitems⟩

/-- A new object of a type with items is made in a block with room for them. -/
theorem creates_newSized {items : Nat}
    (hmakes : Makes type (type.itemSize * items + type.basicSize) body) :
    Creates (Object.newSized type items body) type body := by
  rcases newSized_eq type items body with ⟨size, -, heq⟩ | ⟨-, heq⟩
  · rw [heq]
    exact creates_throw _
  · rw [heq]
    exact creates_allocate hmakes

/-! ### The first world -/

/-- The objects that a world starts with have no blocks and no slots. -/
theorem object?_new {system : System} {settings : AllocatorSettings}
    (h : (World.new system settings).object? r = some object) :
    r < 3 ∧ object.count = immortalCount ∧ object.blocks = [] ∧
      (World.new system settings).slotsOf object = [] := by
  have hr : r < 3 := lt_size_of_object? h
  match r, hr with
  | 0, hr | 1, hr | 2, hr =>
    cases h
    exact ⟨hr, rfl, rfl, rfl⟩

/-- The objects of the first world need no block, and there is no list among
them. -/
theorem housed_new (system : System) (settings : AllocatorSettings) :
    (World.new system settings).Housed := by
  refine ⟨Memory.sound_new system settings, fun s _ => rfl, fun s object hs hle => ?_,
    fun s object hs => ?_, fun s t object other hs _ a ha => ?_⟩
  · exact absurd (object?_new hs).1 (Nat.not_lt.2 hle)
  · have hblocks := (object?_new hs).2.2.1
    have hbody : ∀ length capacity buffer, object.body ≠ .list length capacity buffer := by
      have hr := (object?_new hs).1
      match s, hr with
      | 0, _ | 1, _ | 2, _ =>
        cases hs
        nofun
    refine ⟨fun a ha => ?_, ?_, fun length capacity h => absurd h (hbody _ _ _),
      fun length capacity a h => absurd h (hbody _ _ _),
      fun length capacity a h => absurd h (hbody _ _ _)⟩
    · rw [hblocks] at ha
      cases ha
    · rw [hblocks]
      exact .nil
  · rw [(object?_new hs).2.2.1] at ha
    cases ha

/-- All counts are those of immortal objects, so there need not be a reference
for any of them. -/
theorem counted_new (system : System) (settings : AllocatorSettings) :
    (World.new system settings).Counted 0 [] := by
  refine ⟨fun s hs => absurd hs (Multiset.notMem_zero s), fun s n hs hn => ?_, fun s => ?_, .nil⟩
  · obtain ⟨object, hobject, rfl⟩ := count?_eq_some.1 hs
    rw [(object?_new hobject).2.1] at hn
    exact absurd hn (Int.lt_irrefl _)
  · refine ⟨nofun, fun hs => ?_⟩
    obtain ⟨object, hobject, hzero⟩ := count?_eq_some.1 hs
    rw [(object?_new hobject).2.1] at hzero
    cases hzero

/-- A world starts without references. -/
theorem sound_new (system : System) (settings : AllocatorSettings) :
    (World.new system settings).Sound 0 := by
  have hcontents : ∀ s, (World.new system settings).contents s = [] := by
    intro s
    cases hs : (World.new system settings).object? s with
    | none => exact contents_of_none hs
    | some object => rw [contents, slots_of_object? hs, (object?_new hs).2.2.2, List.filterMap_nil]
  have hheld : (World.new system settings).held [] = 0 := by
    refine Multiset.eq_zero_of_forall_notMem fun s hs => ?_
    obtain ⟨t, -, ht⟩ := mem_held.1 hs
    rw [hcontents] at ht
    cases ht
  refine ⟨housed_new system settings, ?_, rfl, rfl⟩
  rw [hheld, add_zero]
  exact counted_new system settings

end World

end ExtensionHost
