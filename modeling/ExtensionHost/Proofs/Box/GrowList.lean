import ExtensionHost.Proofs.Box.Slots

/-!
# `ExtensionHost.Proofs.Box.GrowList`: lists and the references in them

A list gets a new shape twice when an item is added: its buffer may be
resized, and its length goes up by one before the item is put into the slot
that this adds. Neither moves a reference, since the slots that a shape adds
are empty: a buffer that is made is zeroed, and the part of a resized buffer
behind the old slots is filled with zeros. `Sound.reshaped` says what a shape
must satisfy.
-/

set_option autoImplicit false

namespace ExtensionHost

namespace World

variable {w w' : World} {r s : Ref} {object : Object} {owned : Multiset Ref} {body : Body}
  {m : Memory} {a : Address}

/-- The world with another body for an object, in other storage. -/
def reshaped (w : World) (r : Ref) (body : Body) (m : Memory) : World :=
  (w.modify r fun object => { object with body }).withMemory m

/-- Only one object has another body. -/
theorem object?_reshaped (s : Ref) :
    (w.reshaped r body m).object? s =
      if r = s then (w.object? s).map fun object => { object with body } else w.object? s :=
  object?_modify w r s (fun object => { object with body }) fun _ => rfl

/-- The object that got another body has it. -/
theorem object?_reshaped_self (hobject : w.object? r = some object) :
    (w.reshaped r body m).object? r = some { object with body } := by
  rw [object?_reshaped, if_pos rfl, hobject, Option.map_some]

/-- An object that is found afterwards was there before, perhaps with another body. -/
theorem object?_of_reshaped {other : Object} (hobject : w.object? r = some object)
    (hs : (w.reshaped r body m).object? s = some other) :
    s = r ∧ other = { object with body } ∨ s ≠ r ∧ w.object? s = some other := by
  rw [object?_reshaped] at hs
  split at hs
  · next hrs =>
    subst hrs
    rw [hobject] at hs
    exact .inl ⟨rfl, (Option.some.inj hs).symm⟩
  · next hrs => exact .inr ⟨Ne.symm hrs, hs⟩

/-- The other objects hold what they held when their blocks are what they were. -/
theorem slots_reshaped_of_ne (hs : s ≠ r)
    (hsame : ∀ other, w.object? s = some other → ∀ a ∈ other.blocks,
      m.process.blocks[a]? = w.memory.process.blocks[a]?) :
    (w.reshaped r body m).slots s = w.slots s := by
  have hobject : (w.reshaped r body m).object? s = w.object? s := by
    rw [object?_reshaped, if_neg (Ne.symm hs)]
  cases hother : w.object? s with
  | none => rw [slots_of_none hother, slots_of_none (hobject.trans hother)]
  | some other =>
    rw [slots_of_object? hother, slots_of_object? (hobject.trans hother)]
    exact slotsOf_congr fun a ha => Process.payload_congr (hsame other hother a ha)

/-- An object may get another body when its blocks are its own. -/
theorem Housed.reshaped (h : w.Housed) (hobject : w.object? r = some object) (hle : 3 ≤ r)
    (hmemory : m.Sound)
    (hsame : ∀ s other, s ≠ r → w.object? s = some other → ∀ a ∈ other.blocks,
      m.process.blocks[a]? = w.memory.process.blocks[a]?)
    (hfits : Object.Fits { object with body })
    (hin : Object.HousedIn { object with body } m.process)
    (hapart : ∀ s other, s ≠ r → w.object? s = some other →
      ∀ a ∈ Object.blocks { object with body }, a ∉ other.blocks) :
    (w.reshaped r body m).Housed := by
  have hothers : ∀ s, s ≠ r → (w.reshaped r body m).object? s = w.object? s := by
    intro s hs
    rw [object?_reshaped, if_neg (Ne.symm hs)]
  refine h.change (r := r) hmemory (fun s hs => first_modify hle hs _) hothers hsame
    fun found hfound => ?_
  rw [object?_reshaped_self hobject] at hfound
  cases hfound
  exact ⟨fun _ => hfits, hin, hapart⟩

/-- Counts stay right when an object gets another body and holds what it held. -/
theorem Sound.reshaped (h : w.Sound owned) (hhoused : (w.reshaped r body m).Housed)
    (hsame : ∀ s other, s ≠ r → w.object? s = some other → ∀ a ∈ other.blocks,
      m.process.blocks[a]? = w.memory.process.blocks[a]?)
    (hcontents : (w.reshaped r body m).contents r = w.contents r) :
    (w.reshaped r body m).Sound owned := by
  have hheld : (w.reshaped r body m).held [] = w.held [] := held_congr fun s => by
    rw [if_neg List.not_mem_nil, if_neg List.not_mem_nil]
    by_cases hs : s = r
    · rw [hs, hcontents]
    · rw [contents, contents, slots_reshaped_of_ne hs fun other => hsame s other hs]
  refine ⟨hhoused, ?_, h.pending, h.draining⟩
  rw [hheld]
  refine h.counted.congr fun s => ?_
  rw [count?, count?, object?_reshaped]
  split
  · rw [Option.map_map]
    rfl
  · rfl

/-! ### Lists -/

/-- A list in its buffer. -/
theorem slotsOf_list {length capacity : Nat} (hbody : object.body = .list length capacity (some a))
    (w : World) :
    w.slotsOf object =
      (List.range length).map fun i => (w.memory.process.payload a).word? (slotSize * i) := by
  rw [slotsOf, (slotsAt_list hbody).table]
  simp only [Nat.zero_add]

end World

namespace Box

open World

variable {w w' : World} {r item : Ref} {object : Object} {owned : Multiset Ref} {a : Address}
  {length capacity : Nat} {buffer : Option Address}

/-! ### Buffers -/

/-- The block at `b` may become the buffer of a list: it is none of another
object and not the one that the list lies in, and it has room for the slots. -/
structure BufferAt (w : World) (r : Ref) (object : Object) (capacity : Nat) (b : Address)
    (m : Memory) : Prop where
  memory : m.Sound
  others : ∀ s other, s ≠ r → w.object? s = some other → ∀ c ∈ other.blocks,
    c ≠ b ∧ m.process.blocks[c]? = w.memory.process.blocks[c]?
  home : ∀ c, object.home = some c → c ≠ b ∧ m.process.blocks[c]? = w.memory.process.blocks[c]?
  live : m.process.Live b
  room : slotSize * capacity ≤ (m.process.kind b).usable

/-- A block that is handed out for a list. -/
theorem bufferAt_of_hands {bytes : Nat} {m : Memory} (h : w.Housed)
    (hobject : w.object? r = some object) (hmemory : m.Sound) (hbytes : slotSize * capacity ≤ bytes)
    (hhands : w.memory.process.Hands bytes (some a) m.process) :
    BufferAt w r object capacity a m where
  memory := hmemory
  others s other _ hs c hc :=
    ⟨fun heq => h.notMem_of_hands hhands hs (heq ▸ hc), h.same_of_hands hhands hs c hc⟩
  home c hc := by
    have hmem : c ∈ object.blocks := Object.mem_blocks.2 (.inr hc)
    exact ⟨fun heq => h.notMem_of_hands hhands hobject (heq ▸ hmem),
      h.same_of_hands hhands hobject c hmem⟩
  live := hhands.live a rfl
  room := hbytes.trans (hhands.room a rfl)

/-- The buffer of a list after it was resized. -/
theorem bufferAt_of_moves {bytes : Nat} {b : Address} {m : Memory} {old : Nat} (h : w.Housed)
    (hobject : w.object? r = some object) (hbody : object.body = .list length old (some a))
    (hmemory : m.Sound) (hbytes : slotSize * capacity ≤ bytes)
    (hmoves : w.memory.process.Moves a bytes (some b) m.process) :
    BufferAt w r object capacity b m := by
  have hin := h.housed r object hobject
  have ha : a ∈ object.blocks :=
    Object.mem_blocks.2 (.inl (Object.buffer_eq_some.2 ⟨_, _, hbody⟩))
  have hapart : ∀ c, w.memory.process.Live c → c ≠ a →
      c ≠ b ∧ m.process.blocks[c]? = w.memory.process.blocks[c]? := by
    intro c hc hca
    have hcb : c ≠ b := fun heq => (hmoves.fresh b rfl (heq ▸ hca)).1 (heq ▸ hc)
    exact ⟨hcb, hmoves.others c hca fun heq => hcb (Option.some.inj heq).symm⟩
  refine ⟨hmemory, ?_, ?_, hmoves.live b rfl, hbytes.trans (hmoves.room b rfl)⟩
  · intro s other hs hother c hc
    refine hapart c ((h.housed s other hother).live c hc) ?_
    rintro rfl
    exact hs (h.apart s r other object hother hobject c hc ha)
  · intro c hc
    refine hapart c (hin.live c (Object.mem_blocks.2 (.inr hc))) ?_
    rintro rfl
    have hnodup := hin.nodup
    rw [Object.blocks, Object.buffer_eq_some.2 ⟨_, _, hbody⟩, hc] at hnodup
    simp at hnodup

/-- What is written into the buffer does not matter for where it is. -/
theorem BufferAt.modifyPayload {b : Address} {m : Memory} (h : BufferAt w r object capacity b m)
    (f : Payload → Payload) :
    BufferAt w r object capacity b { m with process := m.process.modifyPayload b f } where
  memory := h.memory.modifyPayload b f
  others s other hs hother c hc := by
    obtain ⟨hcb, hsame⟩ := h.others s other hs hother c hc
    exact ⟨hcb, (Process.getElem?_modifyPayload_of_ne hcb f).trans hsame⟩
  home c hc := by
    obtain ⟨hcb, hsame⟩ := h.home c hc
    exact ⟨hcb, (Process.getElem?_modifyPayload_of_ne hcb f).trans hsame⟩
  live := (Process.live_modifyPayload _ _ _ _).2 h.live
  room := by
    rw [show Process.kind _ b = _ from Process.kind_modifyPayload _ _ _ _]
    exact h.room

/-- A list may get another buffer with empty unused slots. -/
theorem housed_rebuffered {b : Address} {m : Memory} (h : w.Housed)
    (hobject : w.object? r = some object) (hle : 3 ≤ r) (hroutine : object.type.routine = .list)
    (hbuffer : BufferAt w r object capacity b m) (hlength : length ≤ capacity)
    (hunused : ∀ i, length ≤ i → i < capacity → (m.process.payload b).word? (slotSize * i) = none) :
    (w.reshaped r (.list length capacity (some b)) m).Housed := by
  have hin := h.housed r object hobject
  have hfits := h.fits r object hobject hle
  -- the blocks of the list are its own and the new buffer
  have hmem : ∀ c, c ∈ Object.blocks { object with body := .list length capacity (some b) } →
      c = b ∨ object.home = some c := by
    intro c hc
    rcases Object.mem_blocks.1 hc with hc | hc
    · exact .inl (Option.some.inj hc).symm
    · exact .inr hc
  refine h.reshaped hobject hle hbuffer.memory
    (fun s other hs hother c hc => (hbuffer.others s other hs hother c hc).2)
    ⟨hfits.home, hfits.mayGo, fun _ hc => (by cases hc), fun _ _ _ _ => hroutine⟩
    ⟨?live, ?nodup, ?roomy⟩ ?apart
  case live =>
    intro c hc
    rcases hmem c hc with rfl | hc
    · exact hbuffer.live
    · exact (Process.live_congr (hbuffer.home c hc).2).2
        (hin.live c (Object.mem_blocks.2 (.inr hc)))
  case nodup =>
    rw [Object.blocks, Object.buffer]
    cases hhome : object.home with
    | none => simp
    | some c => simpa using Ne.symm (hbuffer.home c hhome).1
  case roomy =>
    refine ⟨fun _ _ hc => (by cases hc), fun l n c hc => ?_, fun l n c hc => ?_⟩
    · cases hc
      exact ⟨hlength, hbuffer.room⟩
    · cases hc
      exact hunused
  case apart =>
    intro s other hs hother c hc hc'
    rcases hmem c hc with rfl | hc
    · exact (hbuffer.others s other hs hother c hc').1 rfl
    · exact hs (h.apart s r other object hother hobject c hc' (Object.mem_blocks.2 (.inr hc)))

/-- A list may get another buffer that holds what the old one held. -/
theorem sound_rebuffered {b : Address} {m : Memory} (h : w.Sound owned)
    (hobject : w.object? r = some object) (hle : 3 ≤ r) (hroutine : object.type.routine = .list)
    (hbuffer : BufferAt w r object capacity b m) (hlength : length ≤ capacity)
    (hunused : ∀ i, length ≤ i → i < capacity → (m.process.payload b).word? (slotSize * i) = none)
    (hcontents : (w.reshaped r (.list length capacity (some b)) m).contents r = w.contents r) :
    (w.reshaped r (.list length capacity (some b)) m).Sound owned :=
  h.reshaped (housed_rebuffered h.housed hobject hle hroutine hbuffer hlength hunused)
    (fun s other hs hother c hc => (hbuffer.others s other hs hother c hc).2) hcontents

/-! ### Making lists -/

/-- The slots in a block that reads as zeros are empty. -/
theorem slots_newBuffer {m : Memory} (hobject : w.object? r = some object)
    (hzero : ∀ i, i < length * slotSize → (m.process.payload a).cell i = .byte 0) :
    (w.reshaped r (.list length length (some a)) m).slots r = List.replicate length none := by
  rw [slots_of_object? (object?_reshaped_self hobject), slotsOf_list rfl]
  refine List.eq_replicate_iff.2 ⟨by rw [List.length_map, List.length_range], fun slot hslot => ?_⟩
  obtain ⟨i, hi, rfl⟩ := List.mem_map.1 hslot
  have hlt : slotSize * i < length * slotSize := by
    rw [Nat.mul_comm]
    exact Nat.mul_lt_mul_of_pos_right (List.mem_range.1 hi) (by decide)
  show (m.process.payload a).word? (slotSize * i) = none
  rw [Payload.word?, hzero _ hlt]
  rfl

/-- The buffer of a new list: a block that was handed out for it and zeroed. -/
theorem sound_newBuffer {m : Memory} (h : w.Sound owned) (hle : 3 ≤ r)
    (hobject : w.object? r = some object) (hbody : object.body = .list 0 0 none)
    (hroutine : object.type.routine = .list) (hmemory : m.Sound)
    (hhands : w.memory.process.Hands (length * slotSize) (some a) m.process)
    (hzero : ∀ i, i < length * slotSize → (m.process.payload a).cell i = .byte 0) :
    (w.reshaped r (.list length length (some a)) m).Sound owned := by
  have hbuffer : BufferAt w r object length a m :=
    bufferAt_of_hands h.housed hobject hmemory (Nat.mul_comm slotSize length).le hhands
  refine sound_rebuffered h hobject hle hroutine hbuffer (Nat.le_refl _) (fun i hi hlt => ?_) ?_
  · exact absurd hlt (Nat.not_lt.2 hi)
  · have hold : w.contents r = [] := by
      rw [contents, slots_of_object? hobject, slotsOf, slotTable, hbody]
      rfl
    rw [hold, contents, slots_newBuffer hobject hzero, List.filterMap_eq_nil_iff]
    intro slot hslot
    rw [List.eq_of_mem_replicate hslot]
    rfl

/-- A new list with empty slots, as many as it has room for; nothing that was
there has changed. -/
structure NewList (w : World) (type : TypeObject) (length : Nat) (r : Ref) (w' : World) : Prop where
  fresh : w.object? r = none
  grows : w.Grows [] w'
  object : ∃ object buffer, w'.object? r = some object ∧ object.type = type ∧
    object.body = .list length length buffer
  slots : w'.slots r = List.replicate length none

/-- A list is made with empty slots, or the attempt is refused and what was
made of it is gone again. -/
theorem newListOf_spec {type : TypeObject} (hroutine : type.routine = .list) (length : Nat)
    (h : w.Sound owned) :
    ∃ result w', (newListOf type length).run w = .ok result w' ∧
      w'.Sound (gained result + owned) ∧ w.Spares w' ∧
      ∀ r, result = .ok r → NewList w type length r w' := by
  have hmakes : Makes type type.basicSize (.list 0 0 none) := by
    refine ⟨by simp [hroutine], fun _ hbody => ?_, fun _ _ _ hbody => ?_⟩
    · cases hbody
    · cases hbody
      exact ⟨hroutine, rfl, rfl, rfl⟩
  obtain ⟨result, w₁, hrun₁, hsound₁, hgrows₁, hmade⟩ := creates_new hmakes w owned h
  cases result with
  | error e =>
    exact ⟨.error e, w₁, Attempt.run_bind_error hrun₁ _, hsound₁, hgrows₁.spares,
      fun _ heq => by cases heq⟩
  | ok r =>
    obtain ⟨hfresh, ⟨home, hobject⟩, -⟩ := hmade r rfl
    rw [gained_ok] at hsound₁
    rw [newListOf, Attempt.run_bind_ok hrun₁]
    by_cases hlength : length = 0
    · refine ⟨.ok r, w₁, ?_, by rw [gained_ok]; exact hsound₁, hgrows₁.spares, ?_⟩
      · rw [if_pos hlength, Attempt.run_pure]
      · rintro r ⟨⟩
        subst hlength
        refine ⟨hfresh, hgrows₁, ⟨_, none, hobject, rfl, rfl⟩, ?_⟩
        rw [slots_of_object? hobject]
        rfl
    · cases hcalloc : w₁.memory.calloc length slotSize with
      | mk found m =>
        obtain ⟨hmemory, hhands, hzero⟩ := Memory.calloc_spec hsound₁.housed.memory hcalloc
        have hfirst : (modifyGet (World.onMemory (·.calloc length slotSize)) : Attempt _).run w₁ =
            .ok (.ok found) (w₁.withMemory m) := run_onMemory hcalloc
        cases found with
        | none =>
          obtain ⟨hsound₂, hgrows₂⟩ := hsound₁.withMemory hmemory fun s other hs =>
            hsound₁.housed.same_of_hands hhands hs
          obtain ⟨ended, w₃, hrun₃, hsound₃, hleaves⟩ := hsound₂.release
          -- without a buffer the list that was made is given up again
          refine ⟨.error (.allocationFailed (min (length * slotSize) Size.greatest)), w₃, ?_,
            hsound₃.refused _, (hgrows₁.trans hgrows₂).spares.then hleaves.remains,
            fun _ heq => by cases heq⟩
          rw [if_neg hlength, Attempt.run_bind_ok hfirst]
          exact Attempt.run_bind_ok (Attempt.run_lift_ok hrun₃) _
        | some buffer =>
          have hle := hsound₁.housed.le_of_list hobject rfl
          have hsound₂ := sound_newBuffer hsound₁ hle hobject rfl hroutine hmemory hhands
            (hzero buffer rfl)
          -- the list was made just now, so it is none of the objects that were there
          have hne : ∀ s other, w.object? s = some other → s ≠ r := by
            rintro s other hs rfl
            rw [hfresh] at hs
            cases hs
          have hgrows : w.Grows [] (w₁.reshaped r (.list length length (some buffer)) m) := by
            refine ⟨fun s other hs => ?_, fun s other hs _ => ?_⟩
            · obtain ⟨count, hs₁⟩ := hgrows₁.stays s other hs
              exact ⟨count, by rw [object?_reshaped, if_neg (Ne.symm (hne s other hs)), hs₁]⟩
            · rw [slots_reshaped_of_ne (hne s other hs) fun found hfound =>
                hsound₁.housed.same_of_hands hhands hfound,
                hgrows₁.slots s other hs List.not_mem_nil]
          refine ⟨.ok r, w₁.reshaped r (.list length length (some buffer)) m, ?_,
            by rw [gained_ok]; exact hsound₂, hgrows.spares, ?_⟩
          · rw [if_neg hlength, Attempt.run_bind_ok hfirst]
            rfl
          · rintro r ⟨⟩
            exact ⟨hfresh, hgrows, ⟨_, some buffer, object?_reshaped_self hobject, rfl, rfl⟩,
              slots_newBuffer hobject (hzero buffer rfl)⟩

/-! ### Growing -/

/-- The storage after the slots of a buffer from `length` on were emptied. -/
def emptied (m : Memory) (b : Address) (length grown : Nat) : Memory :=
  { m with process :=
      m.process.modifyPayload b fun payload =>
        payload.fill (slotSize * length) (slotSize * (grown - length)) 0 }

/-- The new slots of a list that grew are empty, and the others are as they were. -/
theorem word?_emptied {m : Memory} {b : Address} (hlive : m.process.Live b) (length grown i : Nat) :
    ((emptied m b length grown).process.payload b).word? (slotSize * i) =
      if length ≤ i ∧ i < grown then none else (m.process.payload b).word? (slotSize * i) := by
  have hpayload : (emptied m b length grown).process.payload b =
      (m.process.payload b).fill (slotSize * length) (slotSize * (grown - length)) 0 :=
    Process.payload_modifyPayload_self (Process.lt_size_of_live hlive) _
  have hiff : (slotSize * length ≤ slotSize * i ∧
      slotSize * i < slotSize * length + slotSize * (grown - length)) ↔ length ≤ i ∧ i < grown := by
    simp only [slotSize]
    omega
  rw [hpayload, Payload.word?, Payload.cell_fill]
  by_cases hi : length ≤ i ∧ i < grown
  · rw [if_pos hi, if_pos (hiff.2 hi)]
    rfl
  · rw [if_neg hi, if_neg (fun hmem => hi (hiff.1 hmem)), Payload.word?]

/-- The slots of a list stand in a buffer that may be another one. -/
def Copied (w : World) (object : Object) (b : Address) (m : Memory) : Prop :=
  ∀ i, i < (w.slotsOf object).length →
    (w.slotsOf object)[i]? = some ((m.process.payload b).word? (slotSize * i))

/-- A list without a buffer has no slots to copy. -/
theorem copied_of_bare (hbody : object.body = .list length capacity none) (b : Address)
    (m : Memory) : Copied w object b m := by
  have hnone : w.slotsOf object = [] := by
    rw [slotsOf, slotTable, hbody]
    rfl
  intro i hi
  rw [hnone] at hi
  cases hi

/-- The slots in use lie within the old and within the new buffer, so resizing
keeps them. -/
theorem copied_of_moves {grown bytes : Nat} {b : Address} {m : Memory} (h : w.Housed)
    (hobject : w.object? r = some object) (hbody : object.body = .list length capacity (some a))
    (hbytes : slotSize * grown ≤ bytes) (hgrown : length ≤ grown)
    (hmoves : w.memory.process.Moves a bytes (some b) m.process) : Copied w object b m := by
  intro i hi
  rw [slotsOf_list hbody, List.length_map, List.length_range] at hi
  obtain ⟨hle, husable⟩ :=
    (h.housed r object hobject).roomy.within length capacity a hbody
  have hlt : slotSize * i < min (w.memory.process.kind a).usable bytes := by
    have hslot : slotSize * i < slotSize * length := Nat.mul_lt_mul_of_pos_left hi (by decide)
    have hcapacity : slotSize * length ≤ slotSize * capacity := Nat.mul_le_mul_left _ hle
    have hnew : slotSize * length ≤ slotSize * grown := Nat.mul_le_mul_left _ hgrown
    omega
  rw [slotsOf_list hbody, List.getElem?_map, List.getElem?_range hi, Option.map_some,
    Payload.word?, Payload.word?, hmoves.kept b rfl _ hlt]

/-- A list has as many slots as it counts. -/
theorem length_slotsOf_list (h : w.Sound owned) (hobject : w.object? r = some object)
    (hbody : object.body = .list length capacity buffer) : (w.slotsOf object).length = length := by
  cases buffer with
  | none =>
    have hin := h.housed.housed r object hobject
    rw [(hin.roomy.bare length capacity hbody).1, slotsOf, slotTable, hbody]
    rfl
  | some a => rw [slotsOf_list hbody, List.length_map, List.length_range]

/-- A list keeps its slots when it gets another buffer that they were copied
to. -/
theorem slots_regrown {grown : Nat} {b : Address} {m : Memory} (h : w.Sound owned)
    (hobject : w.object? r = some object) (hbody : object.body = .list length capacity buffer)
    (hlive : m.process.Live b) (hcopied : Copied w object b m) :
    (w.reshaped r (.list length grown (some b)) (emptied m b length grown)).slots r =
      w.slots r := by
  have hslots := length_slotsOf_list h hobject hbody
  rw [slots_of_object? hobject, slots_of_object? (object?_reshaped_self hobject), slotsOf_list rfl]
  apply List.ext_getElem?
  intro i
  by_cases hi : i < length
  · rw [hcopied i (by rw [hslots]; exact hi), List.getElem?_map, List.getElem?_range hi,
      Option.map_some]
    refine congrArg some ((word?_emptied hlive length grown i).trans (if_neg ?_))
    omega
  · rw [List.getElem?_eq_none (by simpa using hi),
      List.getElem?_eq_none (by rw [hslots]; exact Nat.not_lt.1 hi)]

/-- A list with another buffer, the new slots of which are empty. -/
theorem sound_regrown {grown : Nat} {b : Address} {m : Memory} (h : w.Sound owned)
    (hobject : w.object? r = some object) (hbody : object.body = .list length capacity buffer)
    (hgrown : length ≤ grown)
    (hbuffer : BufferAt w r object grown b m) (hcopied : Copied w object b m) :
    (w.reshaped r (.list length grown (some b)) (emptied m b length grown)).Sound owned := by
  have hle := h.housed.le_of_list hobject hbody
  have hroutine := (h.housed.fits r object hobject hle).list length capacity buffer hbody
  refine sound_rebuffered h hobject hle hroutine (hbuffer.modifyPayload _) hgrown
    (fun i hi hlt => ?_) ?_
  · exact (word?_emptied hbuffer.live length grown i).trans (if_pos ⟨hi, hlt⟩)
  · exact congrArg (List.filterMap id) (slots_regrown h hobject hbody hbuffer.live hcopied)

/-- A list of another shape, and nothing else that has changed. -/
theorem becomes_reshaped {sequence : Sequence} (length capacity : Nat) (buffer : Option Address)
    (m : Memory) (hview : ContainerKind.list.view w r = .ok sequence)
    (hsame : ∀ s other, s ≠ r → w.object? s = some other → ∀ a ∈ other.blocks,
      m.process.blocks[a]? = w.memory.process.blocks[a]?) :
    Becomes w .list r ⟨(w.reshaped r (.list length capacity buffer) m).slots r, capacity⟩
      (w.reshaped r (.list length capacity buffer) m) := by
  obtain ⟨object, _, _, _, hobject, hsub, -, -⟩ := ContainerKind.view_list_eq_ok.1 hview
  have hobject' : (w.reshaped r (.list length capacity buffer) m).object? r =
      some { object with body := .list length capacity buffer } := object?_reshaped_self hobject
  refine ⟨ContainerKind.view_list_eq_ok.2 ⟨_, _, _, _, hobject', hsub, rfl, rfl⟩,
    ⟨object, _, hobject, hobject'⟩, fun s hs => ⟨?_, ?_⟩⟩
  · rw [object?_reshaped, if_neg (Ne.symm hs)]
  · exact slots_reshaped_of_ne hs fun other => hsame s other hs

/-- A buffer with room for twice as many slots, or for the first few. -/
theorem grownCapacity?_eq_some {grown bytes : Nat}
    (h : grownCapacity? capacity = some (grown, bytes)) :
    (grown = if capacity = 0 then firstCapacity else capacity * 2) ∧ slotSize * grown = bytes := by
  have hlast : ∀ next, ((Size.mul? next slotSize).bind fun total =>
      if Size.addressable < total then none else some (next, total)) = some (grown, bytes) →
      next = grown ∧ slotSize * grown = bytes := by
    intro next hnext
    obtain ⟨total, htotal, hnext⟩ := Option.bind_eq_some_iff.1 hnext
    obtain ⟨-, rfl⟩ := Size.mul?_eq_some.1 htotal
    split at hnext
    · cases hnext
    · cases hnext
      exact ⟨rfl, Nat.mul_comm _ _⟩
  by_cases hzero : capacity = 0
  · simp only [grownCapacity?, Option.bind_eq_bind, if_pos hzero] at h
    obtain ⟨rfl, hbytes⟩ := hlast firstCapacity h
    exact ⟨by rw [if_pos hzero], hbytes⟩
  · simp only [grownCapacity?, Option.bind_eq_bind, if_neg hzero] at h
    obtain ⟨next, hnext, h⟩ := Option.bind_eq_some_iff.1 h
    obtain ⟨-, rfl⟩ := Size.mul?_eq_some.1 hnext
    obtain ⟨rfl, hbytes⟩ := hlast _ h
    exact ⟨by rw [if_neg hzero], hbytes⟩

/-- The capacity of a list that grows gets larger. -/
theorem lt_grownCapacity (capacity : Nat) :
    capacity < if capacity = 0 then firstCapacity else capacity * 2 := by
  split
  · next hzero => rw [hzero]; decide
  · omega

/-- A list grows by resizing its buffer and emptying the new slots; the system may refuse. -/
theorem run_growList (w : World) (r : Ref) (length : Nat) {grown bytes : Nat}
    (hgrown : grownCapacity? capacity = some (grown, bytes))
    {moved : Option Address} {m : Memory}
    (hrealloc : Memory.realloc buffer bytes w.memory = .ok moved m) :
    (growList r length capacity buffer).run w =
      match moved with
      | none => .ok (.error (.allocationFailed bytes)) (w.withMemory m)
      | some b =>
        .ok (.ok ()) ((w.reshaped r (.list length grown (some b))
          (emptied m b length grown)).report (.bufferGrown capacity grown)) := by
  have hfirst : (monadLift (Host.runMemory (Memory.realloc buffer bytes)) : Attempt _).run w =
      .ok (.ok moved) (w.withMemory m) := by
    refine Attempt.run_lift_ok ?_
    simp only [Host.runMemory, hrealloc]
    rfl
  simp only [growList, hgrown]
  refine (Attempt.run_bind_ok hfirst _).trans ?_
  cases moved with
  | none => rfl
  | some b => rfl

/-- What resizing gives to a full list: nothing, and then the blocks of all
objects are what they were, or a buffer with room for more. -/
theorem realloc_cases {bytes grown : Nat} (h : w.Housed) (hobject : w.object? r = some object)
    (hbody : object.body = .list length capacity buffer) (hbytes : slotSize * grown = bytes)
    (hgrown : length ≤ grown) :
    ∃ moved m, Memory.realloc buffer bytes w.memory = .ok moved m ∧ m.Sound ∧
      (moved = none → ∀ s other, w.object? s = some other → ∀ c ∈ other.blocks,
        m.process.blocks[c]? = w.memory.process.blocks[c]?) ∧
      ∀ b, moved = some b → BufferAt w r object grown b m ∧ Copied w object b m := by
  cases buffer with
  | none =>
    obtain ⟨made, m, hrun, hmemory, hhands⟩ := Memory.realloc_none_spec h.memory bytes
    refine ⟨made, m, hrun, hmemory, fun _ s other hs => h.same_of_hands hhands hs, ?_⟩
    rintro b rfl
    exact ⟨bufferAt_of_hands h hobject hmemory hbytes.le hhands, copied_of_bare hbody b m⟩
  | some a =>
    have ha : w.memory.process.Live a := (h.housed r object hobject).live a
      (Object.mem_blocks.2 (.inl (Object.buffer_eq_some.2 ⟨_, _, hbody⟩)))
    obtain ⟨moved, m, hrun, hmemory, hmoves⟩ := Memory.realloc_spec h.memory ha bytes
    refine ⟨moved, m, hrun, hmemory, ?_, ?_⟩
    · rintro rfl s other hs c hc
      by_cases hca : c = a
      · rw [hca]
        exact hmoves.unmoved rfl
      · exact hmoves.others c hca nofun
    · rintro b rfl
      exact ⟨bufferAt_of_moves h hobject hbody hmemory hbytes.le hmoves,
        copied_of_moves h hobject hbody hbytes.le hgrown hmoves⟩

/-- A full list grows, or it stays as it was. -/
theorem growList_spec (h : w.Sound owned)
    (hlist : listObject w r = .ok (object, length, capacity, buffer)) (hfull : length = capacity) :
    ∃ result w', (growList r length capacity buffer).run w = .ok result w' ∧ w'.Sound owned ∧
      (∀ e, result = .error e → w.Unchanged w' ∧ ∃ bytes, e = .allocationFailed bytes) ∧
      ∀ u, result = .ok u → ∃ object' grown b,
        listObject w' r = .ok (object', length, grown, some b) ∧ length < grown ∧
        (grown = if capacity = 0 then firstCapacity else capacity * 2) ∧
        Becomes w .list r ⟨w.slots r, grown⟩ w' := by
  obtain ⟨hobject, hsub, hbody⟩ := listObject_eq_ok.1 hlist
  cases hgrown : grownCapacity? capacity with
  | none =>
    refine ⟨.error (.allocationFailed Size.greatest), w, ?_, h, fun e heq => ?_, nofun⟩
    · simp only [growList, hgrown]
      rfl
    · cases heq
      exact ⟨.refl w, _, rfl⟩
  | some next =>
    obtain ⟨grown, bytes⟩ := next
    obtain ⟨hnext, hbytes⟩ := grownCapacity?_eq_some hgrown
    have hlt : length < grown := by
      rw [hnext, hfull]
      exact lt_grownCapacity capacity
    -- a full list asks for more slots than it has items, so the buffer may move with all of
    -- them
    obtain ⟨moved, m, hrealloc, hmemory, hnone, hsome⟩ :=
      realloc_cases h.housed hobject hbody hbytes hlt.le
    have hrun := run_growList w r length hgrown hrealloc
    cases moved with
    | none =>
      refine ⟨.error (.allocationFailed bytes), _, hrun, ?_, fun e heq => ?_, nofun⟩
      · exact (h.withMemory hmemory (hnone rfl)).1
      · cases heq
        exact ⟨unchanged_withMemory (hnone rfl), bytes, rfl⟩
    | some b =>
      obtain ⟨hbuffer, hcopied⟩ := hsome b rfl
      refine ⟨.ok (), _, hrun, ?_, nofun, fun _ _ =>
        ⟨{ object with body := .list length grown (some b) }, grown, b, ?_, hlt, hnext, ?_⟩⟩
      · exact (sound_regrown h hobject hbody hlt.le hbuffer hcopied).report _
      · exact listObject_eq_ok.2 ⟨object?_reshaped_self hobject, hsub, rfl⟩
      · have hview : ContainerKind.list.view w r = .ok ⟨w.slots r, capacity⟩ :=
          ContainerKind.view_list_eq_ok.2
            ⟨object, length, capacity, buffer, hobject, hsub, hbody, rfl⟩
        have hsame : ∀ s other, s ≠ r → w.object? s = some other → ∀ c ∈ other.blocks,
            (emptied m b length grown).process.blocks[c]? = w.memory.process.blocks[c]? :=
          fun s other hs hother c hc => ((hbuffer.modifyPayload _).others s other hs hother c hc).2
        have hbecomes :=
          becomes_reshaped length grown (some b) (emptied m b length grown) hview hsame
        rw [slots_regrown h hobject hbody hbuffer.live hcopied] at hbecomes
        exact hbecomes.unchanged (unchanged_report _ _)

/-! ### Items -/

/-- A list that an item can be put into has a buffer. -/
theorem exists_buffer (h : w.Housed)
    (hlist : listObject w r = .ok (object, length, capacity, buffer)) :
    length ≤ capacity ∧ (capacity ≠ 0 → ∃ a, buffer = some a) := by
  obtain ⟨hobject, -, hbody⟩ := listObject_eq_ok.1 hlist
  have hroomy := (h.housed r object hobject).roomy
  cases buffer with
  | none =>
    obtain ⟨hlength, hcapacity⟩ := hroomy.bare length capacity hbody
    exact ⟨by rw [hlength]; exact Nat.zero_le _, fun hne => absurd hcapacity hne⟩
  | some a => exact ⟨(hroomy.within length capacity a hbody).1, fun _ => ⟨a, rfl⟩⟩

/-- The length that a list keeps is the number of its slots. -/
theorem length_of_list (h : w.Sound owned)
    (hlist : listObject w r = .ok (object, length, capacity, buffer)) :
    (w.slots r).length = length ∧ ContainerKind.list.view w r = .ok ⟨w.slots r, capacity⟩ := by
  obtain ⟨hobject, hsub, hbody⟩ := listObject_eq_ok.1 hlist
  refine ⟨?_, ContainerKind.view_list_eq_ok.2
    ⟨object, length, capacity, buffer, hobject, hsub, hbody, rfl⟩⟩
  rw [slots_of_object? hobject]
  exact length_slotsOf_list h hobject hbody

/-- What cannot be read as a list shows no sequence. -/
theorem view_of_list_error {e : ApiError} (hlist : listObject w r = .error e) :
    ContainerKind.list.view w r = .error e := by
  show (listObject w r).map _ = _
  rw [hlist]
  rfl

/-- A setter of a list uses up the item whatever happens. -/
theorem setListItem_spec (h : w.Sound (item ::ₘ owned)) (r : Ref) (index : Nat) :
    ∃ result w', (setListItem r index item).run w = .ok result w' ∧ w'.Sound owned ∧
      Effect w .list (some r) (.setItem index (Size.signed index) (some item))
        (result.map fun _ => .done) w' := by
  cases hlist : listObject w r with
  | error e =>
    have hread : (Attempt.read (listObject · r)).run w = .ok (.error e) w := by
      rw [Attempt.run_read, hlist]
    obtain ⟨w', hrun, hsound, hreleased, -⟩ := consuming_refused h hread
    exact ⟨.error e, w', Attempt.run_bind_error hrun _, hsound,
      .noContainer nofun (view_of_list_error hlist) hreleased⟩
  | ok found =>
    obtain ⟨object, length, capacity, buffer⟩ := found
    obtain ⟨hobject, -, hbody⟩ := listObject_eq_ok.1 hlist
    obtain ⟨hlength, hview⟩ := length_of_list h hlist
    have hread : (Attempt.consuming item (Attempt.read (listObject · r))).run w =
        .ok (.ok (object, length, capacity, buffer)) w :=
      Attempt.run_consuming_ok (by rw [Attempt.run_read, hlist])
    rw [setListItem, Attempt.run_bind_ok hread]
    by_cases hindex : index < length
    -- an index below the length is one into the buffer, so there is a buffer
    · obtain ⟨hle, hbuffer⟩ := exists_buffer h.housed hlist
      obtain ⟨a, rfl⟩ := hbuffer (by omega)
      obtain ⟨w', hrun, hfilled⟩ := fillSlot_spec h hobject (slotsAt_list hbody) hindex
      rw [Nat.zero_add] at hrun
      refine ⟨.ok (), w', ?_, hfilled.sound, hfilled.effect hview (hlength ▸ hindex)⟩
      simp only [if_pos hindex]
      exact Attempt.run_lift_ok hrun
    · obtain ⟨w', hrun, hsound, hreleased, -⟩ :=
        consuming_refused h (Attempt.run_throw (α := Unit) (outOfRange index length) w)
      have houtside : ¬ (0 ≤ (index : Int) ∧ (index : Int) < ((w.slots r).length : Int)) := by
        omega
      have heffect := effect_setOutside index (Size.signed index) hview houtside hreleased
      simp only [hlength] at heffect
      refine ⟨.error (outOfRange index length), w', ?_, hsound, heffect⟩
      simp only [if_neg hindex]
      exact hrun

/-- What looking for room for an item comes to: there is no list, there is no
room and no storage for more, or the list has room now. -/
inductive MadeRoom (w : World) (r : Ref) :
    Except ApiError (Object × Nat × Nat × Option Address) → World → Prop
  | noList {e : ApiError} (hview : ContainerKind.list.view w r = .error e) :
      MadeRoom w r (.error e) w
  | full {sequence : Sequence} {bytes : Nat} {w' : World}
      (hview : ContainerKind.list.view w r = .ok sequence)
      (hfull : sequence.slots.length = sequence.capacity) (h : w.Unchanged w') :
      MadeRoom w r (.error (.allocationFailed bytes)) w'
  | room {sequence : Sequence} {object : Object} {length capacity : Nat}
      {buffer : Option Address} {w' : World}
      (hview : ContainerKind.list.view w r = .ok sequence)
      (hlist : listObject w' r = .ok (object, length, capacity, buffer)) (hlt : length < capacity)
      (hbecomes : Becomes w .list r ⟨sequence.slots, sequence.roomier⟩ w') :
      MadeRoom w r (.ok (object, length, capacity, buffer)) w'

/-- A list with room for an item, or the reason why it has none. -/
theorem grownFor_spec (h : w.Sound owned) (r : Ref) :
    ∃ result w', (do
        let (_, length, capacity, buffer) ← Attempt.read (listObject · r)
        if length = capacity then growList r length capacity buffer
        Attempt.read (listObject · r) : Attempt _).run w = .ok result w' ∧ w'.Sound owned ∧
      MadeRoom w r result w' := by
  cases hlist : listObject w r with
  | error e =>
    have hread : (Attempt.read (listObject · r)).run w = .ok (.error e) w := by
      rw [Attempt.run_read, hlist]
    exact ⟨.error e, w, Attempt.run_bind_error hread _, h,
      .noList (view_of_list_error hlist)⟩
  | ok found =>
    obtain ⟨object, length, capacity, buffer⟩ := found
    obtain ⟨hlength, hview⟩ := length_of_list h hlist
    have hread : (Attempt.read (listObject · r)).run w =
        .ok (.ok (object, length, capacity, buffer)) w := by rw [Attempt.run_read, hlist]
    rw [Attempt.run_bind_ok hread]
    -- the list is read again after it has grown, since the buffer may be another one
    by_cases hfull : length = capacity
    · obtain ⟨result, w', hrun, hsound, hfailed, hgrown⟩ := growList_spec h hlist hfull
      simp only [if_pos hfull]
      cases result with
      | error e =>
        obtain ⟨hsame, bytes, rfl⟩ := hfailed e rfl
        exact ⟨_, w', Attempt.run_bind_error hrun _, hsound,
          .full hview (hlength.trans hfull) hsame⟩
      | ok u =>
        obtain ⟨object', grown, b, hlist', hlt, hnext, hbecomes⟩ := hgrown u rfl
        refine ⟨.ok (object', length, grown, some b), w', ?_, hsound, .room hview hlist' hlt ?_⟩
        · rw [Attempt.run_bind_ok hrun, Attempt.run_read, hlist']
        · rw [Sequence.roomier, if_neg (by rw [hlength, hfull]; exact Nat.lt_irrefl _), ← hnext]
          exact hbecomes
    · simp only [if_neg hfull]
      have hlt : length < capacity := Nat.lt_of_le_of_ne (exists_buffer h.housed hlist).1 hfull
      refine ⟨.ok (object, length, capacity, buffer), w, hread, h, .room hview hlist hlt ?_⟩
      rw [Sequence.roomier, if_pos (by rw [hlength]; exact hlt)]
      exact becomes_of_unchanged hview (.refl w)

/-- A list that counts one more of its slots as being in use has an empty slot
at the end. -/
theorem slots_lengthened (h : w.Sound owned) (hobject : w.object? r = some object)
    (hbody : object.body = .list length capacity (some a)) (hlt : length < capacity) :
    (w.reshaped r (.list (length + 1) capacity (some a)) w.memory).slots r =
      w.slots r ++ [none] := by
  have hroomy := (h.housed.housed r object hobject).roomy
  have hempty : (w.memory.process.payload a).word? (slotSize * length) = none :=
    hroomy.unused length capacity a hbody length (Nat.le_refl _) hlt
  rw [slots_of_object? hobject, slots_of_object? (object?_reshaped_self hobject), slotsOf_list rfl,
    slotsOf_list hbody, List.range_succ, List.map_append]
  show _ ++ [(w.memory.process.payload a).word? (slotSize * length)] = _
  rw [hempty]
  rfl

/-- A list that counts one more slot is still housed, since the slot lies in the buffer. -/
theorem housed_lengthened (h : w.Housed) (hobject : w.object? r = some object)
    (hbody : object.body = .list length capacity (some a)) (hlt : length < capacity) :
    (w.reshaped r (.list (length + 1) capacity (some a)) w.memory).Housed := by
  have hin := h.housed r object hobject
  have hle := h.le_of_list hobject hbody
  have hfits := h.fits r object hobject hle
  -- the slot that is counted now is one that was unused, and the blocks are the same
  have hblocks :
      Object.blocks { object with body := .list (length + 1) capacity (some a) } =
        object.blocks := by
    rw [Object.blocks, Object.blocks, Object.buffer, Object.buffer, hbody]
  refine h.reshaped hobject hle h.memory (fun _ _ _ _ _ _ => rfl)
    ⟨hfits.home, hfits.mayGo, fun _ hc => (by cases hc),
      fun _ _ _ _ => hfits.list length capacity (some a) hbody⟩
    ⟨?_, ?_, ⟨fun _ _ hc => (by cases hc), fun l n c hc => ?_, fun l n c hc i hl hn => ?_⟩⟩
    (fun s other hs hother c hc hmem => ?_)
  · rw [hblocks]
    exact hin.live
  · rw [hblocks]
    exact hin.nodup
  · cases hc
    exact ⟨hlt, (hin.roomy.within length capacity a hbody).2⟩
  · cases hc
    exact hin.roomy.unused length capacity a hbody i (Nat.le_of_succ_le hl) hn
  · rw [hblocks] at hc
    exact hs (h.apart s r other object hother hobject c hmem hc)

/-- A list may count one more of its empty slots as being in use. -/
theorem sound_lengthened (h : w.Sound owned) (hobject : w.object? r = some object)
    (hbody : object.body = .list length capacity (some a)) (hlt : length < capacity) :
    (w.reshaped r (.list (length + 1) capacity (some a)) w.memory).Sound owned := by
  refine h.reshaped (housed_lengthened h.housed hobject hbody hlt) (fun _ _ _ _ _ _ => rfl) ?_
  rw [contents, contents, slots_lengthened h hobject hbody hlt, List.filterMap_append]
  exact List.append_nil _

/-- An item is added to a list, or it is released. -/
theorem appendItem_spec (h : w.Sound (item ::ₘ owned)) (r : Ref) :
    ∃ result w', (appendItem r item).run w = .ok result w' ∧ w'.Sound owned ∧
      Effect w .list (some r) (.append (some item)) (result.map fun _ => .done) w' := by
  obtain ⟨result, w₁, hrun₁, hsound₁, hroom⟩ := grownFor_spec h r
  cases hroom with
  | noList hview =>
    obtain ⟨w₂, hrefused, hsound₂, hreleased, -⟩ := consuming_refused hsound₁ hrun₁
    exact ⟨_, w₂, Attempt.run_bind_error hrefused _, hsound₂, .noContainer nofun hview hreleased⟩
  | full hview hfull hsame =>
    obtain ⟨w₂, hrefused, hsound₂, hreleased, -⟩ := consuming_refused hsound₁ hrun₁
    refine ⟨_, w₂, Attempt.run_bind_error hrefused _, hsound₂, ?_⟩
    exact .step rfl hview (.noRoom hfull) (becomes_of_unchanged hview hsame) hreleased
  | @room sequence object length capacity buffer _ hview hlist hlt hbecomes =>
    obtain ⟨hobject, -, hbody⟩ := listObject_eq_ok.1 hlist
    obtain ⟨hlength, hview₁⟩ := length_of_list hsound₁ hlist
    obtain ⟨a, rfl⟩ := (exists_buffer hsound₁.housed hlist).2 (by omega)
    -- the list has one more slot, an empty one, before the item is put into it
    have hsound₂ := sound_lengthened hsound₁ hobject hbody hlt
    have hslots₂ := slots_lengthened hsound₁ hobject hbody hlt
    have hbecomes₂ := becomes_reshaped (length + 1) capacity (some a) w₁.memory hview₁
      fun _ _ _ _ _ _ => rfl
    obtain ⟨w₃, hrun₃, hfilled⟩ := fillSlot_spec hsound₂ (object?_reshaped_self hobject)
      (slotsAt_list rfl) length.lt_succ_self
    rw [Nat.zero_add] at hrun₃
    refine ⟨.ok (), w₃, ?_, hfilled.sound, ?_⟩
    · exact (Attempt.run_bind_ok (Attempt.run_consuming_ok hrun₁) _).trans
        (Attempt.run_lift_ok hrun₃)
    · obtain ⟨w₄, hobject₄, hslots₄, hothers₄, hreleased⟩ := hfilled.put
      have hsequence := Except.ok.inj (hview₁.symm.trans hbecomes.view)
      have hslots₁ : w₁.slots r = sequence.slots := congrArg Sequence.slots hsequence
      have hcapacity : capacity = sequence.roomier := congrArg Sequence.capacity hsequence
      have hnext : w₄.slots r = sequence.slots ++ [some item] := by
        rw [hslots₄, hslots₂, ← hlength, List.set_append_right _ _ (Nat.le_refl _), Nat.sub_self,
          List.set_cons_zero, hslots₁]
      have hold : ((w₁.reshaped r (.list (length + 1) capacity (some a)) w₁.memory).slots
          r)[length]?.join = none := by
        rw [hslots₂, ← hlength, List.getElem?_concat_length]
        rfl
      have hbecomes₄ := (hbecomes.trans hbecomes₂).trans
        (becomes_of_slots hbecomes₂.view hobject₄ hothers₄)
      rw [hnext, hcapacity] at hbecomes₄
      rw [hold] at hreleased
      exact .step rfl hview .append hbecomes₄ hreleased

/-! ### What the caller gives and gets -/

/-- A new list is one reference to the caller. -/
theorem accounts_newListOf {type : TypeObject} (hroutine : type.routine = .list) (length : Nat) :
    Accounts [] 0 (newListOf type length).run gained := by
  intro w kept hsound _
  rw [zero_add] at hsound
  obtain ⟨result, w', hrun, hsound', -⟩ := newListOf_spec hroutine length hsound
  exact ⟨result, w', hrun, hsound'⟩

/-- Setting an item of a list takes the reference over. -/
theorem accounts_setListItem (r : Ref) (index : Nat) (item : Ref) :
    Accounts [] {item} (setListItem r index item).run fun _ => 0 := by
  intro w kept hsound _
  rw [Multiset.singleton_add] at hsound
  obtain ⟨result, w', hrun, hsound', -⟩ := setListItem_spec hsound r index
  exact ⟨result, w', hrun, by rw [zero_add]; exact hsound'⟩

/-- Appending an item takes the reference over. -/
theorem accounts_appendItem (r item : Ref) :
    Accounts [] {item} (appendItem r item).run fun _ => 0 := by
  intro w kept hsound _
  rw [Multiset.singleton_add] at hsound
  obtain ⟨result, w', hrun, hsound', -⟩ := appendItem_spec hsound r
  exact ⟨result, w', hrun, by rw [zero_add]; exact hsound'⟩

end Box

end ExtensionHost
