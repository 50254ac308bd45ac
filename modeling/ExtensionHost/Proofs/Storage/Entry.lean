import ExtensionHost.Proofs.Storage.Calls

/-!
# `ExtensionHost.Proofs.Storage.Entry`: what a thread sees of its storage

As long as the lists of the thread's allocator are in order (`Memory.Sound`),
every entry point does what a caller of storage relies on: asking for zeroed
bytes hands out a block that was not in use (`calloc_spec`), resizing a block
in use moves it or leaves it (`realloc_spec`), and freeing one frees no other
(`free_spec`). None of the three stops the process, and each keeps the lists
in order.

It makes no difference to a caller whether the allocator is lent out. What
each entry point can do is known from `Calls`, and here only its effect is
read off. The raw family has the same effects.
-/

set_option autoImplicit false

namespace ExtensionHost

/-- A block that is zeroed when it is handed out reads as zeros. -/
theorem Process.Hands.zeroed {p p' : Process} {a : Address} {size : Nat}
    (h : p.Hands size (some a) p') : ∀ b, some a = some b → ∀ i, i < size →
      ((p'.modifyPayload a (·.zero size)).payload b).cell i = .byte 0 := by
  rintro _ ⟨⟩ i hi
  rw [payload_modifyPayload_self (lt_size_of_live (h.live a rfl)), Payload.zero, Payload.cell_fill,
    if_pos (by omega)]

namespace Memory

variable {m m' : Memory} {a : Address} {count size : Nat} {made : Option Address}

/-- A new memory is sound. -/
theorem sound_new (system : System) (installed : AllocatorSettings) :
    (new system installed).Sound :=
  Allocator.listed_new installed _

/-- A report leaves a memory sound. -/
theorem Sound.report (h : m.Sound) (event : Event) : (m.report event).Sound :=
  h.of_kind fun _ _ _ => rfl

/-- Writing to a block leaves a memory sound. -/
theorem Sound.modifyPayload (h : m.Sound) (a : Address) (f : Payload → Payload) :
    Sound { m with process := m.process.modifyPayload a f } :=
  h.of_kind fun _ _ _ => Process.kind_modifyPayload _ _ _ _

/-! ### Requests -/

/-- Serving a request keeps a memory sound and hands a block out, or nothing. -/
theorem serve_spec (h : m.Sound) (hserve : m.serve size = (made, m')) :
    m'.Sound ∧ m.process.Hands size made m'.process :=
  ⟨(effect_serve hserve).sound h, (effect_serve hserve).hands h⟩

/-- A block that is asked for with zeroed bytes was not in use, and reads as
zeros. -/
theorem calloc_spec (h : m.Sound) (hcalloc : m.calloc count size = (made, m')) :
    m'.Sound ∧ m.process.Hands (count * size) made m'.process ∧
      ∀ a, made = some a → ∀ i, i < count * size → (m'.process.payload a).cell i = .byte 0 := by
  rw [calloc] at hcalloc
  cases htotal : Size.mul? count size with
  | none =>
    rw [htotal] at hcalloc
    cases hcalloc
    exact ⟨h, (Process.SameBut.refl _).hands _, fun _ hmade => by cases hmade⟩
  | some total =>
    obtain ⟨-, rfl⟩ := Size.mul?_eq_some.1 htotal
    rw [htotal] at hcalloc
    simp only [serveZeroed] at hcalloc
    cases hserve : m.serve (count * size) with
    | mk found m₁ =>
      obtain ⟨hsound, hhands⟩ := serve_spec h hserve
      rw [hserve] at hcalloc
      cases found with
      | none =>
        cases hcalloc
        exact ⟨hsound, hhands, fun _ hmade => by cases hmade⟩
      | some a =>
        cases hcalloc
        exact ⟨(hsound.modifyPayload a _).report _, hhands.zero.report _, hhands.zeroed⟩

/-- A request for bytes keeps a memory sound and hands a block out, or nothing. -/
theorem malloc_spec (h : m.Sound) (hmalloc : m.malloc size = (made, m')) :
    m'.Sound ∧ m.process.Hands size made m'.process := by
  rw [malloc] at hmalloc
  cases hserve : m.serve size with
  | mk found m₁ =>
    obtain ⟨hsound, hhands⟩ := serve_spec h hserve
    rw [hserve] at hmalloc
    cases found with
    | none =>
      cases hmalloc
      exact ⟨hsound, hhands⟩
    | some a =>
      cases hmalloc
      exact ⟨hsound.report _, hhands.report _⟩

/-! ### Resizes -/

/-- A block in use can be resized. -/
theorem realloc_spec (h : m.Sound) (ha : m.process.Live a) (size : Nat) :
    ∃ moved m', realloc (some a) size m = .ok moved m' ∧ m'.Sound ∧
      m.process.Moves a size moved m'.process := by
  obtain ⟨moved, m', hrun, heffect⟩ := effect_realloc h ha size
  refine ⟨moved, m', hrun, heffect.sound h, ?_⟩
  cases moved with
  | none =>
    have hhands := heffect.hands h
    exact ⟨fun c _ _ => hhands.others c nofun, fun _ => hhands.others a nofun, nofun, nofun, nofun,
      nofun, nofun⟩
  | some b => exact heffect.moves ha h

/-- Without a block to resize a new one is handed out. -/
theorem realloc_none_spec (h : m.Sound) (size : Nat) :
    ∃ made m', realloc none size m = .ok made m' ∧ m'.Sound ∧
      m.process.Hands size made m'.process := by
  cases hmalloc : m.malloc size with
  | mk made m' =>
    refine ⟨made, m', ?_, malloc_spec h hmalloc⟩
    simp only [realloc, hmalloc]

/-! ### Releases -/

/-- A block in use can be freed, which is reported. -/
theorem free_spec (h : m.Sound) (ha : m.process.Live a) :
    ∃ m', free a m = .ok () m' ∧ m'.Sound ∧ m.process.Frees a m'.process ∧
      m'.process.events = m.process.events.push .blockFreed := by
  obtain ⟨m₁, hrun, heffect, hevents⟩ := effect_free ha
  have hfrees := heffect.frees
  refine ⟨m₁.report .blockFreed, hrun, (heffect.sound h).report _,
    ⟨hfrees.others, hfrees.ended⟩, ?_⟩
  show m₁.process.events.push .blockFreed = _
  rw [hevents]

/-! ### Raw calls

They are about large blocks, and leave small ones to the other family. -/

/-- A block that the system makes with zeroed bytes. -/
theorem rawCalloc_spec {count : Nat} (hrun : m.rawCalloc count size = (made, m')) :
    m.process.Hands (count * size) made m'.process ∧
      ∀ a, made = some a → ∀ i, i < count * size → (m'.process.payload a).cell i = .byte 0 := by
  rw [rawCalloc] at hrun
  cases htotal : Size.mul? count size with
  | none =>
    rw [htotal] at hrun
    cases hrun
    exact ⟨(Process.SameBut.refl _).hands _, fun _ hmade => by cases hmade⟩
  | some total =>
    obtain ⟨-, rfl⟩ := Size.mul?_eq_some.1 htotal
    rw [htotal] at hrun
    cases hmade : m.process.heapAlloc (count * size) with
    | mk found p =>
      have hhands := Process.hands_heapAlloc hmade
      simp only [onProcess, hmade] at hrun
      cases found with
      | none =>
        cases hrun
        exact ⟨hhands, fun _ hmade => by cases hmade⟩
      | some a =>
        cases hrun
        exact ⟨hhands.zero, hhands.zeroed⟩

/-- A raw resize of a block in use is answered, and the block keeps what both sizes reach. -/
theorem rawRealloc_spec (h : m.Sound) (ha : m.process.Live a) (size : Nat) :
    ∃ moved m', rawRealloc (some a) size m = .ok moved m' ∧
      m.process.Moves a size moved m'.process := by
  rcases Process.live_cases ha with ⟨cls, hkind⟩ | ⟨old, hkind⟩
  · obtain ⟨moved, m', hrun, -, hmoves⟩ := realloc_spec h ha size
    exact ⟨moved, m', by simp only [rawRealloc, hkind, hrun], hmoves⟩
  · cases hmoved : m.process.heapRealloc a old size with
    | mk moved p =>
      exact ⟨moved, { m with process := p }, by simp only [rawRealloc, hkind, onProcess, hmoved],
        Process.moves_heapRealloc hmoved hkind⟩

/-- A raw release of a block in use is answered and frees that block. -/
theorem rawFree_spec (h : m.Sound) (ha : m.process.Live a) :
    ∃ m', rawFree a m = .ok () m' ∧ m.process.Frees a m'.process := by
  rcases Process.live_cases ha with ⟨cls, hkind⟩ | ⟨old, hkind⟩
  · obtain ⟨m', hrun, -, hfrees, -⟩ := free_spec h ha
    exact ⟨m', by simp only [rawFree, hkind, hrun], hfrees⟩
  · exact ⟨{ m with process := m.process.heapFree a old }, by simp only [rawFree, hkind],
      Process.frees_heapFree (Process.lt_size_of_live ha) old⟩

end Memory

end ExtensionHost
