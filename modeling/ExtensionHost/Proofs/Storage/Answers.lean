import ExtensionHost.Proofs.Storage.Entry
import ExtensionHost.Proofs.Storage.Departures
import ExtensionHost.Proofs.Storage.Tally

/-!
# `ExtensionHost.Proofs.Storage.Answers`: one answer of the storage of a thread

Objects get their storage by three calls: zeroed bytes are asked for, a block is
resized, a block is freed. `Memory.Answers` is what all three have in common
when the thread's allocator is at hand. At most one block ends and at most one
comes into use, every other block stays exactly as it was, and what holds of
the whole storage goes on holding (`Memory.Orderly`): the free lists are in
order, the counters are right, and no block is too large. Nothing is reported
to have gone.

A call that is refused is the case in which no block ends and none comes into
use, so failures need no rule of their own.
-/

set_option autoImplicit false

namespace ExtensionHost

namespace Memory

/-- What holds of the storage as a whole goes on holding. -/
structure Orderly (m m' : Memory) : Prop where
  lent : m.lent = false → m'.lent = false
  sound : m.Sound → m'.Sound
  tallied : m.storage.Tallied → m'.storage.Tallied
  bounded : m.process.Bounded → m'.process.Bounded

/-- A call about the block `ended` was answered with the block `made`, which has
room for `size` bytes. -/
structure Answers (m : Memory) (size : Nat) (ended made : Option Address) (m' : Memory) : Prop
    extends m.Orderly m' where
  departures : m'.process.departures = m.process.departures
  others : ∀ c, ended ≠ some c → made ≠ some c → m'.process.blocks[c]? = m.process.blocks[c]?
  fresh : ∀ c, made = some c → ended ≠ some c → ¬ m.process.Live c
  gone : ∀ c, ended = some c → made ≠ some c → ¬ m'.process.Live c
  live : ∀ c, made = some c → m'.process.Live c
  room : ∀ c, made = some c → size ≤ (m'.process.kind c).usable
  /-- Nobody wrote behind the bytes that were asked for, of which a block that is
  resized keeps one at least. -/
  unwritten : ∀ c, made = some c →
    m.process.Unwritten m'.process c (if ended = none then size else max size 1)

variable {m m₁ m' m'' : Memory} {a c : Address} {count size : Nat}
  {ended made moved : Option Address}

/-- Doing nothing is orderly. -/
theorem Orderly.refl (m : Memory) : m.Orderly m := ⟨id, id, id, id⟩

/-- What is orderly goes on being so. -/
theorem Orderly.trans (h : m.Orderly m') (h' : m'.Orderly m'') : m.Orderly m'' :=
  ⟨h'.lent ∘ h.lent, h'.sound ∘ h.sound, h'.tallied ∘ h.tallied, h'.bounded ∘ h.bounded⟩

/-- What is reported does not matter. -/
theorem orderly_report (m : Memory) (event : Event) : m.Orderly (m.report event) where
  lent := id
  sound h := h.report event
  tallied h := h.alike ⟨rfl, (Process.Alike.refl _).report event⟩
  bounded := id

/-- What is written does not matter. -/
theorem orderly_modifyPayload (m : Memory) (a : Address) (f : Payload → Payload) :
    m.Orderly { m with process := m.process.modifyPayload a f } where
  lent := id
  sound h := h.modifyPayload a f
  tallied h := h.alike ⟨rfl, (Process.Alike.refl _).modifyPayload a f⟩
  bounded := (Process.sameDepartures_modifyPayload _ a f).bounded

/-- A block in use that does not end stays as it is. -/
theorem Answers.kept (h : m.Answers size ended made m') (hc : m.process.Live c)
    (hended : ended ≠ some c) :
    made ≠ some c ∧ m'.process.blocks[c]? = m.process.blocks[c]? := by
  have hmade : made ≠ some c := fun heq => h.fresh c heq hended hc
  exact ⟨hmade, h.others c hended hmade⟩

/-- The blocks in use afterwards. -/
theorem Answers.live_iff (h : m.Answers size ended made m') :
    m'.process.Live c ↔ made = some c ∨ ended ≠ some c ∧ m.process.Live c := by
  by_cases hmade : made = some c
  · simp only [hmade, true_or, iff_true]
    exact h.live c hmade
  · by_cases hended : ended = some c
    · simp only [hmade, hended, ne_eq, not_true_eq_false, false_and, or_self, iff_false]
      exact h.gone c hended hmade
    · simp only [hmade, hended, ne_eq, not_false_eq_true, true_and, false_or]
      exact Process.live_congr (h.others c hended hmade)

/-- No block that is handed out has more bytes than a region can have. -/
theorem Answers.size_le (h : m.Answers size ended (some a) m') (hbounded : m.process.Bounded) :
    size ≤ Size.addressable :=
  (h.room a rfl).trans (h.bounded hbounded a)

/-- The counters do not see what is written and reported besides. -/
theorem RequestEffect.tallied {through : Bool} (h : m.RequestEffect size ended made through m₁)
    (halike : m₁.Alike m') (hthrough : through = true ∨ made = none ∧ ended = none)
    (hsound : m.Sound) (htallied : m.storage.Tallied) : m'.storage.Tallied := by
  have hlast : m₁.storage.Alike m'.storage := by
    refine ⟨?_, halike.process⟩
    show m'.allocator.getD _ = m₁.allocator.getD _
    rw [halike.allocator, halike.installed]
  refine Storage.Tallied.alike ?_ hlast
  cases h with
  | pooled heffect => exact heffect.tallied hsound htallied
  | @unpooled p heffect =>
    obtain ⟨rfl, rfl⟩ := hthrough.resolve_left Bool.false_ne_true
    cases heffect with
    | made hmade =>
      rcases Process.heapAlloc_cases hmade with ⟨-, hsame⟩ | ⟨hmade, -⟩
      · exact htallied.sameBut hsame
      · cases hmade
    | refused hsame => exact htallied.sameBut hsame

/-- A request lends nothing out and gives nothing back. -/
theorem RequestEffect.lent {through : Bool} (h : m.RequestEffect size ended made through m') :
    m'.lent = m.lent := by
  cases h <;> rfl

/-- A request is answered. -/
theorem answers_of_hands {through : Bool} (h : m.RequestEffect size none made through m₁)
    (halike : m₁.Alike m') (hthrough : through = true ∨ made = none)
    (hsound : m.Sound) (hsound' : m'.Sound) (hdepart : m.process.SameDepartures m'.process)
    (hhands : m.process.Hands size made m'.process) : m.Answers size none made m' where
  lent := by rw [halike.lent, h.lent]; exact id
  sound _ := hsound'
  tallied := h.tallied halike (hthrough.imp_right fun hmade => ⟨hmade, rfl⟩) hsound
  bounded := hdepart.bounded
  departures := hdepart.departures
  others c _ hc := hhands.others c hc
  fresh c hc _ := hhands.fresh c hc
  gone _ hc := by cases hc
  live := hhands.live
  room := hhands.room
  unwritten := hhands.unwritten

/-- Zeroed bytes are asked for. -/
theorem answers_calloc (hlent : m.lent = false) (h : m.Sound)
    (hrun : m.calloc count size = (made, m')) : m.Answers (count * size) none made m' := by
  obtain ⟨hsound, hhands, -⟩ := calloc_spec h hrun
  obtain ⟨m₁, through, heffect, halike, hthrough⟩ := effect_calloc hrun
  have hdepart := m.sameDepartures_calloc count size
  rw [hrun] at hdepart
  refine answers_of_hands heffect halike ?_ h hsound hdepart hhands
  rcases hthrough with ⟨-, hmade⟩ | hthrough
  · exact .inr hmade
  · exact .inl (by rw [hthrough, hlent]; rfl)

/-- A block is resized, or one is asked for if there is none. -/
theorem answers_realloc {block : Option Address} (hlent : m.lent = false) (h : m.Sound)
    (hlive : ∀ a, block = some a → m.process.Live a) (hrun : realloc block size m = .ok moved m') :
    m.Answers size ((Request.realloc block size).ended moved) moved m' := by
  have hdepart := sameDepartures_realloc hlent hrun
  cases block with
  | none =>
    rw [Request.ended_realloc_none]
    cases hmalloc : m.malloc size with
    | mk found m₂ =>
      simp only [realloc, hmalloc] at hrun
      cases hrun
      obtain ⟨hsound, hhands⟩ := malloc_spec h hmalloc
      obtain ⟨m₁, heffect, halike⟩ := effect_malloc hmalloc
      exact answers_of_hands heffect halike (.inl (by rw [hlent]; rfl)) h hsound hdepart hhands
  | some a =>
    -- a block in use is always answered, so this run is the one that the effect is of
    obtain ⟨moved', m₂, hrun', heffect⟩ := effect_realloc h (hlive a rfl) size
    rw [hrun] at hrun'
    cases hrun'
    have hsound := heffect.sound h
    have hthrough : (!m.lent) = true := by rw [hlent]; rfl
    cases moved with
    | none =>
      exact answers_of_hands heffect (.refl _) (.inl hthrough) h hsound hdepart (heffect.hands h)
    | some b =>
      have hmoves := heffect.moves (hlive a rfl) h
      refine ⟨⟨fun _ => by rw [heffect.lent, hlent], fun _ => hsound,
        heffect.tallied (.refl _) (.inl hthrough) h, hdepart.bounded⟩, hdepart.departures,
        fun c hended hmade => ?_, fun c hmade hended => ?_, fun c hended hmade => ?_,
        hmoves.live, hmoves.room, fun c hmade => ?_⟩
      · exact hmoves.others c (fun heq => hended (by rw [heq]; rfl)) hmade
      · exact (hmoves.fresh c hmade fun heq => hended (by rw [heq]; rfl)).1
      · obtain rfl : a = c := Option.some.inj hended
        exact (hmoves.fresh b rfl fun heq => hmade (by rw [heq])).2
      · exact (hmoves.unwritten c hmade).mono (Nat.min_le_right _ _)

/-- A block is freed. -/
theorem answers_free (hlent : m.lent = false) (h : m.Sound) (ha : m.process.Live a)
    (hrun : free a m = .ok () m') : m.Answers 0 (some a) none m' := by
  have hdepart := sameDepartures_free hlent hrun
  obtain ⟨m₁, hrun', heffect, -⟩ := effect_free ha
  rw [hrun] at hrun'
  cases hrun'
  have hfrees := heffect.frees
  have halike : m₁.Alike (m₁.report .blockFreed) := (Alike.refl m₁).report .blockFreed
  refine ⟨⟨fun _ => by rw [halike.lent, heffect.lent, hlent], fun _ => (heffect.sound h).report _,
    heffect.tallied halike (.inl (by rw [hlent]; rfl)) h, hdepart.bounded⟩, hdepart.departures,
    fun c hended _ => ?_, nofun, fun c hended _ => ?_, nofun, nofun, nofun⟩
  · exact hfrees.others c fun heq => hended (by rw [heq])
  · obtain rfl : a = c := Option.some.inj hended
    exact hfrees.ended

/-- What is written into the bytes that were handed out does not matter. -/
theorem Answers.modifyPayload (h : m.Answers size ended (some a) m') {f : Payload → Payload}
    (hf : ∀ payload i, size ≤ i → (f payload).cell i = payload.cell i) :
    m.Answers size ended (some a) { m' with process := m'.process.modifyPayload a f } where
  toOrderly := h.toOrderly.trans (orderly_modifyPayload m' a f)
  departures := h.departures
  others c hended hmade :=
    (Process.getElem?_modifyPayload_of_ne (fun heq => hmade (by rw [heq])) f).trans
      (h.others c hended hmade)
  fresh := h.fresh
  gone c hended hmade := by
    rw [Process.live_modifyPayload]
    exact h.gone c hended hmade
  live c hc := (Process.live_modifyPayload _ _ _ _).2 (h.live c hc)
  room c hc := by
    rw [Process.kind_modifyPayload]
    exact h.room c hc
  unwritten := by
    rintro _ ⟨⟩
    refine (h.unwritten a rfl).modifyPayload fun payload i hi => hf payload i ?_
    split at hi <;> omega

/-- A text may be written into the bytes that were handed out. -/
theorem Answers.write {start : Nat} {bytes : ByteArray} (h : m.Answers size ended (some a) m')
    (hroom : start + bytes.size ≤ size) : m.Answers size ended (some a)
      { m' with process := m'.process.modifyPayload a (·.write start bytes) } :=
  h.modifyPayload fun payload i hi => by rw [Payload.cell_write, if_neg (by omega)]

/-! ### Several blocks -/

/-- The blocks in a list are freed one after the other. -/
inductive Clears : Memory → List Address → Memory → Prop
  | done (m : Memory) : Clears m [] m
  | next {m m₁ m' : Memory} {a : Address} {rest : List Address}
      (h : m.Answers 0 (some a) none m₁) (hrest : Clears m₁ rest m') : Clears m (a :: rest) m'

variable {blocks : List Address}

/-- Blocks can be freed one after the other. -/
theorem Clears.append {more : List Address} (h : Clears m blocks m₁) (h' : Clears m₁ more m') :
    Clears m (blocks ++ more) m' := by
  induction h with
  | done => exact h'
  | next hfirst _ ih => exact .next hfirst (ih h')

/-- Freeing blocks is orderly. -/
theorem Clears.orderly (h : Clears m blocks m') : m.Orderly m' := by
  induction h with
  | done m => exact .refl m
  | next h _ ih => exact h.toOrderly.trans ih

/-- Freeing blocks reports that no object went. -/
theorem Clears.departures (h : Clears m blocks m') :
    m'.process.departures = m.process.departures := by
  induction h with
  | done m => rfl
  | next h _ ih => exact ih.trans h.departures

/-- Freeing blocks leaves the other ones. -/
theorem Clears.others (h : Clears m blocks m') (hc : c ∉ blocks) :
    m'.process.blocks[c]? = m.process.blocks[c]? := by
  induction h with
  | done m => rfl
  | @next m m₁ m' a rest h _ ih =>
    obtain ⟨hca, hrest⟩ := not_or.1 (mt List.mem_cons.2 hc)
    exact (ih hrest).trans (h.others c (fun heq => hca (Option.some.inj heq).symm) nofun)

/-- What is in use afterwards are the other blocks. -/
theorem Clears.live_iff (h : Clears m blocks m') :
    m'.process.Live c ↔ c ∉ blocks ∧ m.process.Live c := by
  induction h with
  | done m => simp
  | @next m m₁ m' a rest h _ ih =>
    rw [ih, h.live_iff]
    simp only [reduceCtorEq, false_or, ne_eq, Option.some.injEq, List.mem_cons, not_or]
    rw [eq_comm (a := a)]
    exact and_left_comm.trans and_assoc.symm

end Memory

end ExtensionHost
