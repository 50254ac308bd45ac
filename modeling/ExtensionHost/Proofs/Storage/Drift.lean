import ExtensionHost.Proofs.Storage.Counters
import ExtensionHost.Proofs.Storage.ThreadedStorage

/-!
# `ExtensionHost.Proofs.Storage.Drift`: how far the figure of large blocks can be off

An allocator keeps one figure for the bytes of its large blocks. It adds
what it hands out and subtracts what is given back to it, down to zero and
whoever made the block. As long as its blocks come back to it the figure is
exact (`Storage.balanced_of_run`). With several threads they need not come back: a raw
release or a raw resize of a large block, and any request of a thread
without its allocator, goes to the system, and another thread gives the
block to an allocator of its own.

So the figure drifts, in two directions. A `Ledger` follows a run and keeps,
for each member, the bytes that *strayed*, of its large blocks that ended
without it, and the bytes that were *charged* to it, of large blocks of
others that ended with it. `ThreadedStorage.drift_of_run` says that nothing else can go
wrong: the figure is at most the large blocks that are out plus what strayed,
and at least that less what was charged. Without either of the two the figure
is exact; a figure that strayed stays too high, since no request but one that
the allocator answers moves it.

The first bound is not an equation, because the subtraction stops at zero:
what was charged beyond the figure is forgotten.
-/

set_option autoImplicit false

namespace ExtensionHost

/-! ### What one answer does to the figure -/

namespace Storage

variable {s s' : Storage} {a b : Address} {size : Nat} {ended made : Option Address}

/-- What becomes of a figure that `gained` bytes are added to and `lost` bytes
are subtracted from, in one order or the other. The subtraction stops at
zero, so the order matters. -/
def Shifts (old gained lost new : Nat) : Prop :=
  new = old + gained - lost ∨ new = old - lost + gained

/-- A resize adds the bytes of the block that it answers with and subtracts
those of the block that it is about: a block that moves is in use twice for a
moment, and one that the system resizes is not. -/
theorem Resized.heapLive (h : Resized s a size (some b) s') (hlive : s.process.Live a)
    (hlisted : s.allocator.Listed s.process) :
    Shifts s.allocator.heapLive (s'.process.largeBytes [b]) (s.process.largeBytes [a])
      s'.allocator.heapLive := by
  cases h with
  | stays hkind hcls => exact .inl (Nat.add_sub_cancel _ _).symm
  | @moved b s₁ s₂ hkind hserved hfreed =>
    -- copying leaves the marks, and neither the request nor the release touches the other block
    have hba : b ≠ a := fun heq => hserved.not_live hlisted (heq ▸ hlive)
    have hcopied : ∀ c, (s₁.withCopy a b (min (s.process.kind a).usable size)).process.kind c
        = s₁.process.kind c := kind_withCopy s₁ a b _
    have hkeptOld : s₁.process.kind a = s.process.kind a :=
      Process.kind_congr ((hserved.hands hlisted).others a (by simpa using hba))
    have hkeptNew := Process.kind_congr (hfreed.frees.others b hba)
    have hold : (s₁.withCopy a b (min (s.process.kind a).usable size)).process.largeBytes [a]
        = s.process.largeBytes [a] :=
      Process.largeBytes_congr fun c hc => by
        rw [List.mem_singleton.1 hc, hcopied, hkeptOld]
    have hnew : s₁.process.largeBytes [b] = s'.process.largeBytes [b] :=
      Process.largeBytes_congr fun c hc => by
        rw [List.mem_singleton.1 hc, hkeptNew, hcopied]
    have hgained := (hserved.gains hlisted).heapLive
    rw [Option.toList_some, hnew] at hgained
    left
    rw [hfreed.loses.heapLive, hold, ← hgained]
    rfl
  | @resized old b process hkind hcls hlimit hheap =>
    obtain ⟨-, hnew, -⟩ := Process.heapRealloc_some hheap hkind
    right
    rw [Process.largeBytes_singleton, Process.largeBytes_singleton, hkind, hnew]
    rfl

/-- A resize that fails leaves the figure of large blocks. -/
theorem Resized.heapLive_none (h : Resized s a size none s')
    (hlisted : s.allocator.Listed s.process) : s'.allocator.heapLive = s.allocator.heapLive := by
  cases h with
  | unmoved hserved => exact (hserved.gains hlisted).heapLive
  | refused hsame => rfl

/-- What an answer does to the figure, by what it hands out and what it
ends. -/
theorem RequestEffect.heapLive (h : s.RequestEffect size ended made s')
    (hlive : ∀ a, ended = some a → s.process.Live a) (hlisted : s.allocator.Listed s.process) :
    Shifts s.allocator.heapLive (s'.process.largeBytes made.toList)
      (s.process.largeBytes ended.toList) s'.allocator.heapLive := by
  cases h with
  | served hserved => exact .inr (hserved.gains hlisted).heapLive
  | resized hresized => exact hresized.heapLive (hlive _ rfl) hlisted
  | unresized hresized => exact .inr (hresized.heapLive_none hlisted)
  | freed hfreed => exact .inr hfreed.loses.heapLive

/-- The layer of the arenas is told the figure whenever it moves. -/
theorem RequestEffect.told (h : s.RequestEffect size ended made s')
    (htold : s.allocator.arenas.reserved = s.allocator.heapLive) :
    s'.allocator.arenas.reserved = s'.allocator.heapLive := by
  -- a figure moves in two places only, where large blocks are made and freed
  have hserves : ∀ {made : Option Address} {s' : Storage}, Served s size made s' →
      s'.allocator.arenas.reserved = s'.allocator.heapLive := by
    intro made s' hserved
    cases hserved with
    | reused hcls hlist => exact htold
    | carved hcls hlist hcarve => exact (ArenaPool.carve_kept hcarve).2.trans htold
    | uncarved hcls hlist hcarve => exact (ArenaPool.carve_kept hcarve).2.trans htold
    | large hcls hlimit => rfl
    | refused hcls hsame => exact htold
  have hfrees : ∀ {s s' : Storage} {a : Address},
      s.allocator.arenas.reserved = s.allocator.heapLive → Freed s a s' →
      s'.allocator.arenas.reserved = s'.allocator.heapLive := by
    intro s s' a htold hfreed
    cases hfreed with
    | pool hkind => exact htold
    | heap hkind => rfl
  cases h with
  | served hserved => exact hserves hserved
  | @resized a b _ hresized =>
    cases hresized with
    | stays hkind hcls => exact htold
    | @moved _ s₁ _ hkind hserved hfreed =>
      have hmade := hserves hserved
      exact hfrees (s := s₁.withCopy a b _) hmade hfreed
    | resized hkind hcls hlimit hheap => rfl
  | unresized hresized =>
    cases hresized with
    | unmoved hserved => exact hserves hserved
    | refused hsame => exact htold
  | freed hfreed => exact hfrees htold hfreed

end Storage

/-! ### The blocks that are held -/

/-- A request exchanges the block that it ended for the one that it handed
out. -/
theorem SharedStorage.held_note_perm {f : SharedStorage} (allocator : Allocator) (size : Nat)
    {ended : Option Address} (made : Option Address) (hended : ∀ a, ended = some a → a ∈ f.held) :
    (f.note allocator size ended made).held.Perm (made.toList ++ f.held.diff ended.toList) := by
  cases ended with
  | none =>
    rw [Option.toList_none, List.diff_nil]
    cases made <;> exact .refl _
  | some a =>
    rw [Option.toList_some, List.diff_cons, List.diff_nil]
    cases made with
    | none => exact .refl _
    | some b =>
      show (f.exchange allocator a size (some b)).held.Perm (b :: f.held.erase a)
      by_cases hba : b = a
      · subst hba
        rw [exchange, if_pos rfl]
        exact List.perm_cons_erase (hended b rfl)
      · rw [exchange, if_neg hba]
        show ((b :: f.held).erase a).Perm _
        rw [List.erase_cons_tail (by simpa using hba)]

namespace Memory

/-- The allocator of a thread that has ended is gone. -/
theorem allocator_endThread (m : Memory) : m.endThread.allocator = none := by
  rw [endThread]
  split
  · assumption
  · rfl

/-- The blocks of a thread that has ended keep their marks. -/
theorem kind_endThread (m : Memory) (a : Address) :
    m.endThread.process.kind a = m.process.kind a := by
  rw [endThread]
  split <;> rfl

end Memory

namespace ThreadedStorage

/-! ### Ledgers -/

/-- What is known of a run besides what the storage says. -/
structure Ledger where
  /-- The member whose allocator handed a block out, if one did. -/
  maker : Address → Option Nat := fun _ => none
  /-- The bytes of a member's large blocks that ended without its
  allocator. -/
  strayed : Nat → Nat := fun _ => 0
  /-- The bytes of large blocks that a member's allocator did not hand out
  and that ended with it. -/
  charged : Nat → Nat := fun _ => 0

namespace Ledger

/-- The blocks among them that the allocator of the member `j` handed
out. -/
def of (l : Ledger) (j : Nat) (blocks : List Address) : List Address :=
  blocks.filter fun a => l.maker a = some j

/-- Those that it did not hand out. -/
def notOf (l : Ledger) (j : Nat) (blocks : List Address) : List Address :=
  blocks.filter fun a => !(l.maker a = some j : Bool)

/-- Records that `ended` went out of use and `made` came into use, by the
allocator of one member or of none. -/
def note (l : Ledger) (p : Process) (answerer : Option Nat) (ended made : Option Address) :
    Ledger where
  maker b := if made = some b then answerer else l.maker b
  strayed j := l.strayed j + if answerer = some j then 0 else p.largeBytes (l.of j ended.toList)
  charged j := l.charged j + if answerer = some j then p.largeBytes (l.notOf j ended.toList) else 0

/-- Strikes a member off whose allocator is gone. -/
def forget (l : Ledger) (i : Nat) : Ledger where
  maker b := if l.maker b = some i then none else l.maker b
  strayed j := if j = i then 0 else l.strayed j
  charged j := if j = i then 0 else l.charged j

/-- The ledger after a command. -/
def after (l : Ledger) (c : ThreadedStorage) (command : Command) (made : Option Address) : Ledger :=
  match command with
  | .request i server request =>
    l.note c.shared.process (if (c.view i).through server request then some i else none)
      (request.ended made) made
  | .leave i => l.forget i
  | .install _ | .join _ | .lend _ | .giveBack _ => l

variable {l : Ledger} {p : Process} {answerer : Option Nat} {ended made : Option Address}
  {i j : Nat} {blocks : List Address}

/-- What strays is what ended without the allocator that it was counted by. -/
theorem strayed_note : (l.note p answerer ended made).strayed j
    = l.strayed j + if answerer = some j then 0 else p.largeBytes (l.of j ended.toList) := rfl

/-- What is charged is what ended with an allocator that did not count it. -/
theorem charged_note : (l.note p answerer ended made).charged j
    = l.charged j + if answerer = some j then p.largeBytes (l.notOf j ended.toList) else 0 := rfl

/-- The blocks of a member are told list by list. -/
theorem of_append (l : Ledger) (j : Nat) (blocks blocks' : List Address) :
    l.of j (blocks ++ blocks') = l.of j blocks ++ l.of j blocks' :=
  List.filter_append _ _

/-- The blocks of a member are told in any order. -/
theorem of_perm {blocks' : List Address} (l : Ledger) (j : Nat) (h : blocks.Perm blocks') :
    (l.of j blocks).Perm (l.of j blocks') :=
  h.filter _

/-- A block that was not handed out keeps its maker. -/
theorem of_note (h : ∀ b ∈ blocks, made ≠ some b) :
    (l.note p answerer ended made).of j blocks = l.of j blocks := by
  refine List.filter_congr fun b hb => ?_
  show decide ((if made = some b then answerer else l.maker b) = some j) = _
  rw [if_neg (h b hb)]

/-- A block that is handed out belongs to the member whose allocator answered. -/
theorem of_note_made :
    (l.note p answerer ended made).of j made.toList
      = if answerer = some j then made.toList else [] := by
  cases made with
  | none => split <;> rfl
  | some b => simp [of, note, List.filter_cons]

/-- Of some blocks, those of a member and those of others are all. -/
theorem largeBytes_of (l : Ledger) (p : Process) (j : Nat) (blocks : List Address) :
    p.largeBytes (l.of j blocks) + p.largeBytes (l.notOf j blocks) = p.largeBytes blocks := by
  rw [← p.largeBytes_append]
  exact p.largeBytes_perm (List.filter_append_perm _ blocks)

/-- Nothing has strayed from a member that is forgotten. -/
theorem strayed_forget : (l.forget i).strayed j = if j = i then 0 else l.strayed j := rfl

/-- Nothing is charged to a member that is forgotten. -/
theorem charged_forget : (l.forget i).charged j = if j = i then 0 else l.charged j := rfl

/-- No block belongs to a member that is forgotten. -/
theorem of_forget_self : (l.forget i).of i blocks = [] := by
  refine List.filter_eq_nil_iff.2 fun b _ => ?_
  show ¬ decide ((if l.maker b = some i then none else l.maker b) = some i) = true
  split <;> simp_all

/-- Forgetting a member leaves the blocks of the others. -/
theorem of_forget_of_ne (h : j ≠ i) : (l.forget i).of j blocks = l.of j blocks := by
  refine List.filter_congr fun b _ => ?_
  show decide ((if l.maker b = some i then none else l.maker b) = some j) = _
  split <;> simp_all [Ne.symm h]

end Ledger

/-- The runs of several threads, which start without members on a process without
blocks, and their ledgers. -/
inductive Run : ThreadedStorage → Ledger → Prop
  | start (system : System) (timing : Bool) : Run { shared := { process := { system, timing } } } {}
  | step {c c' : ThreadedStorage} {l : Ledger} {command : Command} {made : Option Address}
      (h : Run c l)
      (hstep : c.Step command made c') : Run c' (l.after c command made)

/-- The bytes of large blocks in use that the allocator of the member `j`
handed out. -/
def outstanding (c : ThreadedStorage) (l : Ledger) (j : Nat) : Nat :=
  c.shared.process.largeBytes (l.of j c.shared.held)

/-- They are among the bytes of all large blocks in use. -/
theorem outstanding_le (c : ThreadedStorage) (l : Ledger) (j : Nat) :
    c.outstanding l j ≤ c.shared.process.largeBytes c.shared.held := by
  have hall := l.largeBytes_of c.shared.process j c.shared.held
  rw [outstanding]
  omega

/-- The bytes of large blocks that the allocator of the member `j` says it
has. One that does not exist has none. -/
def figure (c : ThreadedStorage) (j : Nat) : Nat := (c.view j).allocator.elim 0 (·.heapLive)

variable {c c' : ThreadedStorage} {l : Ledger} {i j : Nat} {allocator : Allocator} {size : Nat}
  {ended made : Option Address} {m m₁ : Memory} {server : Server} {request : Request}

/-- A member sees the allocator that it has. -/
theorem allocator_view : (c.view i).allocator = some allocator ↔ c.shared.Has i allocator :=
  Option.join_eq_some_iff

/-- The figure of a member is that of its allocator. -/
theorem figure_of_has (h : c.shared.Has j allocator) : c.figure j = allocator.heapLive := by
  rw [figure, allocator_view.2 h]
  rfl

/-- An allocator that is made when it is first needed starts with nothing. -/
theorem heapLive_theAllocator (i : Nat) : (c.view i).theAllocator.heapLive = c.figure i := by
  rw [figure, Memory.theAllocator]
  cases (c.view i).allocator <;> rfl

/-! ### What a request does to the figures -/

/-- One member's allocator is put in its place. -/
theorem join_set {allocators : List (Option Allocator)} (hi : i < allocators.length)
    (member : Option Allocator) :
    (allocators.set i member)[j]?.join = if j = i then member else allocators[j]?.join := by
  by_cases hji : j = i
  · subst hji
    rw [if_pos rfl, List.getElem?_set_self hi]
    rfl
  · rw [if_neg hji, List.getElem?_set_ne (Ne.symm hji)]

/-- A request works on the allocator of the member who makes it. -/
theorem allocator_served (hi : i < c.shared.allocators.length) :
    ((c.served i size ended made m).view j).allocator
      = if j = i then m.allocator else (c.view j).allocator := by
  show ((c.shared.note _ size ended made).allocators.set i m.allocator)[j]?.join = _
  rw [SharedStorage.allocators_note]
  exact join_set hi m.allocator

/-- What the allocator that answers a request does to its figure. -/
theorem figure_pooled (h : c.shared.Sound) (hi : i < c.shared.allocators.length)
    (hended : ∀ a, ended = some a → a ∈ c.shared.held)
    (heffect : (c.view i).RequestEffect size ended made true m₁) (halike : m₁.Alike m) :
    Storage.Shifts (c.figure i) (m.process.largeBytes made.toList)
      (c.shared.process.largeBytes ended.toList) ((c.served i size ended made m).figure i) := by
  have hbytes : m.process.largeBytes made.toList = m₁.process.largeBytes made.toList :=
    Process.largeBytes_congr fun b _ => halike.process.kind b
  have hnew : (c.served i size ended made m).figure i = m₁.allocator.elim 0 (·.heapLive) := by
    rw [figure, allocator_served hi, if_pos rfl, halike.allocator]
  rw [hbytes, hnew, ← heapLive_theAllocator]
  cases heffect with
  | pooled heffect =>
    exact heffect.heapLive (fun a ha => (h.live a).1 (hended a ha)) (sound_view h i)

/-- Without its allocator a request leaves all allocators as they are. -/
theorem allocator_unpooled (hi : i < c.shared.allocators.length)
    (heffect : (c.view i).RequestEffect size ended made false m₁) (halike : m₁.Alike m) :
    ((c.served i size ended made m).view j).allocator = (c.view j).allocator := by
  rw [allocator_served hi, halike.allocator]
  cases heffect with
  | unpooled heffect =>
    split
    · rename_i hji
      rw [hji]
    · rfl

/-- What a request does to the figures: it moves that of the allocator that
answers it. -/
theorem figure_served {answerer : Option Nat} {through : Bool} (h : c.shared.Sound)
    (hi : i < c.shared.allocators.length) (hended : ∀ a, ended = some a → a ∈ c.shared.held)
    (heffect : (c.view i).RequestEffect size ended made through m₁) (halike : m₁.Alike m)
    (hanswerer : through = false ∧ made = none ∧ ended = none ∨
      answerer = if through then some i else none) :
    if answerer = some j then
      Storage.Shifts (c.figure j) (m.process.largeBytes made.toList)
        (c.shared.process.largeBytes ended.toList) ((c.served i size ended made m).figure j)
    else (c.served i size ended made m).figure j = c.figure j := by
  have hunpooled : through = false → (c.served i size ended made m).figure j = c.figure j := by
    rintro rfl
    rw [figure, figure, allocator_unpooled hi heffect halike]
  rcases hanswerer with ⟨hfalse, rfl, rfl⟩ | rfl
  · -- there is nothing that could move a figure
    split
    · exact .inl (hunpooled hfalse)
    · exact hunpooled hfalse
  -- the figure of another member cannot move, as its allocator is left as it is
  · cases through with
    | false => exact hunpooled rfl
    | true =>
      rw [if_pos rfl]
      by_cases hji : j = i
      · subst hji
        rw [if_pos rfl]
        exact figure_pooled h hi hended heffect halike
      · rw [if_neg fun heq => hji (Option.some.inj heq).symm, figure, figure, allocator_served hi,
          if_neg hji]

/-- The block that a request ends, taken out of those that are held. -/
theorem held_perm (hended : ∀ a, ended = some a → a ∈ c.shared.held) :
    c.shared.held.Perm (ended.toList ++ c.shared.held.diff ended.toList) := by
  cases ended with
  | none => exact .refl _
  | some a =>
    rw [Option.toList_some, List.diff_cons, List.diff_nil]
    exact List.perm_cons_erase (hended a rfl)

/-- A block that is held besides the one that a request ends is neither
handed out nor marked anew. -/
theorem kept_served {through : Bool} (h : c.shared.Sound)
    (hended : ∀ a, ended = some a → a ∈ c.shared.held)
    (heffect : (c.view i).RequestEffect size ended made through m₁) (halike : m₁.Alike m)
    {b : Address}
    (hb : b ∈ c.shared.held.diff ended.toList) :
    made ≠ some b ∧ m.process.kind b = c.shared.process.kind b := by
  have hmem := List.diff_subset _ _ hb
  have hne : ended ≠ some b := by
    rintro rfl
    rw [Option.toList_some, List.diff_cons, List.diff_nil] at hb
    exact (h.once.mem_erase_iff.1 hb).1 rfl
  obtain ⟨hmade, hblock⟩ := heffect.kept (sound_view h i)
    (fun a ha => (h.live a).1 (hended a ha)) ((h.live b).1 hmem) hne
  exact ⟨hmade, (halike.process.kind b).trans (Process.kind_congr hblock)⟩

/-- What is out for a member, taken apart at the block that a request ends. -/
theorem outstanding_diff (hended : ∀ a, ended = some a → a ∈ c.shared.held) :
    c.outstanding l j = c.shared.process.largeBytes (l.of j ended.toList)
      + c.shared.process.largeBytes (l.of j (c.shared.held.diff ended.toList)) := by
  rw [outstanding, Process.largeBytes_perm _ (l.of_perm j (held_perm hended)), Ledger.of_append,
    Process.largeBytes_append]

/-- The bytes that are out for a member, after a request that its allocator
or somebody else has answered. -/
theorem outstanding_served {through : Bool} (h : c.shared.Sound) (answerer : Option Nat)
    (hended : ∀ a, ended = some a → a ∈ c.shared.held)
    (heffect : (c.view i).RequestEffect size ended made through m₁) (halike : m₁.Alike m) :
    (c.served i size ended made m).outstanding (l.note c.shared.process answerer ended made) j
        + c.shared.process.largeBytes (l.of j ended.toList)
      = c.outstanding l j + if answerer = some j then m.process.largeBytes made.toList else 0 := by
  -- the blocks besides the two keep their marks, and whoever answers for them still does
  have hkept : ∀ b ∈ c.shared.held.diff ended.toList,
      made ≠ some b ∧ m.process.kind b = c.shared.process.kind b :=
    fun b hb => kept_served h hended heffect halike hb
  have hrest : (l.note c.shared.process answerer ended made).of j (c.shared.held.diff ended.toList)
      = l.of j (c.shared.held.diff ended.toList) := Ledger.of_note fun b hb => (hkept b hb).1
  have hmarks : m.process.largeBytes (l.of j (c.shared.held.diff ended.toList))
      = c.shared.process.largeBytes (l.of j (c.shared.held.diff ended.toList)) :=
    Process.largeBytes_congr fun b hb => (hkept b (List.mem_of_mem_filter hb)).2
  have hheld : (c.served i size ended made m).shared.held.Perm
      (made.toList ++ c.shared.held.diff ended.toList) :=
    SharedStorage.held_note_perm (c.view i).theAllocator size made hended
  have hnew : (c.served i size ended made m).outstanding
        (l.note c.shared.process answerer ended made) j
      = m.process.largeBytes ((l.note c.shared.process answerer ended made).of j made.toList)
        + c.shared.process.largeBytes (l.of j (c.shared.held.diff ended.toList)) := by
    rw [outstanding, Process.largeBytes_perm _ (Ledger.of_perm _ j hheld), Ledger.of_append,
      Process.largeBytes_append, hrest, ← hmarks]
    rfl
  rw [hnew, outstanding_diff hended, Ledger.of_note_made]
  split
  · omega
  · rw [Process.largeBytes_nil]
    omega

/-! ### The bounds -/

/-- What holds of the storage and its ledger at any time. -/
structure Accounted (c : ThreadedStorage) (l : Ledger) : Prop where
  sound : c.shared.Sound
  told : ∀ j allocator, (c.view j).allocator = some allocator →
    allocator.arenas.reserved = allocator.heapLive
  below : ∀ j, c.figure j ≤ c.outstanding l j + l.strayed j
  above : ∀ j, c.outstanding l j + l.strayed j ≤ c.figure j + l.charged j

/-- At the start everything is accounted for. -/
theorem accounted_start (system : System) (timing : Bool) :
    Accounted { shared := { process := { system, timing } } } {} where
  sound := SharedStorage.sound_of_reachable (.start system timing)
  told := nofun
  below _ := Nat.le_refl _
  above _ := Nat.le_refl _

/-- Nothing changes for a ledger when allocators come into being. -/
theorem Accounted.of_allocators (h : Accounted c l) (hsound : c'.shared.Sound)
    (hheld : c'.shared.held = c.shared.held) (hprocess : c'.shared.process = c.shared.process)
    (hallocators : ∀ j, (c'.view j).allocator = (c.view j).allocator ∨
      (c.view j).allocator = none ∧ ∃ settings, (c'.view j).allocator = some (.new settings)) :
    Accounted c' l := by
  have hfigure : ∀ j, c'.figure j = c.figure j := by
    intro j
    rcases hallocators j with hj | ⟨hnone, settings, hnew⟩
    · rw [figure, figure, hj]
    · rw [figure, figure, hnone, hnew]
      rfl
  have hout : ∀ j, c'.outstanding l j = c.outstanding l j := fun j => by
    rw [outstanding, outstanding, hheld, hprocess]
  refine ⟨hsound, fun j allocator hj => ?_, fun j => ?_, fun j => ?_⟩
  · rcases hallocators j with hsame | ⟨-, settings, hnew⟩
    · exact h.told j allocator (hsame.symm.trans hj)
    · rw [hnew] at hj
      cases hj
      rfl
  · rw [hfigure, hout]
    exact h.below j
  · rw [hfigure, hout]
    exact h.above j

/-- A member whose allocator goes is struck off, and nothing changes for the
others. -/
theorem Accounted.leave (h : Accounted c l) (hi : i < c.shared.allocators.length)
    (lent : Nat → Bool) :
    Accounted { c with shared := c.shared.withMemory i (c.view i).endThread, lent }
    (l.forget i) := by
  -- the storage afterwards gets a name, so that its parts are read off one by one
  obtain ⟨after, hafter⟩ : ∃ after : ThreadedStorage, after =
    { c with shared := c.shared.withMemory i (c.view i).endThread, lent } := ⟨_, rfl⟩
  have hallocator : ∀ j, (after.view j).allocator
      = if j = i then none else (c.view j).allocator := by
    intro j
    rw [hafter, ← (c.view i).allocator_endThread]
    exact join_set hi _
  have hothers : ∀ {j}, j ≠ i → after.figure j = c.figure j := fun hji => by
    rw [figure, figure, hallocator, if_neg hji]
  have hself : after.figure i = 0 := by
    rw [figure, hallocator, if_pos rfl]
    rfl
  have hout : ∀ {j}, j ≠ i → after.outstanding (l.forget i) j = c.outstanding l j := fun hji => by
    rw [outstanding, Ledger.of_forget_of_ne hji, hafter]
    exact Process.largeBytes_congr fun b _ => (c.view i).kind_endThread b
  rw [← hafter]
  refine ⟨by rw [hafter]; exact sound_leave h.sound hi, fun j allocator hj => ?told,
    fun j => ?below, fun j => ?above⟩
  case told =>
    rw [hallocator] at hj
    split at hj
    · cases hj
    · exact h.told j allocator hj
  case below =>
    by_cases hji : j = i
    · rw [hji, hself]
      exact Nat.zero_le _
    · rw [hothers hji, hout hji, Ledger.strayed_forget, if_neg hji]
      exact h.below j
  case above =>
    by_cases hji : j = i
    · subst hji
      rw [outstanding, Ledger.of_forget_self, Ledger.strayed_forget, if_pos rfl]
      exact Nat.zero_le _
    · rw [hothers hji, hout hji, Ledger.strayed_forget, Ledger.charged_forget, if_neg hji,
        if_neg hji]
      exact h.above j

/-- A request moves the figure of the member whose allocator answers it and
what is out for it by the same bytes, but for those of a block of others.
If none answers it, the bytes of the block that ends have strayed. -/
theorem Accounted.served {answerer : Option Nat} {through : Bool} (h : Accounted c l)
    (hi : i < c.shared.allocators.length) (hended : ∀ a, ended = some a → a ∈ c.shared.held)
    (heffect : (c.view i).RequestEffect size ended made through m₁) (halike : m₁.Alike m)
    (hanswerer : through = false ∧ made = none ∧ ended = none ∨
      answerer = if through then some i else none) :
    Accounted (c.served i size ended made m) (l.note c.shared.process answerer ended made) := by
  -- The bytes of the block that ends are those that the member is known for and those that it is
  -- not. The first part leaves what is out, and strays if the figure stays; the second part is
  -- charged if the figure moves. So the bounds move as far as the figure does.
  have hbounds : ∀ j,
      (c.served i size ended made m).figure j ≤
          (c.served i size ended made m).outstanding (l.note c.shared.process answerer ended made) j
            + (l.note c.shared.process answerer ended made).strayed j ∧
        (c.served i size ended made m).outstanding (l.note c.shared.process answerer ended made) j
            + (l.note c.shared.process answerer ended made).strayed j ≤
          (c.served i size ended made m).figure j
            + (l.note c.shared.process answerer ended made).charged j := by
    intro j
    have hfigure := figure_served (j := j) h.sound hi hended heffect halike hanswerer
    have hout := outstanding_served (l := l) (j := j) h.sound answerer hended heffect halike
    have hsplit := l.largeBytes_of c.shared.process j ended.toList
    have hpart := outstanding_diff (l := l) (j := j) hended
    have hbelow := h.below j
    have habove := h.above j
    rw [Ledger.strayed_note, Ledger.charged_note]
    by_cases hj : answerer = some j
    · simp only [if_pos hj, Storage.Shifts] at hfigure hout ⊢
      omega
    · simp only [if_neg hj] at hfigure hout ⊢
      omega
  refine ⟨sound_served h.sound hi hended heffect halike, ?told, fun j => (hbounds j).1,
    fun j => (hbounds j).2⟩
  case told =>
    intro j allocator hj
    cases through with
    | false =>
      rw [allocator_unpooled hi heffect halike] at hj
      exact h.told j allocator hj
    | true =>
      rw [allocator_served hi] at hj
      split at hj
      · -- it is the allocator that has answered, made just now if it was not there
        rw [halike.allocator] at hj
        cases heffect with
        | pooled heffect =>
          cases hj
          refine heffect.told ?_
          show (c.view i).theAllocator.arenas.reserved = (c.view i).theAllocator.heapLive
          rw [Memory.theAllocator]
          cases hview : (c.view i).allocator with
          | none => rfl
          | some allocator => exact h.told i allocator hview
      · exact h.told j allocator hj

/-- Whatever the threads do, the ledger follows. -/
theorem accounted_step {command : Command} (h : Accounted c l) (hstep : c.Step command made c') :
    Accounted c' (l.after c command made) := by
  have hsound := sound_step h.sound hstep
  -- only a request moves figures; a member that comes or goes brings none or takes its own
  -- along
  cases hstep with
  | install settings => exact ⟨hsound, h.told, h.below, h.above⟩
  | join settings =>
    refine h.of_allocators hsound rfl rfl fun j => ?_
    show (c.shared.allocators ++ [settings.map .new])[j]?.join = c.shared.allocators[j]?.join ∨
      c.shared.allocators[j]?.join = none ∧
        ∃ settings', (c.shared.allocators ++ [settings.map .new])[j]?.join = some (.new settings')
    rw [List.getElem?_append]
    split
    · exact .inl rfl
    · rename_i hj
      rw [List.getElem?_eq_none (Nat.le_of_not_lt hj), List.getElem?_singleton]
      split
      · cases settings with
        | none => exact .inl rfl
        | some settings => exact .inr ⟨rfl, settings, rfl⟩
      · exact .inl rfl
  | @lend i hi hlent =>
    refine h.of_allocators hsound rfl rfl fun j => ?_
    show (c.shared.allocators.set i (some (c.view i).theAllocator))[j]?.join = _ ∨
      _ ∧ ∃ settings, (c.shared.allocators.set i (some (c.view i).theAllocator))[j]?.join = _
    rw [join_set hi]
    split
    · rename_i hji
      subst hji
      rw [Memory.theAllocator]
      cases hview : (c.view j).allocator with
      | none => exact .inr ⟨rfl, c.installed, rfl⟩
      | some allocator => exact .inl rfl
    · exact .inl rfl
  | giveBack hi => exact ⟨hsound, h.told, h.below, h.above⟩
  | leave hi => exact h.leave hi _
  | @request i server request made m hi hown hheld hrun =>
    obtain ⟨made', m₁, m', through, hran, heffect, halike, hthrough⟩ :=
      effect_request h.sound i server request hheld
    rw [hran] at hrun
    cases hrun
    refine h.served hi (fun a ha => hheld a (Request.target_of_ended ha)) heffect halike ?_
    exact hthrough.imp_right fun heq => by rw [heq]

/-- At any time of a run everything is accounted for. -/
theorem Run.accounted (h : Run c l) : Accounted c l := by
  induction h with
  | start system timing => exact accounted_start system timing
  | step _ hstep ih => exact accounted_step ih hstep

/-- At any time of any run of several threads, whichever entry points were used by whom,
the figure of large blocks that an allocator keeps, and that both layers hold against
its limit, is at most the bytes of the large blocks that it handed out and that are in
use, plus what strayed, and at least that less what was charged. So it is exact if
nothing strayed and nothing was charged, and it fits a machine word for as long as the
bytes of all large blocks in use do together with what strayed, so that no addition to
it wraps around. Any request about blocks in use is answered, and it changes no
allocator but the one that answers it. -/
theorem drift_of_run (h : Run c l) :
    (∀ i allocator, c.shared.Has i allocator →
      allocator.arenas.reserved = allocator.heapLive ∧
      allocator.heapLive ≤ c.outstanding l i + l.strayed i ∧
      c.outstanding l i + l.strayed i ≤ allocator.heapLive + l.charged i ∧
      (l.strayed i = 0 → l.charged i = 0 → allocator.heapLive = c.outstanding l i) ∧
      (c.shared.process.largeBytes c.shared.held + l.strayed i ≤ Size.greatest →
        allocator.heapLive ≤ Size.greatest)) ∧
    (∀ i server request, i < c.shared.allocators.length →
      (server = .own → ∃ allocator, c.shared.Has i allocator) →
      (∀ a, request.target = some a → a ∈ c.shared.held) →
      ∃ made c', c.Step (.request i server request) made c') ∧
    ∀ i server request made c', c.Step (.request i server request) made c' →
      ∀ j allocator, c.shared.Has j allocator →
        (j ≠ i ∨ (c.view i).through server request = false) → c'.shared.Has j allocator := by
  have haccounted := h.accounted
  refine ⟨fun i allocator hi => ?_, fun i server request hi hown hheld => ?_, ?_⟩
  · have hbelow := haccounted.below i
    have habove := haccounted.above i
    rw [figure_of_has hi] at hbelow habove
    have hall := outstanding_le c l i
    exact ⟨haccounted.told i allocator (allocator_view.2 hi), hbelow, habove, by omega, by omega⟩
  · obtain ⟨made, m₁, m, through, hrun, -⟩ := effect_request haccounted.sound i server request hheld
    exact ⟨made, _, .request hi hown hheld hrun⟩
  · intro i server request made c' hstep j allocator hj hother
    have hview := allocator_view.2 hj
    cases hstep with
    | request hi hown hheld hrun =>
      obtain ⟨made', m₁, m', through, hran, heffect, halike, hthrough⟩ :=
        effect_request haccounted.sound i server request hheld
      rw [hran] at hrun
      cases hrun
      refine allocator_view.1 ?_
      -- it is another member, or it is the one that was passed by
      rcases hother with hji | hnone
      · rw [allocator_served hi, if_neg hji]
        exact hview
      · obtain rfl : through = false := hthrough.elim And.left fun heq => heq.trans hnone
        rw [allocator_unpooled hi heffect halike]
        exact hview

/-! ### Runs -/

/-- The storage and its ledger after more requests; there is none when one is
made by nobody or about a block that is not held. -/
def follow : List (Nat × Server × Request) → ThreadedStorage × Ledger →
    Option (ThreadedStorage × Ledger)
  | [], now => some now
  | (i, server, request) :: rest, (c, l) =>
    if i < c.shared.allocators.length ∧ (server = .own → (c.view i).allocator.isSome) ∧
        ∀ a ∈ request.target, a ∈ c.shared.held then
      match Memory.answer server request (c.view i) with
      | .ok made m =>
        follow rest (c.served i (request.bytes server) (request.ended made) made m,
          l.after c (.request i server request) made)
      | .error _ _ => none
    else none

/-- Requests that can be followed start with a step. -/
theorem follow_cons {i : Nat} {server : Server} {request : Request}
    {rest : List (Nat × Server × Request)} {now : ThreadedStorage × Ledger}
    (hfollow : follow ((i, server, request) :: rest) (c, l) = some now) :
    ∃ made next, c.Step (.request i server request) made next ∧
      follow rest (next, l.after c (.request i server request) made) = some now := by
  simp only [follow] at hfollow
  split at hfollow
  · rename_i hready
    obtain ⟨hi, hown, hheld⟩ := hready
    split at hfollow
    · rename_i made m hrun
      refine ⟨made, _, .request hi (fun heq => ?_) hheld hrun, hfollow⟩
      obtain ⟨allocator, hview⟩ := Option.isSome_iff_exists.1 (hown heq)
      exact ⟨allocator, allocator_view.1 hview⟩
    · cases hfollow
  · cases hfollow

/-- Requests that are followed from a run make a run. -/
theorem run_follow {requests : List (Nat × Server × Request)} (h : Run c l) {l' : Ledger}
    (hfollow : follow requests (c, l) = some (c', l')) : Run c' l' := by
  induction requests generalizing c l with
  | nil =>
    cases hfollow
    exact h
  | cons entry rest ih =>
    obtain ⟨made, next, hstep, hrest⟩ := follow_cons hfollow
    exact ih (.step h hstep) hrest

/-- A thread, and an allocator that belongs to none. -/
def pair : ThreadedStorage where
  shared := { process := { system := .bounded 8192 }, allocators := [none, some (.new {})] }

/-- Two threads that share one process are where a run leads. -/
theorem run_pair : Run pair {} :=
  .step (.step (.start (.bounded 8192) false) (.join none)) (.join (some {}))

/-- The thread takes 2000 bytes, the allocator hands out 1500 of its own, and
then the block of the thread is given to the allocator. -/
def crossing : Option (ThreadedStorage × Ledger) :=
  follow [(0, .thread, .malloc 2000), (1, .own, .malloc 1500), (1, .own, .free 0)] (pair, {})

/-- The allocator has been charged 2000 bytes then, so it says that it has
nothing, while 1500 bytes of it are out. A raw release of those leaves it at
that. -/
theorem drift_crossing : ∃ c l allocator, crossing = some (c, l) ∧ Run c l ∧
    c.shared.Has 1 allocator ∧ allocator.heapLive = 0 ∧ allocator.arenas.reserved = 0 ∧
    c.outstanding l 1 = 1500 ∧ l.charged 1 = 2000 ∧
    ∃ made c', c.Step (.request 0 .raw (.free 1)) made c' ∧ c'.shared.Has 1 allocator := by
  obtain ⟨⟨c, l⟩, hfollow⟩ : ∃ now, crossing = some now := Option.isSome_iff_exists.1 (by decide)
  have hread : ∀ {α : Type} (g : ThreadedStorage × Ledger → α),
      crossing.map g = some (g (c, l)) := by
    intro α g
    rw [hfollow]
    rfl
  have hrun : Run c l := run_follow run_pair hfollow
  have hfigure : (c.view 1).allocator.map (·.heapLive) = some 0 :=
    Option.some.inj ((hread fun now => (now.1.view 1).allocator.map (·.heapLive)).symm.trans
      (by decide))
  have hout : c.outstanding l 1 = 1500 :=
    Option.some.inj ((hread fun now => now.1.outstanding now.2 1).symm.trans (by decide))
  have hcharged : l.charged 1 = 2000 :=
    Option.some.inj ((hread fun now => now.2.charged 1).symm.trans (by decide))
  have hheld : c.shared.held = [1] :=
    Option.some.inj ((hread fun now => now.1.shared.held).symm.trans (by decide))
  have hmembers : c.shared.allocators.length = 2 :=
    Option.some.inj ((hread fun now => now.1.shared.allocators.length).symm.trans (by decide))
  obtain ⟨allocator, hview, hlive⟩ := Option.map_eq_some_iff.1 hfigure
  have hhas := allocator_view.1 hview
  obtain ⟨hfigures, hanswers, hothers⟩ := drift_of_run hrun
  obtain ⟨made, c', hstep⟩ := hanswers 0 .raw (.free 1) (by omega) nofun fun a ha => by
    cases ha
    rw [hheld]
    exact List.mem_cons_self
  refine ⟨c, l, allocator, hfollow, hrun, hhas, hlive, ?_, hout, hcharged, made, c', hstep, ?_⟩
  · rw [(hfigures 1 allocator hhas).1, hlive]
  · exact hothers 0 .raw (.free 1) made c' hstep 1 allocator hhas (.inl (by decide))

/-- The figure is not always the bytes of the large blocks that are out: a raw
release of a block leaves the figure of the allocator that handed it out. -/
theorem figure_not_exact : ¬ ∀ c l, Run c l → ∀ i allocator, c.shared.Has i allocator →
    allocator.heapLive = c.outstanding l i := by
  intro hexact
  obtain ⟨⟨c, l⟩, hfollow⟩ :
      ∃ now, follow [(1, .own, .malloc 2000), (0, .raw, .free 0)] (pair, {}) = some now :=
    Option.isSome_iff_exists.1 (by decide)
  have hread : ∀ {α : Type} (g : ThreadedStorage × Ledger → α),
      (follow [(1, .own, .malloc 2000), (0, .raw, .free 0)] (pair, {})).map g =
        some (g (c, l)) := by
    intro α g
    rw [hfollow]
    rfl
  have hfigure : (c.view 1).allocator.map (·.heapLive) = some 2000 :=
    Option.some.inj ((hread fun now => (now.1.view 1).allocator.map (·.heapLive)).symm.trans
      (by decide))
  have hout : c.outstanding l 1 = 0 :=
    Option.some.inj ((hread fun now => now.1.outstanding now.2 1).symm.trans (by decide))
  obtain ⟨allocator, hview, hlive⟩ := Option.map_eq_some_iff.1 hfigure
  have hsame := hexact c l (run_follow run_pair hfollow) 1 allocator (allocator_view.1 hview)
  rw [hlive, hout] at hsame
  cases hsame

end ThreadedStorage

end ExtensionHost
