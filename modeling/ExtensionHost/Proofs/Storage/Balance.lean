import ExtensionHost.Proofs.Storage.Calls
import ExtensionHost.Proofs.Storage.Counters

/-!
# `ExtensionHost.Proofs.Storage.Balance`: the counters of an allocator are exact

An allocator whose blocks are all obtained, resized and given back through
it keeps exact books. What its users know is a history, the requests with
their answers, and the blocks that they hold follow from it (`held`). So the
counters can be compared with something that the allocator has no hand in:
small blocks in use are those that are held, cut blocks are in use or wait,
and the bytes of large blocks are those of the large blocks that are held.

`Storage.Run` is a run of one allocator. The system may refuse any request,
and between two requests the memory that is not the allocator's may change
in any way, so other allocators may be at work. `Books` is the invariant:
requests, releases and resizes each keep it (`Served.books`, `Freed.books`,
`Resized.books`), and so does every run (`Run.books`).

A resize that moves a block is the case where counters could go apart,
because both copies are in use for a moment. It is a request and then a
release, and the books are right in between.
-/

set_option autoImplicit false

namespace ExtensionHost

namespace Storage

/-! ### Histories -/

/-- Requests with their answers, the last one first. -/
abbrev History := List (Request × Option Address)

/-- The blocks that were handed out and not given back. -/
def held : History → List Address
  | [] => []
  | (request, made) :: past => made.toList ++ (held past).diff (request.ended made).toList

/-- How many small blocks come into use when a request for `size` bytes is
answered and one block ends. One that is resized where it is does not come
into use. -/
def taken (size : Nat) (ended made : Option Address) : Nat :=
  if made ≠ ended ∧ made.isSome ∧ size ≤ SizeClass.threshold then 1 else 0

/-- A block that stays does not come into use. -/
@[simp] theorem taken_self (size : Nat) (ended : Option Address) : taken size ended ended = 0 :=
  if_neg fun h => h.1 rfl

/-- An answer with nothing takes nothing. -/
@[simp] theorem taken_none (size : Nat) (ended : Option Address) : taken size ended none = 0 :=
  if_neg fun h => Bool.false_ne_true h.2.1

/-- How many small blocks were handed out in a history. -/
def drawn (history : History) : Nat :=
  (history.map fun (request, made) =>
    taken (request.bytes .own) (request.ended made) made).sum

/-- What was drawn is what was drawn before, and what the last request took. -/
theorem drawn_cons (request : Request) (made : Option Address) (past : History) :
    drawn ((request, made) :: past) =
      drawn past + taken (request.bytes .own) (request.ended made) made := by
  simp only [drawn, List.map_cons, List.sum_cons, Nat.add_comm]

/-- The runs of an allocator: only blocks that are held are resized and given
back, and between requests the blocks that are neither held nor waiting may
change. -/
inductive Run (start : Storage) : History → Storage → Prop
  | start : Run start [] start
  | request {past : History} {s s' : Storage} {request : Request} {made : Option Address}
      (h : Run start past s) (hheld : ∀ a, request.target = some a → a ∈ held past)
      (hrun : answer request s = .ok made s') : Run start ((request, made) :: past) s'
  | elsewhere {past : History} {s : Storage} {process : Process} (h : Run start past s)
      (hheld : ∀ a ∈ held past, process.kind a = s.process.kind a)
      (hwaiting : ∀ (cls : SizeClass), ∀ a ∈ s.allocator.freeLists[cls],
        process.kind a = s.process.kind a) : Run start past { s with process }

/-! ### Books -/

/-- The counters agree with the blocks that are held, of which `count` small
ones were handed out so far. -/
structure Books (settings : AllocatorSettings) (s : Storage) (held : List Address) (count : Nat) :
    Prop where
  settings : s.allocator.settings = settings
  listed : s.allocator.Listed s.process
  once : held.Nodup
  live : ∀ a ∈ held, s.process.Live a
  inUse : s.allocator.inUse = s.process.smallCount held
  carved : s.allocator.carved = s.allocator.inUse + s.allocator.waiting
  drawn : s.allocator.carved + s.allocator.hits = count
  heapLive : s.allocator.heapLive = s.process.largeBytes held
  budget : s.allocator.Budgeted

variable {settings : AllocatorSettings} {s s' : Storage} {a b : Address} {size count : Nat}
  {blocks : List Address} {made moved : Option Address}

/-- A new allocator has balanced books. -/
theorem books_new (settings : AllocatorSettings) (process : Process) :
    Books settings ⟨.new settings, process⟩ [] 0 where
  settings := rfl
  listed := Allocator.listed_new settings process
  once := List.nodup_nil
  live := by simp
  inUse := rfl
  carved := by simp [Allocator.waiting, Allocator.freeCount, Allocator.new]
  drawn := rfl
  heapLive := rfl
  budget := Allocator.budgeted_new settings

/-- The books depend on the memory only through the marks of the blocks that
are held or wait. -/
theorem Books.of_kind {process : Process} (h : Books settings s blocks count)
    (hheld : ∀ a ∈ blocks, process.kind a = s.process.kind a)
    (hwaiting : ∀ (cls : SizeClass), ∀ a ∈ s.allocator.freeLists[cls],
      process.kind a = s.process.kind a) : Books settings { s with process } blocks count where
  settings := h.settings
  listed := h.listed.of_kind hwaiting
  once := h.once
  live a ha := by
    rw [Process.Live, hheld a ha]
    exact h.live a ha
  inUse := h.inUse.trans (Process.smallCount_congr hheld).symm
  carved := h.carved
  drawn := h.drawn
  heapLive := h.heapLive.trans (Process.largeBytes_congr hheld).symm
  budget := h.budget

/-- The order of the blocks does not matter. -/
theorem Books.perm {blocks' : List Address} (h : Books settings s blocks count)
    (hperm : blocks.Perm blocks') : Books settings s blocks' count where
  settings := h.settings
  listed := h.listed
  once := hperm.nodup_iff.1 h.once
  live a ha := h.live a (hperm.mem_iff.2 ha)
  inUse := h.inUse.trans (Process.smallCount_perm _ hperm)
  carved := h.carved
  drawn := h.drawn
  heapLive := h.heapLive.trans (Process.largeBytes_perm _ hperm)
  budget := h.budget

/-- Writing to a block leaves the books balanced. -/
theorem Books.modifyPayload (h : Books settings s blocks count) (a : Address)
    (f : Payload → Payload) :
    Books settings { s with process := s.process.modifyPayload a f } blocks count :=
  h.of_kind (fun _ _ => Process.kind_modifyPayload _ _ _ _)
    fun _ _ _ => Process.kind_modifyPayload _ _ _ _

/-- What a request takes is counted by the block that it hands out. -/
theorem Served.taken_eq {ended : Option Address} (h : Served s size made s')
    (hlisted : s.allocator.Listed s.process) (hended : ∀ a, made = some a → ended ≠ some a) :
    s'.process.smallCount made.toList = taken size ended made := by
  cases made with
  | none => rw [taken_none]; rfl
  | some a =>
    have hne : some a ≠ ended := Ne.symm (hended a rfl)
    rw [Option.toList_some, (h.amounts hlisted).1]
    simp only [taken, hne, ne_eq, not_false_eq_true, Option.isSome_some, true_and]

/-- A request adds the block that it hands out to the books. -/
theorem Served.books {ended : Option Address} (h : Served s size made s')
    (hbooks : Books settings s blocks count) (hended : ∀ a, made = some a → ended ≠ some a) :
    Books settings s' (made.toList ++ blocks) (count + taken size ended made) := by
  have hgains := h.gains hbooks.listed
  have hhands := h.hands hbooks.listed
  have hsmall := h.taken_eq hbooks.listed hended
  -- what is handed out was not in use, so it is none of the blocks that are held
  have hkept : ∀ b ∈ blocks, s'.process.blocks[b]? = s.process.blocks[b]? := by
    intro b hb
    refine hhands.others b ?_
    rintro rfl
    exact hhands.fresh b rfl (hbooks.live b hb)
  have hkinds : ∀ b ∈ blocks, s'.process.kind b = s.process.kind b :=
    fun b hb => Process.kind_congr (hkept b hb)
  refine ⟨hgains.settings.trans hbooks.settings, h.listed hbooks.listed, ?once, ?live, ?inUse,
    ?carved, ?drawn, ?heapLive, h.budgeted hbooks.budget⟩
  case once =>
    cases made with
    | none => exact hbooks.once
    | some a =>
      exact List.nodup_cons.2 ⟨fun hmem => hhands.fresh a rfl (hbooks.live a hmem), hbooks.once⟩
  case live =>
    intro b hb
    rcases List.mem_append.1 hb with hb | hb
    · exact hhands.live b (Option.mem_toList.1 hb)
    · exact (Process.live_congr (hkept b hb)).2 (hbooks.live b hb)
  case inUse =>
    rw [hgains.inUse, hbooks.inUse, Process.smallCount_append, Process.smallCount_congr hkinds,
      Nat.add_comm]
  case carved =>
    have hcarved := hgains.carved
    have hinUse := hgains.inUse
    have hbefore := hbooks.carved
    omega
  case drawn =>
    rw [hgains.drawn, hbooks.drawn, hsmall]
  case heapLive =>
    rw [hgains.heapLive, hbooks.heapLive, Process.largeBytes_append,
      Process.largeBytes_congr hkinds, Nat.add_comm]

/-- A release strikes the block off the books. -/
theorem Freed.books (h : Freed s a s') (hbooks : Books settings s blocks count)
    (ha : a ∈ blocks) : Books settings s' (blocks.erase a) count := by
  -- all figures of the rest stay, and those of the block are taken off
  have hloses := h.loses
  have hkept : ∀ b ∈ blocks.erase a, s'.process.blocks[b]? = s.process.blocks[b]? :=
    fun b hb => h.frees.others b (hbooks.once.mem_erase_iff.1 hb).1
  have hkinds : ∀ b ∈ blocks.erase a, s'.process.kind b = s.process.kind b :=
    fun b hb => Process.kind_congr (hkept b hb)
  have hsmall := s.process.smallCount_erase ha
  have hlarge := s.process.largeBytes_erase ha
  have hinUse := hbooks.inUse
  have hlive := hbooks.heapLive
  refine ⟨hloses.settings.trans hbooks.settings, h.listed hbooks.listed, hbooks.once.erase a,
    fun b hb => ?_, ?inUse, ?carved, ?drawn, ?heapLive, h.budgeted hbooks.budget⟩
  · exact (Process.live_congr (hkept b hb)).2 (hbooks.live b (List.mem_of_mem_erase hb))
  case inUse =>
    rw [Process.smallCount_congr hkinds, hloses.inUse]
    omega
  case carved =>
    have hbefore := hbooks.carved
    rw [hloses.carved, hloses.inUse, hloses.waiting]
    omega
  case drawn =>
    rw [hloses.carved, hloses.hits]
    exact hbooks.drawn
  case heapLive =>
    rw [Process.largeBytes_congr hkinds, hloses.heapLive]
    omega

/-- The bytes of a large block that the system resizes are exchanged on the
books. -/
theorem books_heapRealloc {old : Nat} {process : Process}
    (hbooks : Books settings s blocks count) (ha : a ∈ blocks)
    (hkind : s.process.kind a = .heap old) (hlimit : s.allocator.withinLimit (max size 1 - old))
    (hheap : s.process.heapRealloc a old size = (some b, process)) :
    Books settings
      { allocator := s.allocator.setHeapLive (s.allocator.heapLive - old + max size 1), process }
      (b :: blocks.erase a) count := by
  have hmoves := Process.moves_heapRealloc hheap hkind
  obtain ⟨hplace, hnew, -, hothers⟩ := Process.heapRealloc_some hheap hkind
  -- the block is where it was or at a new address, so the books have it once
  have hfresh : b ∉ blocks.erase a := by
    intro hb
    obtain ⟨hba, hmem⟩ := hbooks.once.mem_erase_iff.1 hb
    exact (hmoves.fresh b rfl hba).1 (hbooks.live b hmem)
  have hkept : ∀ c ∈ blocks.erase a, process.blocks[c]? = s.process.blocks[c]? := by
    intro c hc
    refine hothers c (hbooks.once.mem_erase_iff.1 hc).1 ?_
    rintro rfl
    exact hfresh hc
  have hkinds : ∀ c ∈ blocks.erase a, process.kind c = s.process.kind c :=
    fun c hc => Process.kind_congr (hkept c hc)
  have hsmall := s.process.smallCount_erase ha
  have hlarge := s.process.largeBytes_erase ha
  rw [Process.smallCount_singleton, hkind] at hsmall
  rw [Process.largeBytes_singleton, hkind] at hlarge
  have hlive := hbooks.heapLive
  have hlisted := Allocator.listed_heapRealloc hbooks.listed hkind hheap
  refine ⟨hbooks.settings, ⟨hlisted.nodup, hlisted.freed⟩,
    List.nodup_cons.2 ⟨hfresh, hbooks.once.erase a⟩, ?live, ?inUse, hbooks.carved, hbooks.drawn,
    ?heapLive, ?budget⟩
  case live =>
    intro c hc
    rcases List.mem_cons.1 hc with rfl | hc
    · exact Process.live_heap hnew
    · exact (Process.live_congr (hkept c hc)).2 (hbooks.live c (List.mem_of_mem_erase hc))
  case inUse =>
    have hinUse := hbooks.inUse
    have hnone : process.smallCount [b] = 0 := by
      rw [Process.smallCount_singleton, hnew]
      rfl
    rw [← List.singleton_append, Process.smallCount_append, hnone, Process.smallCount_congr hkinds,
      Nat.zero_add]
    exact hinUse.trans (hsmall.trans (Nat.zero_add _))
  case heapLive =>
    have hbytes : process.largeBytes [b] = max size 1 := by
      rw [Process.largeBytes_singleton, hnew]
      rfl
    rw [← List.singleton_append, Process.largeBytes_append, hbytes, Process.largeBytes_congr hkinds]
    show s.allocator.heapLive - old + max size 1 = _
    simp only [BlockKind.largeBytes] at hlarge
    omega
  case budget =>
    refine hbooks.budget.setHeapLive fun limit hsome hle => ?_
    -- the limit was looked at for the difference alone
    have hadmitted := Allocator.le_of_withinLimit hlimit hsome
    simp only [BlockKind.largeBytes] at hlarge
    omega

/-- A resize exchanges the block on the books for the one that it answers
with. -/
theorem Resized.books (h : Resized s a size (some b) s') (hbooks : Books settings s blocks count)
    (ha : a ∈ blocks) :
    Books settings s' (b :: blocks.erase a) (count + taken size (some a) (some b)) := by
  cases h with
  | stays hkind hcls =>
    rw [taken_self]
    exact hbooks.perm (List.perm_cons_erase ha)
  | @moved b s₁ _ hkind hserved hfreed =>
    have hba : b ≠ a := fun heq => hserved.not_live hbooks.listed (heq ▸ hbooks.live a ha)
    -- both copies are on the books while the bytes are copied
    have hserves : Books settings s₁ (b :: blocks) (count + taken size (some a) (some b)) :=
      hserved.books hbooks fun c hc heq =>
        hba ((Option.some.inj hc).trans (Option.some.inj heq).symm)
    have hboth := hserves.modifyPayload b
      (·.copyFrom (s₁.process.payload a) (min (s.process.kind a).usable size))
    have hstruck := hfreed.books hboth (List.mem_cons_of_mem _ ha)
    rwa [List.erase_cons_tail (by simpa using hba)] at hstruck
  | @resized old b process hkind hcls hlimit hheap =>
    have hlarge := Nat.not_le_of_lt (SizeClass.ofSize?_eq_none_iff.1 hcls)
    have hnone : taken size (some a) (some b) = 0 := if_neg fun h => hlarge h.2.2
    rw [hnone]
    exact books_heapRealloc hbooks ha hkind hlimit hheap

/-- A resize that fails leaves the books as they are. -/
theorem Resized.books_none (h : Resized s a size none s')
    (hbooks : Books settings s blocks count) : Books settings s' blocks count := by
  cases h with
  | unmoved hserved =>
    have hsame : Books settings s' blocks (count + taken size none none) :=
      hserved.books hbooks nofun
    rwa [taken_self] at hsame
  | refused hsame =>
    exact hbooks.of_kind (fun _ _ => Process.kind_congr (by rw [hsame.blocks]))
      fun _ _ _ => Process.kind_congr (by rw [hsame.blocks])

/-- What an allocator does is on the books. -/
theorem RequestEffect.books {ended : Option Address} (h : RequestEffect s size ended made s')
    (hbooks : Books settings s blocks count) (hended : ∀ a, ended = some a → a ∈ blocks) :
    Books settings s' (made.toList ++ blocks.diff ended.toList)
      (count + taken size ended made) := by
  cases h with
  | served hserved =>
    rw [Option.toList_none, List.diff_nil]
    exact hserved.books hbooks nofun
  | @resized a b _ hresized =>
    show Books settings s' ([b] ++ blocks.diff [a]) _
    rw [List.diff_cons, List.diff_nil]
    exact hresized.books hbooks (hended a rfl)
  | unresized hresized =>
    rw [taken_self, Option.toList_none, List.diff_nil]
    exact hresized.books_none hbooks
  | @freed a _ hfreed =>
    show Books settings s' (blocks.diff [a]) _
    rw [taken_none, List.diff_cons, List.diff_nil]
    exact hfreed.books hbooks (hended a rfl)

/-! ### Runs -/

/-- An allocator answers any request about blocks that are held, and the
books follow the answer. -/
theorem books_answer {past : History} {request : Request}
    (hbooks : Books settings s (held past) (drawn past))
    (hheld : ∀ a, request.target = some a → a ∈ held past) :
    ∃ made s', answer request s = .ok made s' ∧
      Books settings s' (held ((request, made) :: past)) (drawn ((request, made) :: past)) := by
  obtain ⟨made, s₁, s', hrun, heffect, halike⟩ := effect_answer hbooks.listed request
    fun a ha => hbooks.live a (hheld a ha)
  refine ⟨made, s', hrun, ?_⟩
  rw [drawn_cons]
  have hnext := heffect.books hbooks fun a ha => hheld a (Request.target_of_ended ha)
  have hmarks : Books settings { s₁ with process := s'.process } _ _ :=
    hnext.of_kind (fun a _ => halike.process.kind a) fun _ a _ => halike.process.kind a
  obtain ⟨allocator, process⟩ := s'
  obtain rfl : allocator = s₁.allocator := halike.allocator
  exact hmarks

/-- The books are right at any time of any run. -/
theorem Run.books {process : Process} {history : History}
    (h : Run ⟨.new settings, process⟩ history s) :
    Books settings s (held history) (drawn history) := by
  induction h with
  | start => exact books_new settings process
  | @request past s s' request made hpast hheld hrun ih =>
    obtain ⟨made', next, hran, hnext⟩ := books_answer ih hheld
    rw [hran] at hrun
    cases hrun
    exact hnext
  | elsewhere hpast hheld hwaiting ih => exact ih.of_kind hheld hwaiting

/-- At any time an allocator answers any request about the blocks that are
held. -/
theorem Run.answers {process : Process} {history : History} {request : Request}
    (h : Run ⟨.new settings, process⟩ history s)
    (hheld : ∀ a, request.target = some a → a ∈ held history) :
    ∃ made s', Run ⟨.new settings, process⟩ ((request, made) :: history) s' := by
  obtain ⟨made, s', hrun, -⟩ := books_answer h.books hheld
  exact ⟨made, s', .request h hheld hrun⟩

/-- At any time of any run of one allocator, the blocks that its users hold
are in use, each counted once, and the counters say what they are meant to:
small blocks in use are the small ones that are held; cut blocks are in use
or wait on a list; cut blocks and hits of the lists make up the small blocks
that were handed out; the bytes of large blocks are those of the large ones
that are held, and the layer of the arenas is told as much; and arenas and
large blocks together stay within the limit, if there is one. -/
theorem balanced_of_run {process : Process} {history : History}
    (h : Run ⟨.new settings, process⟩ history s) :
    ((held history).Nodup ∧ ∀ a ∈ held history, s.process.Live a) ∧
      s.allocator.inUse = s.process.smallCount (held history) ∧
      s.allocator.carved = s.allocator.inUse + ∑ cls : SizeClass, s.allocator.freeCount cls ∧
      s.allocator.carved + s.allocator.hits = drawn history ∧
      s.allocator.heapLive = s.process.largeBytes (held history) ∧
      s.allocator.arenas.reserved = s.allocator.heapLive ∧
      ∀ limit, settings.memoryLimit = some limit →
        s.allocator.arenas.total + s.allocator.heapLive ≤ limit := by
  have hbooks := h.books
  refine ⟨⟨hbooks.once, hbooks.live⟩, hbooks.inUse, hbooks.carved, hbooks.drawn, hbooks.heapLive,
    hbooks.budget.reserved, fun limit hlimit => hbooks.budget.total limit ?_⟩
  rw [hbooks.settings]
  exact hlimit

/-! ### A run -/

/-- The history and the storage after more requests; there are none when one
is about a block that is not held. -/
def follow : List Request → History × Storage → Option (History × Storage)
  | [], now => some now
  | request :: rest, (past, s) =>
    if ∀ a ∈ request.target, a ∈ held past then
      match answer request s with
      | .ok made s' => follow rest ((request, made) :: past, s')
      | .error _ _ => none
    else none

/-- Requests that are followed one after the other make a run. -/
theorem run_follow {start : Storage} {requests : List Request} {past history : History}
    (h : Run start past s) (hfollow : follow requests (past, s) = some (history, s')) :
    Run start history s' := by
  induction requests generalizing past s with
  | nil =>
    cases hfollow
    exact h
  | cons request rest ih =>
    simp only [follow] at hfollow
    split at hfollow
    · rename_i hheld
      split at hfollow
      · rename_i made next hrun
        exact ih (.request h hheld hrun) hfollow
      · cases hfollow
    · cases hfollow

/-- A block is handed out, moves to another class and, enlarged once more,
to the system; a second one takes its first place. -/
def errand : Option (History × Storage) :=
  follow [.malloc 16, .realloc (some 0) 100, .realloc (some 1) 2000, .malloc 10]
    ([], ⟨.new ⟨4096, 4096, some 8192⟩, { system := .bounded 8192 }⟩)

/-- One small block and one large one are held then, and the figures are two
blocks cut, one hit, and 4096 bytes of arenas besides the 2000 of the large
block. -/
theorem balanced_errand : ∃ history s, errand = some (history, s) ∧
    Run ⟨.new ⟨4096, 4096, some 8192⟩, { system := .bounded 8192 }⟩ history s ∧
    held history = [0, 2] ∧ s.allocator.inUse = 1 ∧ s.allocator.carved = 2 ∧
    s.allocator.hits = 1 ∧ s.allocator.heapLive = 2000 ∧
    s.allocator.arenas.total + 2000 ≤ 8192 := by
  obtain ⟨⟨history, s⟩, hrun⟩ : ∃ now, errand = some now := Option.isSome_iff_exists.1 (by decide)
  have hread : ∀ {α : Type} (g : History × Storage → α), errand.map g = some (g (history, s)) := by
    intro α g
    rw [hrun]
    rfl
  have hreach := run_follow .start hrun
  obtain ⟨-, hinUse, hcarved, hdrawn, hlive, -, htotal⟩ := balanced_of_run hreach
  have hheld : held history = [0, 2] :=
    Option.some.inj ((hread fun now => held now.1).symm.trans (by decide))
  have hsmall : s.process.smallCount [0, 2] = 1 :=
    Option.some.inj ((hread fun now => now.2.process.smallCount [0, 2]).symm.trans (by decide))
  have hlarge : s.process.largeBytes [0, 2] = 2000 :=
    Option.some.inj ((hread fun now => now.2.process.largeBytes [0, 2]).symm.trans (by decide))
  have hcount : drawn history = 3 :=
    Option.some.inj ((hread fun now => drawn now.1).symm.trans (by decide))
  have hhits : s.allocator.hits = 1 :=
    Option.some.inj ((hread fun now => now.2.allocator.hits).symm.trans (by decide))
  rw [hheld, hsmall] at hinUse
  rw [hheld, hlarge] at hlive
  have hle := htotal 8192 rfl
  rw [hlive] at hle
  exact ⟨history, s, hrun, hreach, hheld, hinUse, by omega, hhits, hlive, hle⟩

end Storage

end ExtensionHost
