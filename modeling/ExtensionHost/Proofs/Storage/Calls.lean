import ExtensionHost.Proofs.Storage.FreeLists
import ExtensionHost.Storage.Machine

/-!
# `ExtensionHost.Proofs.Storage.Calls`: all that a call can do

A request reaches the memory of the process by one of three ways: as a call
to an allocator, through the entry points that go through the allocator of
the thread, or through the raw ones. On each way it ends in the allocator
or in the system. `Storage.RequestEffect` lists what the allocator does then, and
`Process.RequestEffect` what happens without it; both name the block that goes out
of use and the block that comes into use. `Memory.effect_answer` says that every
request about blocks in use is answered, and that what was done is on one
of the two lists.

Blocks are also written and events reported on the way. Nothing that is
said about the marks in front of blocks depends on either, so this is left
out of the lists: `Process.Alike` holds between the memory after the entry
on the list and the memory after the call.
-/

set_option autoImplicit false

namespace ExtensionHost

/-! ### Requests -/

namespace Request

/-- The block that a request gives back or resizes. -/
def target : Request → Option Address
  | malloc _ | calloc _ _ => none
  | realloc block _ => block
  | free block => some block

/-- The bytes that a request asks for. An allocator takes the size of a
zeroed block alone. -/
def bytes (server : Server) : Request → Nat
  | malloc size | realloc _ size => size
  | calloc count size => if server = .own then size else count * size
  | free _ => 0

/-- The block that is not in use as it was when a request has been answered. -/
def ended : Request → Option Address → Option Address
  | free a, _ => some a
  | realloc (some a) _, some _ => some a
  | _, _ => none

/-- A request to resize nothing ends no block. -/
theorem ended_realloc_none (size : Nat) (made : Option Address) :
    (realloc none size).ended made = none := by
  cases made <;> rfl

/-- Only the block that a request is about ends. -/
theorem target_of_ended {request : Request} {made : Option Address} {a : Address}
    (h : request.ended made = some a) : request.target = some a := by
  cases request with
  | malloc size => cases h
  | calloc count size => cases h
  | realloc block size =>
    cases block with
    | none => rw [ended_realloc_none] at h; cases h
    | some b =>
      cases made with
      | none => cases h
      | some c => exact h
  | free b => exact h

end Request

/-! ### The same marks -/

namespace Process

/-- Blocks hold something else or events were reported, and nothing more has
changed. -/
structure Alike (p p' : Process) : Prop where
  kind : ∀ a, p'.kind a = p.kind a
  site : ∀ a, p'.site a = p.site a
  size : p'.blocks.size = p.blocks.size
  requests : p'.requests = p.requests
  orphans : p'.orphans = p.orphans
  heapBlocks : p'.heapBlocks = p.heapBlocks
  heapBytes : p'.heapBytes = p.heapBytes

variable {p p' p'' : Process}

/-- A process is like itself. -/
theorem Alike.refl (p : Process) : p.Alike p :=
  ⟨fun _ => rfl, fun _ => rfl, rfl, rfl, rfl, rfl, rfl⟩

/-- A report leaves a process like it was. -/
theorem Alike.report (h : p.Alike p') (event : Event) : p.Alike (p'.report event) :=
  ⟨h.kind, h.site, h.size, h.requests, h.orphans, h.heapBlocks, h.heapBytes⟩

/-- Writing to a block leaves the marks alike. -/
theorem Alike.modifyPayload (h : p.Alike p') (a : Address) (f : Payload → Payload) :
    p.Alike (p'.modifyPayload a f) where
  kind b := (kind_modifyPayload _ _ _ _).trans (h.kind b)
  site b := (site_modifyPayload _ _ _ _).trans (h.site b)
  size := (size_modifyPayload _ _ _).trans h.size
  requests := h.requests
  orphans := h.orphans
  heapBlocks := h.heapBlocks
  heapBytes := h.heapBytes

end Process

/-! ### With the allocator -/

namespace Storage

/-- What an allocator does when `size` bytes are asked for: which block goes
out of use, which one comes into use, and the storage afterwards. -/
inductive RequestEffect (s : Storage) (size : Nat) :
    Option Address → Option Address → Storage → Prop
  | served {made : Option Address} {s' : Storage} (h : Served s size made s') :
      RequestEffect s size none made s'
  | resized {a b : Address} {s' : Storage} (h : Resized s a size (some b) s') :
      RequestEffect s size (some a) (some b) s'
  | unresized {a : Address} {s' : Storage} (h : Resized s a size none s') :
      RequestEffect s size none none s'
  | freed {a : Address} {s' : Storage} (h : Freed s a s') : RequestEffect s size (some a) none s'

/-- The allocator is the same, and so are the marks. -/
structure Alike (s s' : Storage) : Prop where
  allocator : s'.allocator = s.allocator
  process : s.process.Alike s'.process

/-- A storage is like itself. -/
theorem Alike.refl (s : Storage) : s.Alike s := ⟨rfl, .refl _⟩

/-- The answer of an allocator to a request. -/
def answer (request : Request) : Operation Storage (Option Address) := fun s =>
  match request with
  | .malloc size | .realloc none size => let (made, s) := s.alloc size; .ok made s
  | .calloc _ size => let (made, s) := s.allocZeroed size; .ok made s
  | .realloc (some a) size => realloc a size s
  | .free a =>
    match free a s with
    | .ok () s => .ok none s
    | .error fault s => .error fault s

/-- It is what a machine does with a request to the allocator that belongs
to no thread. -/
theorem request_own (request : Request) :
    Machine.request .own request = Machine.runOwn (answer request) := by
  cases request with
  | malloc size => rfl
  | calloc count size => rfl
  | realloc block size => cases block <;> rfl
  | free block =>
    funext m
    show EStateM.bind (Machine.runOwn (free block)) (fun _ => EStateM.pure none) m = _
    cases hfree : free block ⟨m.own, m.memory.process⟩ with
    | ok _ s => simp only [EStateM.bind, Machine.runOwn, answer, hfree, EStateM.pure]
    | error fault s => simp only [EStateM.bind, Machine.runOwn, answer, hfree]

variable {s s' : Storage} {a b : Address} {size : Nat} {made : Option Address}

/-- An answer that ends no block hands one out, or nothing. -/
theorem RequestEffect.hands (h : s.RequestEffect size none made s')
    (hlisted : s.allocator.Listed s.process) :
    s.process.Hands size made s'.process := by
  cases h with
  | served hserved => exact hserved.hands hlisted
  | unresized hresized =>
    cases hresized with
    | unmoved hserved => exact hserved.hands hlisted
    | refused hsame => exact hsame.hands size

/-- An answer that ends a block and hands one out has moved it. -/
theorem RequestEffect.moves (h : s.RequestEffect size (some a) (some b) s')
    (hlive : s.process.Live a)
    (hlisted : s.allocator.Listed s.process) : s.process.Moves a size (some b) s'.process := by
  cases h with
  | resized hresized => exact hresized.moves hlive hlisted

/-- An answer that only ends a block has freed it. -/
theorem RequestEffect.frees (h : s.RequestEffect size (some a) none s') :
    s.process.Frees a s'.process := by
  cases h with
  | freed hfreed => exact hfreed.frees

/-- Whatever an allocator does, its lists stay in order. -/
theorem RequestEffect.listed {ended : Option Address} (h : s.RequestEffect size ended made s')
    (hlisted : s.allocator.Listed s.process) : s'.allocator.Listed s'.process := by
  cases h with
  | served hserved => exact hserved.listed hlisted
  | resized hresized => exact hresized.listed hlisted
  | unresized hresized => exact hresized.listed hlisted
  | freed hfreed => exact hfreed.listed hlisted

/-- An allocator answers every request about blocks in use. -/
theorem effect_answer (hlisted : s.allocator.Listed s.process) (request : Request)
    (hlive : ∀ a, request.target = some a → s.process.Live a) :
    ∃ made s₁ s', answer request s = .ok made s' ∧
      s.RequestEffect (request.bytes .own) (request.ended made) made s₁ ∧ s₁.Alike s' := by
  cases request with
  | malloc size =>
    cases hrun : s.alloc size with
    | mk made s' =>
      exact ⟨made, s', s', by simp only [answer, hrun], .served (served_alloc hrun), .refl _⟩
  | calloc count size =>
    cases hrun : s.allocZeroed size with
    | mk made s' =>
      obtain ⟨s₁, hserved, hzeroed⟩ := allocZeroed_cases hrun
      refine ⟨made, s₁, s', by simp only [answer, hrun], .served hserved, ?_⟩
      -- zeros are written after the request, and only if there is a block
      rcases hzeroed with ⟨-, rfl⟩ | ⟨a, -, rfl⟩
      · exact .refl _
      · exact ⟨rfl, (Process.Alike.refl s₁.process).modifyPayload a (·.zero size)⟩
  | realloc block size =>
    cases block with
    | none =>
      cases hrun : s.alloc size with
      | mk made s' =>
        refine ⟨made, s', s', by simp only [answer, hrun], ?_, .refl _⟩
        rw [Request.ended_realloc_none]
        exact .served (served_alloc hrun)
    | some a =>
      obtain ⟨moved, s', hrun, hresized⟩ := resized_realloc (hlive a rfl) hlisted size
      refine ⟨moved, s', s', hrun, ?_, .refl _⟩
      cases moved with
      | none => exact .unresized hresized
      | some b => exact .resized hresized
  | free a =>
    obtain ⟨s', hrun, hfreed⟩ := freed_free (hlive a rfl)
    exact ⟨none, s', s', by simp only [answer, hrun], .freed hfreed, .refl _⟩

end Storage

/-! ### Without the allocator -/

/-- What happens when `size` bytes are asked for and no allocator is there:
which block goes out of use, which one comes into use, and the memory
afterwards. -/
inductive Process.RequestEffect (p : Process) (size : Nat) :
    Option Address → Option Address → Process → Prop
  | made {made : Option Address} {p' : Process} (h : p.heapAlloc size = (made, p')) :
      RequestEffect p size none made p'
  | refused {p' : Process} (h : p.SameBut p') : RequestEffect p size none none p'
  /-- The system resizes a large block. -/
  | resized {a b : Address} {old : Nat} {p' : Process} (hkind : p.kind a = .heap old)
      (h : p.heapRealloc a old size = (some b, p')) : RequestEffect p size (some a) (some b) p'
  /-- A small block moves to a region of its own, and its place is retired. -/
  | evicted {a b : Address} {cls : SizeClass} {p₁ : Process} (hkind : p.kind a = .pool cls)
      (h : p.heapAlloc size = (some b, p₁)) :
      RequestEffect p size (some a) (some b)
        ((p₁.modifyPayload b (·.copyFrom (p₁.payload a) (min cls.bytes size))).setKind a
          (.freed cls))
  | returned {a : Address} {old : Nat} (hkind : p.kind a = .heap old) :
      RequestEffect p size (some a) none (p.heapFree a old)
  | retired {a : Address} {cls : SizeClass} (hkind : p.kind a = .pool cls) :
      RequestEffect p size (some a) none (p.setKind a (.freed cls))

namespace Process

variable {p p' : Process} {a b : Address} {size : Nat} {made : Option Address}

/-- A small block that moves to the system is still marked as in use when it
is retired. -/
theorem kind_evicted {cls : SizeClass} {p₁ : Process} (f : Payload → Payload)
    (hkind : p.kind a = .pool cls) (h : p.heapAlloc size = (some b, p₁)) :
    (p₁.modifyPayload b f).kind a = .pool cls := by
  have hba : b ≠ a := by
    rintro rfl
    exact (hands_heapAlloc h).fresh b rfl (live_pool hkind)
  rw [kind_modifyPayload, kind_congr ((hands_heapAlloc h).others a (by simpa using hba)), hkind]

/-- A freed block goes on waiting when a large block is made. -/
theorem freed_heapAlloc {cls : SizeClass} (h : p.heapAlloc size = (made, p'))
    (hb : p.kind b = .freed cls) : p'.kind b = .freed cls := by
  have hlt : b < p.blocks.size := lt_size_of_kind (by rw [hb]; nofun)
  rcases heapAlloc_cases h with ⟨-, hsame⟩ | ⟨-, rfl⟩
  · exact (kind_congr (by rw [hsame.blocks])).trans hb
  · refine Eq.trans (kind_congr ?_) hb
    simp only [withLarge, Array.getElem?_push, if_neg (Nat.ne_of_lt hlt)]

/-- A freed block goes on waiting when another one is freed. -/
theorem Frees.waits {cls : SizeClass} (h : p.Frees a p') (ha : p.Live a)
    (hb : p.kind b = .freed cls) : p'.kind b = .freed cls := by
  have hba : b ≠ a := by
    rintro rfl
    exact not_live_freed hb ha
  exact (kind_congr (h.others b hba)).trans hb

/-- What waits goes on waiting when an allocator is not there. -/
theorem RequestEffect.waits {ended : Option Address} {cls : SizeClass}
    (h : p.RequestEffect size ended made p')
    (hb : p.kind b = .freed cls) : p'.kind b = .freed cls := by
  cases h with
  | made hmade => exact freed_heapAlloc hmade hb
  | refused hsame => exact (kind_congr (by rw [hsame.blocks])).trans hb
  | resized hkind hheap => exact freed_heapRealloc hheap hkind hb
  | @evicted a c cls₁ p₁ hkind hmade =>
    -- the block that is retired last was in use, so it is not the one that waits
    have hlive := live_pool (kind_evicted
      (·.copyFrom (p₁.payload a) (min cls₁.bytes size)) hkind hmade)
    refine (frees_setKind (lt_size_of_live hlive) cls₁).waits hlive ?_
    exact (kind_modifyPayload _ _ _ _).trans (freed_heapAlloc hmade hb)
  | returned hkind =>
    have hlive := live_heap hkind
    exact (frees_heapFree (lt_size_of_live hlive) _).waits hlive hb
  | retired hkind =>
    have hlive := live_pool hkind
    exact (frees_setKind (lt_size_of_live hlive) _).waits hlive hb

/-- Without an allocator too, an answer that ends no block hands one out, or nothing. -/
theorem RequestEffect.hands (h : p.RequestEffect size none made p') : p.Hands size made p' := by
  cases h with
  | made hmade => exact hands_heapAlloc hmade
  | refused hsame => exact hsame.hands size

/-- Without an allocator too, an answer that ends a block and hands one out has moved it. -/
theorem RequestEffect.moves (h : p.RequestEffect size (some a) (some b) p') :
    p.Moves a size (some b) p' := by
  cases h with
  | resized hkind hheap => exact moves_heapRealloc hheap hkind
  | @evicted _ _ cls p₁ hkind hmade =>
    have hlive := live_pool (kind_evicted
      (·.copyFrom (p₁.payload a) (min cls.bytes size)) hkind hmade)
    exact (hands_heapAlloc hmade).moves (unwritten_heapAlloc hmade) (live_pool hkind)
      (by rw [hkind]; rfl) (frees_setKind (lt_size_of_live hlive) _)

/-- Without an allocator too, an answer that only ends a block has freed it. -/
theorem RequestEffect.frees (h : p.RequestEffect size (some a) none p') : p.Frees a p' := by
  cases h with
  | returned hkind => exact frees_heapFree (lt_size_of_live (live_heap hkind)) _
  | retired hkind => exact frees_setKind (lt_size_of_live (live_pool hkind)) _

end Process

/-! ### What a thread sees -/

namespace Memory

/-- The lists of the thread's allocator are in order. -/
def Sound (m : Memory) : Prop := m.theAllocator.Listed m.process

/-- An operation on the storage that a thread sees leaves the rest of its memory. -/
theorem onStorage_ok {m : Memory} {α : Type} {operation : Operation Storage α} {x : α}
    {s : Storage} (h : operation m.storage = .ok x s) :
    onStorage operation m = .ok x (m.withStorage s) := by
  simp only [onStorage, h]
  rfl

/-- What is done to the storage that a thread sees, by its allocator or
without it. -/
inductive RequestEffect (m : Memory) (size : Nat) (ended made : Option Address) :
    Bool → Memory → Prop
  | pooled {s : Storage} (h : m.storage.RequestEffect size ended made s) :
      RequestEffect m size ended made true (m.withStorage s)
  | unpooled {p : Process} (h : m.process.RequestEffect size ended made p) :
      RequestEffect m size ended made false { m with process := p }

/-- The allocator is the same, and so are the marks. -/
structure Alike (m m' : Memory) : Prop where
  allocator : m'.allocator = m.allocator
  lent : m'.lent = m.lent
  installed : m'.installed = m.installed
  process : m.process.Alike m'.process

/-- The answer to a request that a thread makes. Its allocator can be called
directly, too. -/
def answer (server : Server) (request : Request) : Operation Memory (Option Address) := fun m =>
  match server, request with
  | .own, request => onStorage (Storage.answer request) m
  | .thread, .malloc size => let (made, m) := m.malloc size; .ok made m
  | .thread, .calloc count size => let (made, m) := m.calloc count size; .ok made m
  | .thread, .realloc block size => realloc block size m
  | .thread, .free a =>
    match free a m with
    | .ok () m => .ok none m
    | .error fault m => .error fault m
  | .raw, .malloc size => let (made, m) := m.rawMalloc size; .ok made m
  | .raw, .calloc count size => let (made, m) := m.rawCalloc count size; .ok made m
  | .raw, .realloc block size => rawRealloc block size m
  | .raw, .free a =>
    match rawFree a m with
    | .ok () m => .ok none m
    | .error fault m => .error fault m

/-- A release has no answer of its own. -/
theorem runMemory_release (operation : Operation Memory Unit) :
    (do Machine.runMemory operation; return (none : Option Address)) =
      Machine.runMemory fun m =>
        match operation m with
        | .ok () m => .ok none m
        | .error fault m => .error fault m := by
  funext m
  show EStateM.bind (Machine.runMemory operation) (fun _ => EStateM.pure none) m = _
  cases hrun : operation m.memory with
  | ok _ memory => simp only [EStateM.bind, Machine.runMemory, hrun, EStateM.pure]
  | error fault memory => simp only [EStateM.bind, Machine.runMemory, hrun]

/-- It is what a machine does with a request to an entry point. -/
theorem request_entry {server : Server} (hserver : server ≠ .own) (request : Request) :
    Machine.request server request = Machine.runMemory (answer server request) := by
  cases server with
  | own => exact absurd rfl hserver
  | thread =>
    cases request with
    | malloc size => rfl
    | calloc count size => rfl
    | realloc block size => rfl
    | free a => exact runMemory_release (free a)
  | raw =>
    cases request with
    | malloc size => rfl
    | calloc count size => rfl
    | realloc block size => rfl
    | free a => exact runMemory_release (rawFree a)

/-- Whether a request is for the allocator to answer. The raw entry points
leave small blocks to it. -/
def through (m : Memory) (server : Server) (request : Request) : Bool :=
  match server, request with
  | .own, _ => true
  | .thread, _ => !m.lent
  | .raw, .malloc _ | .raw, .calloc _ _ | .raw, .realloc none _ => false
  | .raw, .realloc (some a) _ | .raw, .free a =>
    match m.process.kind a with
    | .heap _ => false
    | .pool _ | .freed _ | .foreign => !m.lent

variable {m m' : Memory} {a : Address} {count size : Nat} {made : Option Address}

/-- A memory is like itself. -/
theorem Alike.refl (m : Memory) : m.Alike m := ⟨rfl, rfl, rfl, .refl _⟩

/-- A report leaves a memory like it was. -/
theorem Alike.report (h : m.Alike m') (event : Event) : m.Alike (m'.report event) :=
  ⟨h.allocator, h.lent, h.installed, h.process.report event⟩

/-- Writing to a block leaves a memory like it was, but for the bytes. -/
theorem Alike.modifyPayload (h : m.Alike m') (a : Address) (f : Payload → Payload) :
    m.Alike { m' with process := m'.process.modifyPayload a f } :=
  ⟨h.allocator, h.lent, h.installed, h.process.modifyPayload a f⟩

/-- An entry point that ends no block hands one out, or nothing, whoever answers. -/
theorem RequestEffect.hands {through : Bool} (h : m.RequestEffect size none made through m')
    (hsound : m.Sound) :
    m.process.Hands size made m'.process := by
  cases h with
  | pooled heffect => exact heffect.hands hsound
  | unpooled heffect => exact heffect.hands

/-- An entry point that ends a block and hands one out has moved it, whoever answers. -/
theorem RequestEffect.moves {through : Bool} {b : Address}
    (h : m.RequestEffect size (some a) (some b) through m')
    (hlive : m.process.Live a) (hsound : m.Sound) :
    m.process.Moves a size (some b) m'.process := by
  cases h with
  | pooled heffect => exact heffect.moves hlive hsound
  | unpooled heffect => exact heffect.moves

/-- An entry point that only ends a block has freed it, whoever answers. -/
theorem RequestEffect.frees {through : Bool} (h : m.RequestEffect size (some a) none through m') :
    m.process.Frees a m'.process := by
  cases h with
  | pooled heffect => exact heffect.frees
  | unpooled heffect => exact heffect.frees

/-- Whatever is done, the lists of the thread's allocator stay in order. -/
theorem RequestEffect.sound {ended : Option Address} {through : Bool}
    (h : m.RequestEffect size ended made through m') (hsound : m.Sound) : m'.Sound := by
  cases h with
  | pooled heffect => exact heffect.listed hsound
  | unpooled heffect => exact Allocator.Listed.of_others hsound fun b cls hb => heffect.waits hb

/-- What is handed out is in use. -/
theorem RequestEffect.live {through : Bool} {ended : Option Address}
    (h : m.RequestEffect size ended (some a) through m') (hsound : m.Sound)
    (hended : ∀ b, ended = some b → m.process.Live b) : m'.process.Live a := by
  cases ended with
  | none => exact (h.hands hsound).live a rfl
  | some b => exact (h.moves (hended b rfl) hsound).live a rfl

/-- No block is touched but the one that ends and the one that is handed
out. -/
theorem RequestEffect.others {through : Bool} {ended : Option Address} {c : Address}
    (h : m.RequestEffect size ended made through m') (hsound : m.Sound)
    (hended : ∀ a, ended = some a → m.process.Live a) (hne : ended ≠ some c)
    (hmade : made ≠ some c) : m'.process.blocks[c]? = m.process.blocks[c]? := by
  cases ended with
  | none => exact (h.hands hsound).others c hmade
  | some a =>
    have hca : c ≠ a := fun heq => hne (by rw [heq])
    cases made with
    | none => exact h.frees.others c hca
    | some b => exact (h.moves (hended a rfl) hsound).others c hca hmade

/-- A block in use that a request does not end stays as it is, and is not
handed out. -/
theorem RequestEffect.kept {through : Bool} {ended : Option Address} {c : Address}
    (h : m.RequestEffect size ended made through m') (hsound : m.Sound)
    (hended : ∀ a, ended = some a → m.process.Live a) (hc : m.process.Live c)
    (hne : ended ≠ some c) : made ≠ some c ∧ m'.process.blocks[c]? = m.process.blocks[c]? := by
  have hmade : made ≠ some c := by
    rintro rfl
    cases ended with
    | none => exact (h.hands hsound).fresh c rfl hc
    | some a =>
      have hca : c ≠ a := fun heq => hne (by rw [heq])
      exact ((h.moves (hended a rfl) hsound).fresh c rfl hca).1 hc
  exact ⟨hmade, h.others hsound hended hne hmade⟩

/-! ### Ways to an answer

Each entry point is taken apart once, into an entry of a list and what is
written and reported besides. -/

/-- A request is answered by the allocator of the thread, or by the system while that is
lent out. -/
theorem effect_serve (h : m.serve size = (made, m')) :
    m.RequestEffect size none made (!m.lent) m' := by
  rw [serve] at h
  cases hlent : m.lent with
  | true =>
    rw [hlent, if_pos rfl] at h
    cases hrun : m.process.heapAlloc size with
    | mk found p =>
      simp only [onProcess, hrun] at h
      cases h
      exact .unpooled (.made hrun)
  | false =>
    rw [if_neg (by rw [hlent]; nofun)] at h
    cases hrun : m.storage.alloc size with
    | mk found s =>
      simp only [hrun] at h
      cases h
      exact .pooled (.served (Storage.served_alloc hrun))

/-- A request that is served may report something besides. -/
theorem effect_malloc (h : m.malloc size = (made, m')) :
    ∃ m₁, m.RequestEffect size none made (!m.lent) m₁ ∧ m₁.Alike m' := by
  rw [malloc] at h
  cases hserve : m.serve size with
  | mk found m₁ =>
    rw [hserve] at h
    cases found with
    | none =>
      cases h
      exact ⟨_, effect_serve hserve, .refl _⟩
    | some a =>
      cases h
      exact ⟨m₁, effect_serve hserve, (Alike.refl m₁).report _⟩

/-- A product that is no size is refused before anybody is asked. -/
theorem effect_calloc (h : m.calloc count size = (made, m')) :
    ∃ m₁ through, m.RequestEffect (count * size) none made through m₁ ∧ m₁.Alike m' ∧
      (through = false ∧ made = none ∨ through = !m.lent) := by
  rw [calloc] at h
  cases htotal : Size.mul? count size with
  | none =>
    rw [htotal] at h
    cases h
    exact ⟨m, false, .unpooled (.refused (.refl _)), .refl _, .inl ⟨rfl, rfl⟩⟩
  | some total =>
    obtain ⟨-, rfl⟩ := Size.mul?_eq_some.1 htotal
    rw [htotal] at h
    simp only [serveZeroed] at h
    cases hserve : m.serve (count * size) with
    | mk found m₁ =>
      rw [hserve] at h
      cases found with
      | none =>
        cases h
        exact ⟨_, _, effect_serve hserve, .refl _, .inr rfl⟩
      | some a =>
        cases h
        exact ⟨m₁, _, effect_serve hserve, ((Alike.refl m₁).modifyPayload _ _).report _, .inr rfl⟩

/-- The system resizes a large block, or refuses to. -/
theorem effect_heapRealloc {moved : Option Address} {old : Nat} {p : Process}
    (hkind : m.process.kind a = .heap old) (h : m.process.heapRealloc a old size = (moved, p)) :
    m.RequestEffect size ((Request.realloc (some a) size).ended moved) moved false
      { m with process := p } := by
  cases moved with
  | none =>
    rcases Process.heapRealloc_cases h with ⟨-, hsame⟩ | ⟨hb, -⟩ | ⟨hb, -⟩
    · exact .unpooled (.refused hsame)
    · cases hb
    · cases hb
  | some b => exact .unpooled (.resized hkind h)

/-- A resize without the allocator is answered, and the allocator has no part in it. -/
theorem effect_reallocUnpooled (ha : m.process.Live a) (size : Nat) :
    ∃ moved m', reallocUnpooled a size m = .ok moved m' ∧
      m.RequestEffect size ((Request.realloc (some a) size).ended moved) moved false m' := by
  rcases Process.live_cases ha with ⟨cls, hkind⟩ | ⟨old, hkind⟩
  · cases hmade : m.process.heapAlloc size with
    | mk made p =>
      cases made with
      | none =>
        refine ⟨none, { m with process := p }, ?_, .unpooled (.made hmade)⟩
        simp only [reallocUnpooled, hkind, onProcess, hmade]
      | some b =>
        refine ⟨some b, _, ?_, .unpooled (.evicted hkind hmade)⟩
        simp only [reallocUnpooled, hkind, onProcess, hmade]
  · cases hmoved : m.process.heapRealloc a old size with
    | mk moved p =>
      refine ⟨moved, { m with process := p }, ?_, effect_heapRealloc hkind hmoved⟩
      simp only [reallocUnpooled, hkind, onProcess, hmoved]

/-- A resize of a block in use is answered. -/
theorem effect_realloc (h : m.Sound) (ha : m.process.Live a) (size : Nat) :
    ∃ moved m', realloc (some a) size m = .ok moved m' ∧
      m.RequestEffect size ((Request.realloc (some a) size).ended moved) moved (!m.lent) m' := by
  cases hlent : m.lent with
  | true =>
    obtain ⟨moved, m', hrun, heffect⟩ := effect_reallocUnpooled ha size
    exact ⟨moved, m', by simp only [realloc, hlent, if_true, hrun], heffect⟩
  | false =>
    obtain ⟨moved, s, hrun, hresized⟩ := Storage.resized_realloc (s := m.storage) ha h size
    refine ⟨moved, m.withStorage s, ?_, .pooled ?_⟩
    · show (if m.lent then _ else _) = _
      rw [if_neg (by rw [hlent]; nofun), onStorage_ok hrun]
    · cases moved with
      | none => exact .unresized hresized
      | some b => exact .resized hresized

/-- A release is reported. -/
theorem effect_free (ha : m.process.Live a) : ∃ m₁, free a m = .ok () (m₁.report .blockFreed) ∧
    m.RequestEffect 0 (some a) none (!m.lent) m₁ ∧ m₁.process.events = m.process.events := by
  cases hlent : m.lent with
  | true =>
    rcases Process.live_cases ha with ⟨cls, hkind⟩ | ⟨old, hkind⟩
    · have hkind' : (m.report .blockFreed).process.kind a = .pool cls := hkind
      refine ⟨_, ?_, .unpooled (.retired hkind), rfl⟩
      show (if m.lent then _ else _) = _
      rw [if_pos hlent]
      simp only [freeUnpooled, hkind']
      rfl
    · have hkind' : (m.report .blockFreed).process.kind a = .heap old := hkind
      refine ⟨_, ?_, .unpooled (.returned hkind), rfl⟩
      show (if m.lent then _ else _) = _
      rw [if_pos hlent]
      simp only [freeUnpooled, hkind']
      rfl
  | false =>
    -- the event is reported first, but the allocator does not look at events
    have hrun {s : Storage} (h : Storage.free a (m.report .blockFreed).storage = .ok () s) :
        free a m = .ok () ((m.report .blockFreed).withStorage s) := by
      show (if m.lent then _ else _) = _
      rw [if_neg (by rw [hlent]; nofun), onStorage_ok h]
    rcases Process.live_cases ha with ⟨cls, hkind⟩ | ⟨old, hkind⟩
    · exact ⟨m.withStorage (m.storage.withFreed a cls), hrun (Storage.free_pool hkind),
        .pooled (.freed (.pool hkind)), rfl⟩
    · exact ⟨m.withStorage (m.storage.withReturned a old), hrun (Storage.free_heap hkind),
        .pooled (.freed (.heap hkind)), rfl⟩

/-- A raw request for zeroed bytes is answered by the system, and then the bytes are zeroed. -/
theorem effect_rawCalloc (h : m.rawCalloc count size = (made, m')) :
    ∃ m₁, m.RequestEffect (count * size) none made false m₁ ∧ m₁.Alike m' := by
  rw [rawCalloc] at h
  cases htotal : Size.mul? count size with
  | none =>
    rw [htotal] at h
    cases h
    exact ⟨m, .unpooled (.refused (.refl _)), .refl _⟩
  | some total =>
    obtain ⟨-, rfl⟩ := Size.mul?_eq_some.1 htotal
    rw [htotal] at h
    cases hrun : m.process.heapAlloc (count * size) with
    | mk found p =>
      have heffect : m.RequestEffect (count * size) none found false { m with process := p } :=
        .unpooled (.made hrun)
      simp only [onProcess, hrun] at h
      cases found with
      | none =>
        cases h
        exact ⟨_, heffect, .refl _⟩
      | some a =>
        cases h
        exact ⟨_, heffect, (Alike.refl _).modifyPayload a (·.zero (count * size))⟩

/-- A large block is resized by the system, and a small one as any other
request would have it. -/
theorem effect_rawRealloc (h : m.Sound) (ha : m.process.Live a) (size : Nat) :
    ∃ moved m', rawRealloc (some a) size m = .ok moved m' ∧
      m.RequestEffect size ((Request.realloc (some a) size).ended moved) moved
        (m.through .raw (.realloc (some a) size)) m' := by
  rcases Process.live_cases ha with ⟨cls, hkind⟩ | ⟨old, hkind⟩
  · obtain ⟨moved, m', hrun, heffect⟩ := effect_realloc h ha size
    refine ⟨moved, m', by simp only [rawRealloc, hkind, hrun], ?_⟩
    simp only [through, hkind]
    exact heffect
  · cases hmoved : m.process.heapRealloc a old size with
    | mk moved p =>
      refine ⟨moved, { m with process := p }, by
        simp only [rawRealloc, hkind, onProcess, hmoved], ?_⟩
      simp only [through, hkind]
      exact effect_heapRealloc hkind hmoved

/-- A raw release of a block in use is answered. -/
theorem effect_rawFree (ha : m.process.Live a) : ∃ m₁ m', rawFree a m = .ok () m' ∧
    m.RequestEffect 0 (some a) none (m.through .raw (.free a)) m₁ ∧ m₁.Alike m' := by
  rcases Process.live_cases ha with ⟨cls, hkind⟩ | ⟨old, hkind⟩
  · obtain ⟨m₁, hrun, heffect, -⟩ := effect_free ha
    refine ⟨m₁, _, by simp only [rawFree, hkind, hrun], ?_, (Alike.refl m₁).report .blockFreed⟩
    simp only [through, hkind]
    exact heffect
  · refine ⟨_, _, by simp only [rawFree, hkind]; rfl, ?_, .refl _⟩
    simp only [through, hkind]
    exact .unpooled (.returned hkind)

/-- Every request about blocks in use is answered, and what is done then is
on one of the lists: on that of the allocator, if the request is for it to
answer, unless it is refused before anybody is asked. -/
theorem effect_answer (h : m.Sound) (server : Server) (request : Request)
    (hlive : ∀ a, request.target = some a → m.process.Live a) :
    ∃ made m₁ m' through, answer server request m = .ok made m' ∧
      m.RequestEffect (request.bytes server) (request.ended made) made through m₁ ∧ m₁.Alike m' ∧
      (through = false ∧ made = none ∧ request.ended made = none ∨
        through = m.through server request) := by
  -- the three servers differ in who is asked, and the thread may be without its allocator
  cases server with
  | own =>
    obtain ⟨made, s₁, s', hrun, heffect, halike⟩ :=
      Storage.effect_answer (s := m.storage) h request hlive
    refine ⟨made, m.withStorage s₁, m.withStorage s', true, onStorage_ok hrun, .pooled heffect, ?_,
      .inr rfl⟩
    exact ⟨congrArg some halike.allocator, rfl, rfl, halike.process⟩
  | thread =>
    cases request with
    | malloc size =>
      cases hrun : m.malloc size with
      | mk made m' =>
        obtain ⟨m₁, heffect, halike⟩ := effect_malloc hrun
        exact ⟨made, m₁, m', _, by simp only [answer, hrun], heffect, halike, .inr rfl⟩
    | calloc count size =>
      cases hrun : m.calloc count size with
      | mk made m' =>
        obtain ⟨m₁, through, heffect, halike, hthrough⟩ := effect_calloc hrun
        exact ⟨made, m₁, m', through, by simp only [answer, hrun], heffect, halike,
          hthrough.imp_left fun ⟨hfalse, hnone⟩ => ⟨hfalse, hnone, rfl⟩⟩
    | realloc block size =>
      cases block with
      | none =>
        cases hrun : m.malloc size with
        | mk made m' =>
          obtain ⟨m₁, heffect, halike⟩ := effect_malloc hrun
          refine ⟨made, m₁, m', _, by simp only [answer, realloc, hrun], ?_, halike, .inr rfl⟩
          rw [Request.ended_realloc_none]
          exact heffect
      | some a =>
        obtain ⟨moved, m', hrun, heffect⟩ := effect_realloc h (hlive a rfl) size
        exact ⟨moved, m', m', _, by simp only [answer, hrun], heffect, .refl _, .inr rfl⟩
    | free a =>
      obtain ⟨m₁, hrun, heffect, -⟩ := effect_free (hlive a rfl)
      exact ⟨none, m₁, _, _, by simp only [answer, hrun], heffect,
        (Alike.refl m₁).report .blockFreed, .inr rfl⟩
  | raw =>
    cases request with
    | malloc size =>
      cases hrun : m.process.heapAlloc size with
      | mk made p =>
        exact ⟨made, { m with process := p }, { m with process := p }, false,
          by simp only [answer, rawMalloc, onProcess, hrun], .unpooled (.made hrun), .refl _,
          .inr rfl⟩
    | calloc count size =>
      cases hrun : m.rawCalloc count size with
      | mk made m' =>
        obtain ⟨m₁, heffect, halike⟩ := effect_rawCalloc hrun
        exact ⟨made, m₁, m', false, by simp only [answer, hrun], heffect, halike, .inr rfl⟩
    | realloc block size =>
      cases block with
      | none =>
        cases hrun : m.process.heapAlloc size with
        | mk made p =>
          refine ⟨made, { m with process := p }, { m with process := p }, false,
            by simp only [answer, rawRealloc, rawMalloc, onProcess, hrun], ?_, .refl _, .inr rfl⟩
          rw [Request.ended_realloc_none]
          exact .unpooled (.made hrun)
      | some a =>
        obtain ⟨moved, m', hrun, heffect⟩ := effect_rawRealloc h (hlive a rfl) size
        exact ⟨moved, m', m', _, by simp only [answer, hrun], heffect, .refl _, .inr rfl⟩
    | free a =>
      obtain ⟨m₁, m', hrun, heffect, halike⟩ := effect_rawFree (hlive a rfl)
      exact ⟨none, m₁, m', _, by simp only [answer, hrun], heffect, halike, .inr rfl⟩

end Memory

end ExtensionHost
