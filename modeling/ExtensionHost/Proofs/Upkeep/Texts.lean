import ExtensionHost.Proofs.Storage.Fallback
import ExtensionHost.Proofs.Upkeep.Contents

/-!
# `ExtensionHost.Proofs.Upkeep.Texts`: texts last as long as their boxes

A box made of a text lies in a block that was zeroed for it, whatever the block
held before, so the bytes of the text and the NUL behind them stand there from
the start (`Box.givesBack_newTextOf`). From then on the object is left alone, but
for its count, and so is its block, until the object ends. `World.Goes` lists all
that may happen meanwhile: operations of the interface and the steps they consist
of, requests for storage by this thread or another one, by any entry point, and
writing, as long as those who have blocks of their own keep to them.

`World.Sustains` is what each of these does for texts. It is proved with one case
for each kind of step and composes, because an object that is gone stays gone.
Misuse of the blocks of other objects is not among what may go on for ever, since
they would write to a block that is somebody else's by then. But it does no harm
to a text by itself (`Box.GivesBack.spared`).
-/

set_option autoImplicit false

namespace ExtensionHost

open World

namespace World

variable {w w' w'' : World} {r s : Ref} {object other : Object} {m : Memory} {a : Address}

/-! ### Whatever happens -/

/-- The blocks that objects lie in. -/
def Occupied (w : World) (a : Address) : Prop :=
  ∃ r object, w.object? r = some object ∧ a ∈ object.blocks

/-- Storage is put to use, and some blocks are spared: whoever makes a request gives
none of them back and resizes none, and whoever writes to a block writes to another
one, be that in use or not. -/
inductive Stores (w : World) (spared : Address → Prop) : World → Prop
  /-- A thread, this one or another, makes a request to an allocator or to the system,
  or lends its allocator, gets it back or ends. -/
  | requested {c c' : ThreadedStorage} {i : Nat} {command : ThreadedStorage.Command}
      {made : Option Address}
      (hsound : c.shared.Sound) (hview : c.view i = w.memory) (hstep : c.Step command made c')
      (hspared : ∀ a, command.ended made = some a → ¬ spared a) :
      Stores w spared (w.withMemory (c'.view i))
  | written {a : Address} (hspared : ¬ spared a) (f : Payload → Payload) :
      Stores w spared (w.written a f)

/-- How a world goes on. -/
inductive Goes (w : World) : World → Prop
  /-- By an operation of the interface, when the allocator of the thread is at hand and
  all blocks in use are those of objects. -/
  | operated {α : Type} {operation : Host α} {a : α} {w' : World} (hw : w.Provided)
      (hupkept : Upkept false operation) (hrun : operation w = .ok a w') : Goes w w'
  /-- By a single step of one, whoever else has blocks. -/
  | step {w' : World} (h : w.Step false w') : Goes w w'
  /-- Because storage is put to use that no object lies in. -/
  | stored {w' : World} (h : w.Stores w.Occupied w') : Goes w w'

/-- What happens one after the other. -/
abbrev GoesOn : World → World → Prop := Relation.ReflTransGen Goes

namespace Stores

variable {spared : Address → Prop}

/-- Use of storage that no object lies in changes no object. -/
theorem objects (h : w.Stores spared w') : w'.objects = w.objects := by cases h <;> rfl

/-- Use of storage that no object lies in leaves the lists of the allocator in order. -/
theorem sound (h : w.Stores spared w') (hmemory : w.memory.Sound) : w'.memory.Sound := by
  cases h with
  | requested hsound _ hstep _ =>
    exact ThreadedStorage.sound_view (ThreadedStorage.sound_step hsound hstep) _
  | written _ f => exact hmemory.modifyPayload _ f

/-- A block in use that is spared stays as it is. -/
theorem same (h : w.Stores spared w') (ha : spared a) (hlive : w.memory.process.Live a) :
    w'.memory.process.blocks[a]? = w.memory.process.blocks[a]? := by
  cases h with
  | @requested c c' i command made hsound hview hstep hspared =>
    rw [← hview] at hlive ⊢
    exact (ThreadedStorage.kept_step hsound hstep hlive fun hended => hspared a hended ha).2
  | written hspared f =>
    refine Process.getElem?_modifyPayload_of_ne ?_ f
    rintro rfl
    exact hspared ha

/-- Those of objects are in use. -/
theorem same_of_occupied (h : w.Stores w.Occupied w') (hw : w.Housed) (s : Ref) (other : Object)
    (hs : w.object? s = some other) (a : Address) (ha : a ∈ other.blocks) :
    w'.memory.process.blocks[a]? = w.memory.process.blocks[a]? :=
  h.same ⟨s, other, hs, ha⟩ ((hw.housed s other hs).live a ha)

end Stores

/-- However a world goes on, objects stay where they belong and texts are sustained. -/
theorem Goes.sustains (h : w.Goes w') (hw : w.Housed) : w'.Housed ∧ w.Sustains w' := by
  cases h with
  | operated hprovided hupkept hrun =>
    exact Steps.sustains (hupkept.traces _ _ _ hprovided hrun) hw
  | step h => exact ⟨h.housed hw, h.sustains hw⟩
  | stored h =>
    have hsame := h.same_of_occupied hw
    exact ⟨hw.of_memory h.objects (h.sound hw.memory) hsame, sustains_of_storage h.objects hsame⟩

/-- Objects stay in blocks of their own, so nobody else ever comes to write to the
block of a text. -/
theorem GoesOn.sustains (h : w.GoesOn w') (hw : w.Housed) : w'.Housed ∧ w.Sustains w' :=
  sustains_of_each Goes.sustains h hw

/-- What is done to storage one after the other, if only one block is spared. -/
abbrev StoresBeside (a : Address) : World → World → Prop :=
  Relation.ReflTransGen fun w w' => w.Stores (· = a) w'

/-- Use of other blocks leaves all objects, and a block that is live and spared. -/
theorem StoresBeside.same (h : StoresBeside a w w') (hlive : w.memory.process.Live a) :
    w'.objects = w.objects ∧ w'.memory.process.blocks[a]? = w.memory.process.blocks[a]? := by
  induction h with
  | refl => exact ⟨rfl, rfl⟩
  | tail _ hstores ih =>
    obtain ⟨hobjects, hsame⟩ := ih
    have hsame' := hstores.same rfl ((Process.live_congr hsame).2 hlive)
    exact ⟨hstores.objects.trans hobjects, hsame'.trans hsame⟩

end World

namespace Box

variable {w w' : World} {r : Ref} {text : String} {type : TypeObject}

/-! ### Boxes of texts -/

/-- As long as the box is there it gives the same text back. -/
theorem GivesBack.sustained (h : GivesBack w r text) (hsustains : w.Sustains w')
    (halive : (w'.object? r).isSome) : GivesBack w' r text := by
  obtain ⟨object, length, hfound⟩ := h.exists_textObject
  obtain ⟨hobject, -, hbody⟩ := textObject_eq_ok.1 hfound
  rcases hsustains.text r object length hobject hbody with hgone | ⟨count, hobject', hpayload⟩
  · rw [hgone.object?] at halive
    cases halive
  · exact h.congr hobject hobject' hpayload

/-- Nothing but the block of the box has to be spared. -/
theorem GivesBack.spared {home : Address} (h : GivesBack w r text) (hw : w.Housed)
    (hhome : (w.object? r).bind Object.home = some home) (hstores : StoresBeside home w w') :
    GivesBack w' r text := by
  obtain ⟨object, hobject, hhome⟩ := Option.bind_eq_some_iff.1 hhome
  have hlive := (hw.housed r object hobject).live home (Object.mem_blocks.2 (.inr hhome))
  obtain ⟨hobjects, hsame⟩ := StoresBeside.same hstores hlive
  have hobject' : w'.object? r = some { object with count := object.count } := by
    rw [World.object?, hobjects]
    exact hobject
  refine h.congr hobject hobject' (payloadOf_congr fun a ha => ?_)
  obtain rfl : a = home := Option.some.inj (ha.symm.trans hhome)
  exact Process.payload_congr hsame

/-- An attempt to make a box of a text does not stop the process. It is refused only
if there is no storage for the box. A box gives the text back from then on, for as
long as it is there and whatever goes on, and even if blocks of other objects are
given back or written in the end, as long as its own is not. Its block was not in use
before, nobody has written to it behind the bytes that its type asks for, and no other
block has changed. -/
structure BoxesText (w : World) (attempt : Attempt Ref) (text : String) : Prop where
  answered : ∃ result w', attempt.run w = .ok result w'
  refused : ∀ e w', attempt.run w = .ok (.error e) w' → ∃ size, e = .allocationFailed size
  made : ∀ r w', attempt.run w = .ok (.ok r) w' → GivesBack w' r text
  contained : ∀ r w', attempt.run w = .ok (.ok r) w' → ∃ object home,
    w'.object? r = some object ∧ object.home = some home ∧
    w.memory.process.Hands
      (object.type.itemSize * text.toUTF8.size + object.type.basicSize) (some home)
      w'.memory.process
  lasting : ∀ r w' w₁, attempt.run w = .ok (.ok r) w' → w'.GoesOn w₁ →
    (w₁.object? r).isSome → GivesBack w₁ r text
  isolated : ∀ r w' w₁ w₂ home, attempt.run w = .ok (.ok r) w' → w'.GoesOn w₁ →
    (w₁.object? r).bind Object.home = some home → StoresBeside home w₁ w₂ → GivesBack w₂ r text

/-- A text of any type that texts can be made of is boxed, whatever storage held before. -/
theorem boxesText_newTextOf (htype : MakesTexts type) (hsub : type.isSubtypeOf .str = true)
    (hsized : type.varSized = true) (h : w.Housed) (text : String) :
    BoxesText w (newTextOf type text) text := by
  have hmade : ∀ r w', (newTextOf type text).run w = .ok (.ok r) w' → GivesBack w' r text :=
    fun r w' hrun => givesBack_newTextOf htype hsub hsized h.memory hrun
  have hlasting : ∀ r w' w₁, (newTextOf type text).run w = .ok (.ok r) w' → w'.GoesOn w₁ →
      (w₁.object? r).isSome → w₁.Housed ∧ GivesBack w₁ r text := by
    intro r w' w₁ hrun hgoes halive
    obtain ⟨hhoused, hsustains⟩ := GoesOn.sustains hgoes (housed_newTextOf htype h hrun)
    exact ⟨hhoused, (hmade r w' hrun).sustained hsustains halive⟩
  refine ⟨?_, fun e w' hrun => ?_, hmade, fun r w' hrun => hands_newTextOf htype h.memory hrun,
    fun r w' w₁ hrun hgoes halive => (hlasting r w' w₁ hrun hgoes halive).2,
      fun r w' w₁ w₂ home hrun hgoes hhome hstores => ?_⟩
  · obtain ⟨result, w', hrun, -⟩ := exists_madeText w type text
    exact ⟨result, w', hrun⟩
  · cases madeText_newTextOf hrun with
    | tooLarge => exact ⟨_, rfl⟩
    | refused => exact ⟨_, rfl⟩
  · have halive : (w₁.object? r).isSome := by
      obtain ⟨object, hobject, -⟩ := Option.bind_eq_some_iff.1 hhome
      exact Option.isSome_of_eq_some hobject
    obtain ⟨hhoused, hgives⟩ := hlasting r w' w₁ hrun hgoes halive
    exact hgives.spared hhoused hhome hstores

end Box

/-- Whatever has happened to a thread and its storage, its objects lie in blocks of
their own, and then every text can be boxed as long as there is storage for it. The
box gives the text back until it goes: the text, the number of its bytes, the NUL
behind them, and the text as one that ends with a NUL unless there is a NUL in it.
It makes no difference which block the box lies in, what that held before, and
what happens to other objects and other blocks. Bytes that are not UTF-8 are refused
as such, and no others are; bytes of a text are boxed as that text. -/
theorem texts_roundTrip :
    (∀ system settings w, (World.new system settings).GoesOn w → w.Housed) ∧
    ∀ w : World, w.Housed →
      (∀ text, Box.BoxesText w (Box.newText text) text) ∧
      ∀ bytes : ByteArray,
        ((∃ w', (Box.newTextOfBytes .str bytes).run w = .ok (.error .invalidUtf8) w') ↔
          ¬ bytes.IsValidUTF8) ∧
        ∀ text : String, text.toUTF8 = bytes →
          Box.newTextOfBytes .str bytes = Box.newText text := by
  refine ⟨fun system settings w h => (GoesOn.sustains h (housed_new system settings)).1,
    fun w hw => ?_⟩
  have hboxes : ∀ text, Box.BoxesText w (Box.newText text) text :=
    Box.boxesText_newTextOf Box.makesTexts_str rfl rfl hw
  refine ⟨hboxes, fun bytes => ⟨⟨?_, fun hinvalid => ?_⟩, ?_⟩⟩
  · rintro ⟨w', hrun⟩ hvalid
    -- the bytes of a text are refused for want of storage only
    obtain ⟨size, hrefused⟩ := (hboxes ⟨bytes, hvalid⟩).refused .invalidUtf8 w'
      ((congrArg (·.run w) (Box.newTextOfBytes_toUTF8 .str ⟨bytes, hvalid⟩)).symm.trans hrun)
    cases hrefused
  · exact ⟨w, by rw [Box.newTextOfBytes_invalid hinvalid]; rfl⟩
  · rintro text rfl
    exact Box.newTextOfBytes_toUTF8 .str text

/-! A history to look at: a thread asks for 28 bytes, fills the block and gives it
back, and then boxes a text of three bytes, the one in the middle a NUL. -/

namespace ThreadedStorage

/-- The storage after a request. -/
def after (c : ThreadedStorage) (i : Nat) (server : Server) (request : Request) : ThreadedStorage :=
  match Memory.answer server request (c.view i) with
  | .ok made m => c.served i (request.bytes server) (request.ended made) made m
  | .error _ _ => c

/-- A request that is answered is a step of the storage of threads. -/
theorem step_after {c : ThreadedStorage} {i : Nat} {server : Server} {request : Request}
    {made : Option Address} {m : Memory} (hi : i < c.shared.allocators.length)
    (hown : server ≠ .own) (hheld : ∀ a, request.target = some a → a ∈ c.shared.held)
    (hrun : Memory.answer server request (c.view i) = .ok made m) :
    c.Step (.request i server request) made (c.after i server request) := by
  rw [after, hrun]
  exact .request hi (fun heq => absurd heq hown) hheld hrun

/-- A thread that has not used its allocator. -/
def alone : ThreadedStorage where
  shared := { process := { system := .bounded 0x1000000 }, allocators := [none] }

/-- The thread has a block. -/
def holding : ThreadedStorage := alone.after 0 .thread (.malloc 28)

/-- The block is full. -/
def filled : ThreadedStorage := holding.written 0 (·.fill 0 32 0xAA)

/-- The block waits to be handed out again. -/
def freed : ThreadedStorage := filled.after 0 .thread (.free 0)

/-- The thread comes to have a block by a request. -/
theorem step_holding : alone.Step (.request 0 .thread (.malloc 28)) (some 0) holding :=
  step_after (by decide) nofun nofun rfl

/-- The thread gives the block back by a request. -/
theorem step_freed : filled.Step (.request 0 .thread (.free 0)) none freed :=
  step_after (by decide) nofun (by rintro _ ⟨⟩; decide) rfl

/-- The storage of a thread that has done nothing comes about. -/
theorem reached_alone : alone.Reached :=
  reached_of_run (.step (.start (.bounded 0x1000000) false) (.join none))

/-- The storage with the block full of bytes comes about. -/
theorem reached_filled : filled.Reached :=
  reached_alone.goes (.tail (.single (.step step_holding)) (.write (by decide) _))

end ThreadedStorage

/-- The thread without objects of its own, after it gave the block back. -/
def withFreedBlock : World :=
  (World.new (.bounded 0x1000000) {}).withMemory (ThreadedStorage.freed.view 0)

/-- The text has been boxed. -/
def withReusedBlock : World := withFreedBlock.left (Box.newText "a\x00b").run

/-- The storage with the box in it, as threads see it. -/
def ThreadedStorage.boxing : ThreadedStorage :=
  let c := ThreadedStorage.freed.after 0 .thread (.calloc 1 28)
  { c with shared := { c.shared with process := withReusedBlock.memory.process } }

/-- The storage in which the text is boxed is sound. -/
theorem ThreadedStorage.sound_boxing : ThreadedStorage.boxing.shared.Sound := by
  have hstep : ThreadedStorage.freed.Step (.request 0 .thread (.calloc 1 28)) (some 0)
      (ThreadedStorage.freed.after 0 .thread (.calloc 1 28)) :=
        step_after (by decide) nofun nofun rfl
  have hfreed := ThreadedStorage.sound_step (ThreadedStorage.sound_of_reached reached_filled)
    step_freed
  exact (ThreadedStorage.sound_step hfreed hstep).alike
    (((Process.Alike.refl _).modifyPayload 0 (·.write contentStart "a\x00b".toUTF8)).report
      (.objectCreated "str" 28))

/-- Another block is made by the system. -/
def withAnotherBlock : World :=
  withReusedBlock.withMemory ((ThreadedStorage.boxing.after 0 .raw (.malloc 100)).view 0)

/-- At first no object lies in a block, whatever the storage is. -/
theorem not_occupied_new (system : System) (settings : AllocatorSettings) (m : Memory)
    (a : Address) : ¬ ((World.new system settings).withMemory m).Occupied a := by
  rintro ⟨r, object, hobject, ha⟩
  have hfirst : (World.new system settings).object? r = some object := hobject
  rw [(object?_new hfirst).2.2.1] at ha
  exact List.not_mem_nil ha

/-- The thread gets a block, fills it and gives it back, and all of it goes on beside
its objects. -/
theorem goesOn_withFreedBlock : (World.new (.bounded 0x1000000) {}).GoesOn withFreedBlock := by
  have hmade : (World.new (.bounded 0x1000000) {}).Goes
      ((World.new (.bounded 0x1000000) {}).withMemory (ThreadedStorage.holding.view 0)) :=
    .stored (.requested (ThreadedStorage.sound_of_reached ThreadedStorage.reached_alone) rfl
      ThreadedStorage.step_holding nofun)
  have hfilled : World.Goes
    ((World.new (.bounded 0x1000000) {}).withMemory (ThreadedStorage.holding.view 0))
      ((World.new (.bounded 0x1000000) {}).withMemory (ThreadedStorage.filled.view 0)) :=
    .stored (.written (not_occupied_new _ _ _ 0) (·.fill 0 32 0xAA))
  have hfreed : World.Goes
    ((World.new (.bounded 0x1000000) {}).withMemory (ThreadedStorage.filled.view 0))
      withFreedBlock :=
    .stored (.requested (ThreadedStorage.sound_of_reached ThreadedStorage.reached_filled) rfl
      ThreadedStorage.step_freed
      fun a _ => not_occupied_new _ _ _ a)
  exact .tail (.tail (.single hmade) hfilled) hfreed

/-- The text is boxed in the block that is full of other bytes and the box gives it
back, and it still does when the thread has got another block. -/
theorem texts_roundTrip_reused :
    (withFreedBlock.memory.process.payload 0).cell 27 = .byte 0xAA ∧
    (Box.newText "a\x00b").run withFreedBlock = .ok (.ok 3) withReusedBlock ∧
    (withReusedBlock.object? 3).bind (·.home) = some 0 ∧
    Box.GivesBack withReusedBlock 3 "a\x00b" ∧ withReusedBlock.GoesOn withAnotherBlock ∧
    Box.GivesBack withAnotherBlock 3 "a\x00b" := by
  obtain ⟨hhoused, hboxes⟩ := texts_roundTrip
  have hbox := (hboxes withFreedBlock (hhoused _ _ withFreedBlock goesOn_withFreedBlock)).1 "a\x00b"
  have hrun : (Box.newText "a\x00b").run withFreedBlock = .ok (.ok 3) withReusedBlock := rfl
  have hlater : withReusedBlock.GoesOn withAnotherBlock :=
    .single (.stored (.requested ThreadedStorage.sound_boxing rfl
      (ThreadedStorage.step_after (by decide) nofun nofun rfl) nofun))
  exact ⟨rfl, hrun, rfl, hbox.made 3 _ hrun, hlater,
    hbox.lasting 3 _ withAnotherBlock hrun hlater rfl⟩

end ExtensionHost
