import ExtensionHost.Proofs.Box.Boxing

/-!
# `ExtensionHost.Proofs.Box.Reading`: what is read off a box

A number stands in its object. A text stands in the block of its object, and
whoever takes it to end at the first NUL relies on the byte behind it: nobody
writes that byte, it is zero because the block was zeroed.

What was put into a box is read off it again as long as nobody writes to the
block of a text. `World.Carries` says this of two worlds, and with it that all
objects are still there.
-/

set_option autoImplicit false

namespace ExtensionHost

/-! ### Bytes and texts -/

/-- The bytes of a character other than NUL are not zero. -/
theorem Char.ne_zero_of_mem_utf8 {c : Char} {b : UInt8} (hc : c ≠ '\x00')
    (hb : b ∈ String.utf8EncodeChar c) : b ≠ 0 := by
  have hofNat : ∀ n, 0 < n → n < 256 → UInt8.ofNat n ≠ 0 := by
    intro n hpos hlt hzero
    have := congrArg UInt8.toNat hzero
    rw [UInt8.toNat_ofNat_of_lt' hlt] at this
    simp at this
    omega
  have hpos : c.val.toNat ≠ 0 := fun hzero =>
    hc (Char.ext (UInt32.toNat_inj.1 hzero))
  unfold String.utf8EncodeChar at hb
  dsimp only at hb
  split at hb
  · obtain rfl := List.mem_singleton.1 hb
    exact hofNat _ (by omega) (by omega)
  · split at hb
    · simp only [List.mem_cons, List.not_mem_nil, or_false] at hb
      rcases hb with rfl | rfl <;> exact hofNat _ (by omega) (by omega)
    · split at hb
      · simp only [List.mem_cons, List.not_mem_nil, or_false] at hb
        rcases hb with rfl | rfl | rfl <;> exact hofNat _ (by omega) (by omega)
      · simp only [List.mem_cons, List.not_mem_nil, or_false] at hb
        rcases hb with rfl | rfl | rfl | rfl <;> exact hofNat _ (by omega) (by omega)

/-- A text without a NUL has no byte that is zero. -/
theorem ne_zero_of_mem_toUTF8 {text : String} (htext : '\x00' ∉ text.toList) {b : UInt8}
    (hb : b ∈ text.toUTF8.data) : b ≠ 0 := by
  rw [String.toUTF8_eq_toByteArray, ← String.utf8Encode_toList, List.utf8Encode,
    List.data_toByteArray, List.mem_toArray, List.mem_flatMap] at hb
  obtain ⟨c, hc, hmem⟩ := hb
  refine Char.ne_zero_of_mem_utf8 ?_ hmem
  rintro rfl
  exact htext hc

/-- A NUL is a byte that is zero. -/
theorem zero_mem_toUTF8 {text : String} (h : '\x00' ∈ text.toList) : 0 ∈ text.toUTF8.data := by
  rw [String.toUTF8_eq_toByteArray, ← String.utf8Encode_toList, List.utf8Encode,
    List.data_toByteArray, List.mem_toArray, List.mem_flatMap]
  exact ⟨'\x00', h, by decide⟩

/-- The bytes of a text are this text again. -/
theorem fromUTF8?_toUTF8 (text : String) : String.fromUTF8? text.toUTF8 = some text :=
  dif_pos text.isValidUTF8

/-- The first byte that is zero is found. -/
theorem findIdx?_first {bytes : ByteArray} {j : Nat} (hj : j < bytes.size) (hzero : bytes[j] = 0)
    (hbefore : ∀ (i : Nat) (hi : i < bytes.size), i < j → bytes[i] ≠ 0) :
    bytes.findIdx? (· = 0) = some j := by
  -- from whatever byte the search goes on, it comes to this one
  have hloop : ∀ n i, i + n = j → ByteArray.findIdx?.loop bytes (· = 0) i = some j := by
    intro n
    induction n with
    | zero =>
      rintro i rfl
      have hi : i < bytes.size := hj
      have hbyte : bytes[i] = 0 := hzero
      rw [ByteArray.findIdx?.loop, dif_pos hi, if_pos (decide_eq_true hbyte), Nat.add_zero]
    | succ n ih =>
      intro i hi
      have hlt : i < bytes.size := by omega
      have hne := hbefore i hlt (by omega)
      rw [ByteArray.findIdx?.loop, dif_pos hlt, if_neg fun heq => hne (of_decide_eq_true heq)]
      exact ih (i + 1) (by omega)
  exact hloop j 0 (Nat.zero_add j)

/-- Behind bytes that are not zero, that is the NUL. -/
theorem findIdx?_push_zero {bytes : ByteArray} (h : ∀ b ∈ bytes.data, b ≠ 0) :
    (bytes.push 0).findIdx? (· = 0) = some bytes.size := by
  have hlast : bytes.size < (bytes.push 0).size := by
    rw [ByteArray.size_push]
    omega
  have hzero : (bytes.push 0)[bytes.size] = 0 := Array.getElem_push_eq
  refine findIdx?_first hlast hzero fun i hi hlt => ?_
  have hbyte : (bytes.push 0)[i] = bytes[i] := Array.getElem_push_lt hlt
  rw [hbyte]
  exact h _ (Array.getElem_mem hlt)

/-- A search does not go past a byte that is zero. -/
theorem findIdx?_of_zero {bytes : ByteArray} {j : Nat} (hj : j < bytes.size)
    (hzero : bytes[j] = 0) : ∃ n ≤ j, bytes.findIdx? (· = 0) = some n := by
  induction j using Nat.strong_induction_on with
  | _ j ih =>
    by_cases hearlier : ∃ (i : Nat) (hi : i < bytes.size), i < j ∧ bytes[i] = 0
    · obtain ⟨i, hi, hlt, hzero'⟩ := hearlier
      obtain ⟨n, hn, hfound⟩ := ih i hlt hi hzero'
      exact ⟨n, by omega, hfound⟩
    · have hfirst : bytes.findIdx? (· = 0) = some j :=
        findIdx?_first hj hzero fun i hi hlt heq => hearlier ⟨i, hi, hlt, heq⟩
      exact ⟨j, Nat.le_refl j, hfirst⟩

namespace Payload

/-- Bytes are read one part after the other. -/
theorem read_add (p : Payload) (start m n : Nat) :
    p.read start (m + n) = p.read start m ++ p.read (start + m) n := by
  apply ByteArray.ext
  rw [ByteArray.data_append]
  apply Array.ext
  · simp [read]
  · intro i h₁ h₂
    simp only [read, Array.getElem_ofFn, Array.getElem_append, Array.size_ofFn]
    split
    · rfl
    · rw [Nat.add_assoc, Nat.add_sub_cancel' (by omega)]

/-- One byte is read off one cell. -/
theorem read_one (p : Payload) (start : Nat) :
    p.read start 1 = [(p.cell start).toByte].toByteArray := by
  apply ByteArray.ext
  rw [List.data_toByteArray]
  apply Array.ext
  · exact Array.size_ofFn
  · intro i h₁ h₂
    obtain rfl : i = 0 := Nat.lt_one_iff.1 h₂
    simp [read]

/-- What was written is read back with the byte behind it. -/
theorem read_write_succ (p : Payload) (start : Nat) (bytes : ByteArray) :
    (p.write start bytes).read start (bytes.size + 1) =
      bytes.push (p.cell (start + bytes.size)).toByte := by
  have hbehind : (p.write start bytes).cell (start + bytes.size) = p.cell (start + bytes.size) := by
    rw [cell_write, if_neg]
    omega
  rw [read_add, read_write, read_one, hbehind, ByteArray.append_toByteArray_singleton]

end Payload

namespace World

variable {w w' w'' : World} {r : Ref} {object : Object} {a : Address} {m : Memory}

/-! ### What stays readable -/

/-- Objects that are there stay there and are what they were, but for counts, and
no text is written to. -/
structure Carries (w w' : World) : Prop where
  stays : ∀ r object, w.object? r = some object → ∃ count, w'.object? r = some { object with count }
  text : ∀ r object length, w.object? r = some object → object.body = .text length →
    w'.payloadOf object = w.payloadOf object

/-- Doing nothing carries every value. -/
theorem Carries.refl (w : World) : w.Carries w :=
  ⟨fun _ object h => ⟨object.count, h⟩, fun _ _ _ _ _ => rfl⟩

/-- What is carried twice is carried. -/
theorem Carries.trans (h : w.Carries w') (h' : w'.Carries w'') : w.Carries w'' where
  stays r object hobject := by
    obtain ⟨count, hobject'⟩ := h.stays r object hobject
    obtain ⟨count', hobject''⟩ := h'.stays r _ hobject'
    exact ⟨count', hobject''⟩
  text r object length hobject hbody := by
    obtain ⟨count, hobject'⟩ := h.stays r object hobject
    exact (h'.text r { object with count } length hobject' hbody).trans
      (h.text r object length hobject hbody)

/-- What an object's own block holds. -/
theorem payloadOf_congr
    (h : ∀ a, object.home = some a → w'.memory.process.payload a = w.memory.process.payload a) :
    w'.payloadOf object = w.payloadOf object := by
  rw [payloadOf, payloadOf]
  cases hhome : object.home with
  | none => rfl
  | some a => exact h a hhome

/-- A text stands in one block. -/
theorem carries_of_same
    (hstays : ∀ r object, w.object? r = some object →
      ∃ count, w'.object? r = some { object with count })
    (hsame : ∀ r object a, w.object? r = some object → object.home = some a →
      (∃ length, object.body = .text length) →
        w'.memory.process.payload a = w.memory.process.payload a) : w.Carries w' where
  stays := hstays
  text r object length hobject hbody :=
    payloadOf_congr fun a ha => hsame r object a hobject ha ⟨length, hbody⟩

/-- A count carries no value. -/
theorem carries_retain (w : World) (r : Ref) : w.Carries (w.retain r) := by
  refine carries_of_same (grows_retain w r []).stays fun s object a _ _ _ => ?_
  cases hobject : w.object? r with
  | none => simp only [World.retain, hobject]
  | some found =>
    rcases retain_cases hobject with ⟨-, hsame⟩ | ⟨-, hsame⟩
    · rw [hsame]
    · rw [hsame]
      rfl

/-- An object is made, and the blocks of the others are left alone. -/
theorem carries_made {type : TypeObject} {body : Body} {home : Address} {event : Event}
    (hsame : ∀ s object, w.object? s = some object → ∀ b ∈ object.blocks,
      m.process.payload b = w.memory.process.payload b) :
    w.Carries ((w.made m type body home).report event) := by
  refine carries_of_same (fun s object hobject => ⟨object.count, ?_⟩)
    fun s object b hobject hb _ => hsame s object hobject b (Object.mem_blocks.2 (.inr hb))
  exact (object?_made_of_some (by rw [hobject]; nofun)).trans hobject

/-- Nobody's text stands in a block of another object. -/
theorem carries_written (h : w.Housed) (hobject : w.object? r = some object)
    (ha : a ∈ object.blocks) (hbody : ∀ length, object.body ≠ .text length)
    (f : Payload → Payload) : w.Carries (w.written a f) := by
  refine carries_of_same (fun s other hother => ⟨other.count, hother⟩)
    fun s other b hother hb htext => Process.payload_modifyPayload_of_ne ?_ f
  rintro rfl
  obtain rfl := h.apart s r other object hother hobject b (Object.mem_blocks.2 (.inr hb)) ha
  obtain rfl : other = object := Option.some.inj (hother.symm.trans hobject)
  obtain ⟨length, htext⟩ := htext
  exact hbody length htext

end World

namespace Box

open World

variable {w w' : World} {r : Ref} {object : Object} {text : String}

/-! ### What is read where -/

/-- An integer is read off the body of an instance of the type of integers. -/
theorem integer_eq_ok {v : Int} :
    integer w r = .ok v ↔ ∃ object, w.object? r = some object ∧
      object.type.isSubtypeOf .int = true ∧ object.body = .integer v := by
  unfold integer
  cases hinstance : w.instanceOf r .int with
  | error e =>
    refine ⟨nofun, fun ⟨object, hobject, hsub, _⟩ => ?_⟩
    rw [instanceOf_eq_ok.2 ⟨hobject, hsub⟩] at hinstance
    cases hinstance
  | ok found =>
    obtain ⟨hfound, hsub⟩ := instanceOf_eq_ok.1 hinstance
    constructor
    · intro h
      cases hbody : found.body <;> simp [hbody] at h
      subst h
      exact ⟨found, hfound, hsub, hbody⟩
    · rintro ⟨object, hobject, -, hbody⟩
      obtain rfl : found = object := Option.some.inj (hfound.symm.trans hobject)
      simp only [hbody]

/-- A text is an instance of the type of texts with the body of one. -/
theorem textObject_eq_ok {length : Nat} :
    textObject w r = .ok (object, length) ↔ w.object? r = some object ∧
      object.type.isSubtypeOf .str = true ∧ object.body = .text length := by
  unfold textObject
  cases hinstance : w.instanceOf r .str with
  | error e =>
    refine ⟨nofun, fun ⟨hobject, hsub, _⟩ => ?_⟩
    rw [instanceOf_eq_ok.2 ⟨hobject, hsub⟩] at hinstance
    cases hinstance
  | ok found =>
    obtain ⟨hfound, hsub⟩ := instanceOf_eq_ok.1 hinstance
    constructor
    · intro h
      cases hbody : found.body <;> simp [hbody] at h
      obtain ⟨rfl, rfl⟩ := h
      exact ⟨hfound, hsub, hbody⟩
    · rintro ⟨hobject, -, hbody⟩
      obtain rfl : found = object := Option.some.inj (hfound.symm.trans hobject)
      simp only [hbody]

/-- Where a float is asked for an integer will do. -/
theorem real_eq_ok {x : Double} :
    real w r = .ok x ↔ ∃ object, w.object? r = some object ∧
      (object.type.isSubtypeOf .float = true ∧ object.body = .real x ∨
        ∃ v, object.type.isSubtypeOf .int = true ∧ object.body = .integer v ∧ x = .ofInt v) := by
  cases hobject : w.object? r with
  | none =>
    refine ⟨fun h => ?_, fun ⟨_, hfound, _⟩ => by cases hfound⟩
    rw [real, World.object, hobject] at h
    cases h
  | some object =>
    have hread : w.object r = .ok object := by rw [World.object, hobject]
    rw [real, hread]
    constructor
    · intro h
      -- of all bodies only these two are read
      cases hbody : object.body with
      | real y =>
        simp only [hbody] at h
        split at h
        · cases h
          exact ⟨object, rfl, .inl ⟨‹_›, hbody⟩⟩
        · cases h
      | integer v =>
        simp only [hbody] at h
        split at h
        · cases h
          exact ⟨object, rfl, .inr ⟨v, ‹_›, hbody, rfl⟩⟩
        · cases h
      | _ => simp [hbody] at h
    · rintro ⟨found, hfound, hread⟩
      cases hfound
      rcases hread with ⟨hsub, hbody⟩ | ⟨v, hsub, hbody, rfl⟩ <;> simp only [hbody, if_pos hsub]

/-- What is read off an object is read off it later. -/
theorem integer_carries {v : Int} (h : w.Carries w') (hv : integer w r = .ok v) :
    integer w' r = .ok v := by
  obtain ⟨object, hobject, hsub, hbody⟩ := integer_eq_ok.1 hv
  obtain ⟨count, hobject'⟩ := h.stays r object hobject
  exact integer_eq_ok.2 ⟨_, hobject', hsub, hbody⟩

/-- A native integer that was read is read again. -/
theorem native_carries {target : NativeInt} {v : Int} (h : w.Carries w')
    (hv : native w r target = .ok v) : native w' r target = .ok v := by
  cases hinteger : integer w r with
  | error e =>
    rw [native, hinteger] at hv
    cases hv
  | ok found =>
    rw [native, hinteger] at hv
    rw [native, integer_carries h hinteger]
    exact hv

/-- A real number that was read is read again. -/
theorem real_carries {x : Double} (h : w.Carries w') (hx : real w r = .ok x) :
    real w' r = .ok x := by
  obtain ⟨object, hobject, hread⟩ := real_eq_ok.1 hx
  obtain ⟨count, hobject'⟩ := h.stays r object hobject
  exact real_eq_ok.2 ⟨_, hobject', hread⟩

/-- A text that was read is read again. -/
theorem terminatedText_carries (h : w.Carries w') (htext : terminatedText w r = .ok text) :
    terminatedText w' r = .ok text := by
  cases hfound : textObject w r with
  | error e =>
    rw [terminatedText, hfound] at htext
    cases htext
  | ok found =>
    obtain ⟨object, length⟩ := found
    obtain ⟨hobject, hsub, hbody⟩ := textObject_eq_ok.1 hfound
    obtain ⟨count, hobject'⟩ := h.stays r object hobject
    have hfound' : textObject w' r = .ok ({ object with count }, length) :=
      textObject_eq_ok.2 ⟨hobject', hsub, hbody⟩
    have hpayload : w'.payloadOf { object with count } = w.payloadOf object :=
      h.text r object length hobject hbody
    rw [terminatedText, hfound] at htext
    rw [terminatedText, hfound']
    simp only [hpayload]
    exact htext

/-- The bytes before the NUL behind a text are the text. -/
theorem untilNul_push_zero {bytes : ByteArray} (h : ∀ b ∈ bytes.data, b ≠ 0) :
    untilNul (bytes.push 0) = some bytes := by
  rw [untilNul, findIdx?_push_zero h, ← ByteArray.append_toByteArray_singleton]
  exact congrArg some (ByteArray.extract_append_eq_left rfl)

/-- A zero among the bytes ends them too early. -/
theorem untilNul_of_zero {bytes : ByteArray} (h : 0 ∈ bytes.data) :
    ∃ before, untilNul (bytes.push 0) = some before ∧ before.size < bytes.size := by
  obtain ⟨j, hj, hzero⟩ := Array.mem_iff_getElem.1 h
  have hsize : (bytes.push 0).size = bytes.size + 1 := ByteArray.size_push
  have hj' : j < bytes.size := hj
  have hbyte : (bytes.push 0)[j] = 0 := (Array.getElem_push_lt hj).trans hzero
  obtain ⟨n, hn, hfound⟩ := findIdx?_of_zero (by omega) hbyte
  refine ⟨(bytes.push 0).extract 0 n, by rw [untilNul, hfound], ?_⟩
  rw [ByteArray.size_extract]
  omega

/-- A text stands in the block of its object, with a NUL behind it. -/
def Contains (w : World) (r : Ref) (text : String) : Prop :=
  ∃ object, w.object? r = some object ∧ object.type.isSubtypeOf .str = true ∧
    object.body = .text text.toUTF8.size ∧
    (w.payloadOf object).read contentStart (text.toUTF8.size + 1) = text.toUTF8.push 0

/-- What contains a text goes on containing it. -/
theorem Contains.carries (h : Contains w r text) (hcarries : w.Carries w') :
    Contains w' r text := by
  obtain ⟨object, hobject, hsub, hbody, hread⟩ := h
  obtain ⟨count, hobject'⟩ := hcarries.stays r object hobject
  refine ⟨{ object with count }, hobject', hsub, hbody, ?_⟩
  rw [show w'.payloadOf { object with count } = w.payloadOf object from
    hcarries.text r object _ hobject hbody]
  exact hread

/-- A text without NUL is read up to the NUL that terminates it. -/
theorem Contains.terminatedText (h : Contains w r text) (htext : '\x00' ∉ text.toList) :
    terminatedText w r = .ok text := by
  obtain ⟨object, hobject, hsub, hbody, hread⟩ := h
  have hobject' : textObject w r = .ok (object, text.toUTF8.size) :=
    textObject_eq_ok.2 ⟨hobject, hsub, hbody⟩
  have hbytes := untilNul_push_zero fun b hb => ne_zero_of_mem_toUTF8 htext hb
  simp only [Box.terminatedText, hobject', hread, hbytes, if_true, fromUTF8?_toUTF8]

/-- A text with a NUL in it is not read as one that is terminated by the first. -/
theorem Contains.embeddedNul (h : Contains w r text) (htext : '\x00' ∈ text.toList) :
    Box.terminatedText w r = .error .embeddedNul := by
  obtain ⟨object, hobject, hsub, hbody, hread⟩ := h
  have hobject' : textObject w r = .ok (object, text.toUTF8.size) :=
    textObject_eq_ok.2 ⟨hobject, hsub, hbody⟩
  obtain ⟨before, hbefore, hsize⟩ := untilNul_of_zero (zero_mem_toUTF8 htext)
  simp only [Box.terminatedText, hobject', hread, hbefore, if_neg (Nat.ne_of_lt hsize)]

/-- The block of a new text was zeroed and has the bytes of the text written into
it. The byte behind them is in the block, so it was zeroed. -/
theorem written_newTextOf {type : TypeObject} (htype : MakesTexts type) (h : w.memory.Sound)
    (hrun : (newTextOf type text).run w = .ok (.ok r) w') :
    ∃ (home : Address) (zeroed : Payload),
      w'.object? r = some (fresh type (.text text.toUTF8.size) home) ∧
      w'.memory.process.payload home = zeroed.write contentStart text.toUTF8 ∧
      zeroed.cell (contentStart + text.toUTF8.size) = .byte 0 := by
  cases madeText_newTextOf hrun with
  | @made home m hcalloc =>
    obtain ⟨-, hhands, hzero⟩ := Memory.calloc_spec h hcalloc
    have hlive : home < m.process.blocks.size := Process.lt_size_of_live (hhands.live home rfl)
    refine ⟨home, m.process.payload home, object?_made_self,
      Process.payload_modifyPayload_self hlive (·.write contentStart text.toUTF8),
      hzero home rfl _ ?_⟩
    have hcontent := htype.content_le text.toUTF8.size
    omega

/-- A box that is made of a text contains it. -/
theorem contains_newTextOf {type : TypeObject} (htype : MakesTexts type)
    (hsub : type.isSubtypeOf .str = true) (h : w.memory.Sound)
    (hrun : (newTextOf type text).run w = .ok (.ok r) w') : Contains w' r text := by
  obtain ⟨home, zeroed, hobject, hpayload, hnul⟩ := written_newTextOf htype h hrun
  refine ⟨_, hobject, hsub, rfl, ?_⟩
  show (w'.memory.process.payload home).read _ _ = _
  rw [hpayload, Payload.read_write_succ, hnul]
  rfl

/-! ### What a text gives back -/

/-- The box gives the text back: the text as it is, the number of its bytes, the NUL
behind them, and the text as one that ends with a NUL unless there is a NUL in it. -/
structure GivesBack (w : World) (r : Ref) (text : String) : Prop where
  whole : Box.text w r = .ok text
  size : (w.object? r).bind Object.recordedSize = some text.toUTF8.size
  nul : (w.object? r).map (fun object =>
    (w.payloadOf object).cell (contentStart + text.toUTF8.size)) = some (.byte 0)
  terminated : terminatedText w r = if '\x00' ∈ text.toList then .error .embeddedNul else .ok text

/-- What gives a text back is a text. -/
theorem GivesBack.exists_textObject (h : GivesBack w r text) :
    ∃ object length, textObject w r = .ok (object, length) := by
  have hwhole := h.whole
  cases hfound : textObject w r with
  | error e =>
    rw [Box.text, hfound] at hwhole
    cases hwhole
  | ok found => exact ⟨found.1, found.2, rfl⟩

/-- What a text gives back depends on its object, whatever the count, and on what the
block holds. -/
theorem GivesBack.congr {count : Int} (h : GivesBack w r text) (hobject : w.object? r = some object)
    (hobject' : w'.object? r = some { object with count })
    (hpayload : w'.payloadOf object = w.payloadOf object) : GivesBack w' r text := by
  obtain ⟨found, length, hfound⟩ := h.exists_textObject
  obtain ⟨hobject₁, hsub, hbody⟩ := textObject_eq_ok.1 hfound
  obtain rfl : found = object := Option.some.inj (hobject₁.symm.trans hobject)
  have hfound' : textObject w' r = .ok ({ found with count }, length) :=
    textObject_eq_ok.2 ⟨hobject', hsub, hbody⟩
  have hpayload' : w'.payloadOf { found with count } = w.payloadOf found := hpayload
  obtain ⟨hwhole, hsize, hnul, hterminated⟩ := h
  rw [hobject] at hsize hnul
  refine ⟨?_, by rw [hobject']; exact hsize, ?_, ?_⟩
  · simp only [Box.text, hfound, hfound', hpayload'] at hwhole ⊢
    exact hwhole
  · rw [hobject', Option.map_some, hpayload']
    exact hnul
  · simp only [Box.terminatedText, hfound, hfound', hpayload'] at hterminated ⊢
    exact hterminated

/-- A box that is made of a text gives it back. -/
theorem givesBack_newTextOf {type : TypeObject} (htype : MakesTexts type)
    (hsub : type.isSubtypeOf .str = true) (hsized : type.varSized = true) (h : w.memory.Sound)
    (hrun : (newTextOf type text).run w = .ok (.ok r) w') : GivesBack w' r text := by
  have hcontains := contains_newTextOf htype hsub h hrun
  obtain ⟨home, zeroed, hobject, hpayload, hnul⟩ := written_newTextOf htype h hrun
  have hpayload' : w'.payloadOf (fresh type (.text text.toUTF8.size) home) =
      zeroed.write contentStart text.toUTF8 := hpayload
  refine ⟨?_, ?_, ?_, ?_⟩
  · have hobject' : textObject w' r = .ok (_, text.toUTF8.size) :=
      textObject_eq_ok.2 ⟨hobject, hsub, rfl⟩
    simp only [Box.text, hobject', hpayload', Payload.read_write, fromUTF8?_toUTF8]
  · rw [hobject, Option.bind_some, Object.recordedSize]
    exact if_pos hsized
  · rw [hobject, Option.map_some, hpayload', Payload.cell_write, if_neg (by omega), hnul]
  · split
    · exact hcontains.embeddedNul ‹_›
    · exact hcontains.terminatedText ‹_›

/-- Bytes of a text are boxed as this text. -/
theorem newTextOfBytes_toUTF8 (type : TypeObject) (text : String) :
    newTextOfBytes type text.toUTF8 = newTextOf type text := by
  rw [newTextOfBytes, fromUTF8?_toUTF8]

/-- Bytes that are no UTF-8 are refused before a box is made. -/
theorem newTextOfBytes_invalid {bytes : ByteArray} (h : ¬ bytes.IsValidUTF8) (type : TypeObject) :
    newTextOfBytes type bytes = throw .invalidUtf8 := by
  rw [newTextOfBytes, String.fromUTF8?, dif_neg h]

/-! ### What is made reads as what it was made of -/

/-- Making an object carries the values of all others. -/
theorem carries_allocate {type : TypeObject} {size : Nat} {body : Body} (h : w.Housed)
    (hrun : (Object.allocate type size body).run w = .ok (.ok r) w') :
    w.Carries w' ∧ ∃ home, w'.object? r = some (fresh type body home) := by
  cases hcalloc : w.memory.calloc 1 size with
  | mk found m =>
    obtain ⟨-, hhands, -⟩ := Memory.calloc_spec h.memory hcalloc
    rw [run_allocate hcalloc] at hrun
    cases found with
    | none => cases hrun
    | some home =>
      cases hrun
      refine ⟨carries_made fun s object hobject b hb => ?_, home,
        object?_made_self⟩
      exact Process.payload_congr (h.same_of_hands hhands hobject b hb)

/-- After a text was made, every object has its blocks to itself. -/
theorem housed_newTextOf {type : TypeObject} (htype : MakesTexts type) (h : w.Housed)
    (hrun : (newTextOf type text).run w = .ok (.ok r) w') : w'.Housed := by
  cases madeText_newTextOf hrun with
  | @made home m hcalloc =>
    obtain ⟨hsound, hhands, -⟩ := Memory.calloc_spec h.memory hcalloc
    have hmakes : Makes type (1 * (type.itemSize * text.toUTF8.size + type.basicSize))
        (.text text.toUTF8.size) := makes_of_bare htype.mayGo nofun nofun
    have hcontent := htype.content_le text.toUTF8.size
    exact (h.made hmakes (hsound.modifyPayload home _) (hhands.write (by omega))).noticing _ _

/-- The box of a text gets a block that was not in use, and nobody writes to that behind
the bytes that were asked for, nor to any other one. -/
theorem hands_newTextOf {type : TypeObject} (htype : MakesTexts type) (h : w.memory.Sound)
    (hrun : (newTextOf type text).run w = .ok (.ok r) w') : ∃ object home,
      w'.object? r = some object ∧ object.home = some home ∧
      w.memory.process.Hands
        (object.type.itemSize * text.toUTF8.size + object.type.basicSize) (some home)
        w'.memory.process := by
  cases madeText_newTextOf hrun with
  | @made home m hcalloc =>
    obtain ⟨-, hhands, -⟩ := Memory.calloc_spec h hcalloc
    have hcontent := htype.content_le text.toUTF8.size
    rw [Nat.one_mul] at hhands
    exact ⟨fresh type (.text text.toUTF8.size) home, home, object?_made_self, rfl,
      (hhands.write (by omega)).report _⟩

/-- A text is written into a block that none had before. -/
theorem carries_newTextOf {type : TypeObject} (h : w.Housed)
    (hrun : (newTextOf type text).run w = .ok (.ok r) w') : w.Carries w' := by
  cases madeText_newTextOf hrun with
  | @made home m hcalloc =>
    obtain ⟨-, hhands, -⟩ := Memory.calloc_spec h.memory hcalloc
    refine carries_made fun s object hobject b hb => ?_
    have hne : b ≠ home := by
      rintro rfl
      exact h.notMem_of_hands hhands hobject hb
    exact (Process.payload_modifyPayload_of_ne hne _).trans
      (Process.payload_congr (h.same_of_hands hhands hobject b hb))

end Box

end ExtensionHost
