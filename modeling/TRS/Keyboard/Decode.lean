import Mathlib.Tactic.Tauto
import TRS.Keyboard.Basic

/-!
# The characters of keys

Which character a press of a key should enqueue (`decoded`), and when the handler enqueues it. The
handler recognises digit keys by the character it has already translated, so that Caps Lock takes
part in every other key and in the shifted digits.

* `pressedKey_none`, `pressedKey_some`: which scan codes are presses of mapped keys.
* `kbIrqHandlerLog_press`: what the handler puts into the ring.
* `pick_eq_decoded`: it picks the right character exactly for the keys that Caps Lock does no harm.

The tables are compared code by code; the headline `keys_decoded_iff` is over all runs, by
`Along.iff_guarded`, and `caps_shifts_semicolon` is a key that goes wrong.
-/

namespace TRS.Keyboard
open TRS.Lib TRS.Stream

/-- What happens to the keyboard: an interrupt with a scan code, or a reader of the stream. -/
inductive Event where
  | irq (sc : Byte)
  | read (dst len : Nat)
  deriving DecidableEq, Repr

/-- One event. -/
def step (kb : Kb) : Event → Except Empty (Unit × Kb)
  | .irq sc => .ok ((), kbIrqHandler kb sc)
  | .read dst len => .ok ((), { kb with stream := (streamTryRead kb.stream dst len).2.2 })

/-- The mapped key that a scan code is the press of. -/
def pressedKey (sc : Byte) : Option Nat :=
  if sc &&& 0x80#8 = 0#8 ∧ (scancodeMap sc.toNat).1 ≠ 0#8 then some sc.toNat else none

/-- The key types a letter. -/
def isLetter (code : Nat) : Bool := chr 'a' ≤ (scancodeMap code).1 && (scancodeMap code).1 ≤ chr 'z'

/-- The character of a key: Caps Lock turns the case of letters, and of nothing else. -/
def decoded (code : Nat) (shiftDown capsDown : Bool) : Byte :=
  column code (if isLetter code then shiftDown ^^ capsDown else shiftDown)

/-- A press of a mapped key that finds room enqueues its character; every other interrupt enqueues
    nothing. -/
def Decodes (kb : Kb) : Event → Unit → Kb → Prop
  | .irq sc, _, kb' =>
    match pressedKey sc with
    | some code => kb.stream.rb.stored < capacity → kb'.stream.rb.contents =
        kb.stream.rb.contents ++ [decoded code kb.shiftDown kb.capsDown]
    | none => kb'.stream.rb.contents = kb.stream.rb.contents
  | .read .., _, _ => True

/-- Caps Lock does no harm to the key: it types a letter, or the same character with and without
    Shift, or a digit while Shift is up. -/
def CapsImmune (code : Nat) (shiftDown : Bool) : Prop :=
  isLetter code ∨ (scancodeMap code).1 = (scancodeMap code).2 ∨
    (isDigit (scancodeMap code).1 ∧ shiftDown = false)

instance (code : Nat) (shiftDown : Bool) : Decidable (CapsImmune code shiftDown) := by
  unfold CapsImmune; infer_instance

/-- With Caps Lock on, a mapped key that finds room is one that it does no harm to. -/
def CapsHarmless (kb : Kb) : Event → Prop
  | .irq sc => ∀ code, pressedKey sc = some code → kb.stream.rb.stored < capacity →
      kb.capsDown → CapsImmune code kb.shiftDown
  | .read .. => True

/-- The code of a pressed key is its scan code. -/
lemma pressedKey_toNat {sc : Byte} {code : Nat} (key : pressedKey sc = some code) :
    sc.toNat = code := by
  unfold pressedKey at key
  split at key
  · exact Option.some.inj key
  · cases key

/-- The handler picks the right character exactly for these keys. -/
lemma pick_eq_decoded {sc : Byte} {code : Nat} (key : pressedKey sc = some code)
    (shiftDown capsDown : Bool) :
    pick code shiftDown capsDown = decoded code shiftDown capsDown ↔
      (capsDown → CapsImmune code shiftDown) := by
  have all : ∀ sc : Byte, (pressedKey sc).isSome → ∀ a b, pick sc.toNat a b = decoded sc.toNat a b ↔
      (b → CapsImmune sc.toNat a) := by
    decide +kernel
  obtain rfl := pressedKey_toNat key
  exact all sc (by rw [key]; rfl) shiftDown capsDown

/-- Prefixes, modifiers and releases are no presses of mapped keys. -/
lemma pressedKey_none : ∀ sc : Byte, sc = 0xE0#8 ∨ (sc &&& 0x7F#8).toNat = 0x2A ∨
    (sc &&& 0x7F#8).toNat = 0x36 ∨ (sc &&& 0x7F#8).toNat = 0x3A ∨ sc &&& 0x80#8 ≠ 0#8 ∨
    ¬ ((sc &&& 0x7F#8).toNat < 58 ∧ (scancodeMap (sc &&& 0x7F#8).toNat).1 ≠ 0#8) →
    pressedKey sc = none := by
  decide +kernel

/-- A make code of a key with a character is a pressed key. -/
lemma pressedKey_some : ∀ sc : Byte, sc &&& 0x80#8 = 0#8 →
    (scancodeMap (sc &&& 0x7F#8).toNat).1 ≠ 0#8 →
    pressedKey sc = some (sc &&& 0x7F#8).toNat := by
  decide +kernel

/-- The stream after the press of a key: the key's character is put, and counted if it finds no
    room, but for that of the backspace key. -/
def pressed (kb : Kb) (code : Nat) : StreamT :=
  let c := pick code kb.shiftDown kb.capsDown
  if code = 0x0E then { kb.stream with rb := (ringbufPut kb.stream.rb c).2 } else kbPut kb.stream c

/-- The stream after an interrupt, and the answers to its puts: a press of a mapped key puts the
    character that the handler picks. -/
lemma kbIrqHandlerLog_press (kb : Kb) (sc : Byte) :
    ((kbIrqHandlerLog kb sc).val.stream, (kbIrqHandlerLog kb sc).log) =
      match pressedKey sc with
      | some code => (pressed kb code,
          [(ringbufPut kb.stream.rb (pick code kb.shiftDown kb.capsDown)).1])
      | none => (kb.stream, []) := by
  have none_ := pressedKey_none sc
  unfold kbIrqHandlerLog
  by_cases ext : sc = 0xE0#8
  · rw [if_pos ext, none_ (.inl ext)]
  rw [if_neg ext]
  dsimp only
  by_cases shift : (sc &&& 0x7F#8).toNat = 0x2A ∨ (sc &&& 0x7F#8).toNat = 0x36
  · rw [if_pos shift, none_ (by tauto)]
  rw [if_neg shift]
  by_cases release : sc &&& 0x80#8 = 0#8
  · have press : (!decide (sc &&& 0x80#8 ≠ 0#8)) = true := by simp [release]
    simp only [press, and_true, true_and]
    by_cases caps : (sc &&& 0x7F#8).toNat = 0x3A
    · rw [if_pos caps, none_ (by tauto)]
    rw [if_neg caps]
    by_cases back : (sc &&& 0x7F#8).toNat = 0x0E
    · -- the backspace key has its own branch, but its character is in the map too
      have pick_back : ∀ a b, pick 0x0E a b = 0x08#8 := by decide
      have mapped : (scancodeMap (sc &&& 0x7F#8).toNat).1 ≠ 0#8 := by rw [back]; decide
      rw [if_pos back, pressedKey_some sc release mapped, back]
      unfold pressed
      dsimp only
      rw [pick_back, if_pos rfl]
    rw [if_neg back]
    by_cases mapped : (sc &&& 0x7F#8).toNat < 58 ∧ (scancodeMap (sc &&& 0x7F#8).toNat).1 ≠ 0#8
    · rw [if_pos mapped, pressedKey_some sc release mapped.2]
      unfold pressed
      dsimp only
      rw [if_neg back]
    · rw [if_neg mapped, none_ (by tauto)]
  · rw [none_ (by tauto)]
    simp [release]

/-- The ring after an interrupt. -/
lemma kbIrqHandler_rb (kb : Kb) (sc : Byte) : (kbIrqHandler kb sc).stream.rb =
    match pressedKey sc with
    | some code => (kbPut kb.stream (pick code kb.shiftDown kb.capsDown)).rb
    | none => kb.stream.rb := by
  have press := congrArg Prod.fst (kbIrqHandlerLog_press kb sc)
  dsimp only at press
  rw [kbIrqHandlerLog_val] at press
  rw [press]
  cases pressedKey sc with
  | none => rfl
  | some code =>
    dsimp only
    unfold pressed
    rw [kbPut_rb]
    dsimp only
    split
    · rfl
    · rw [kbPut_rb]

/-- The handler keeps the ring in bounds. -/
lemma kbIrqHandler_inBounds {kb : Kb} (h : kb.stream.rb.InBounds) (sc : Byte) :
    (kbIrqHandler kb sc).stream.rb.InBounds := by
  rw [kbIrqHandler_rb]
  cases pressedKey sc with
  | none => exact h
  | some code => exact (kbPut_spec h _).1

/-- One interrupt decodes its key exactly if Caps Lock does no harm. -/
lemma decodes_irq {kb : Kb} (h : kb.stream.rb.InBounds) (sc : Byte) :
    Decodes kb (.irq sc) () (kbIrqHandler kb sc) ↔ CapsHarmless kb (.irq sc) := by
  unfold Decodes CapsHarmless
  dsimp only
  rw [kbIrqHandler_rb]
  cases key : pressedKey sc with
  | none => simp
  | some code =>
    dsimp only
    rw [(kbPut_spec h _).2.2]
    constructor
    · rintro dec _ ⟨⟩ room
      have same := dec room
      rw [if_pos room] at same
      exact (pick_eq_decoded key ..).mp (List.singleton_inj.mp (List.append_cancel_left same))
    · intro harmless room
      rw [if_pos room, (pick_eq_decoded key ..).mpr (harmless code rfl room)]

/-- Every press of a run is decoded to the right character exactly if no key is pressed with Caps
    Lock on that Caps Lock does harm to. -/
theorem keys_decoded_iff (s : StreamT) (events : List Event) :
    Along step Decodes (kbInit s) events ↔ Guarded step CapsHarmless (kbInit s) events := by
  refine Along.iff_guarded (I := fun kb => kb.stream.rb.InBounds) (G := fun _ _ => True) ?_
    (RingBuf.streamInit_refines s stRead).1 Guarded.of_true
  intro kb e inb _
  cases e with
  | irq sc =>
    exact ⟨(), _, rfl, decodes_irq inb sc, fun _ => kbIrqHandler_inBounds inb sc⟩
  | read dst len =>
    refine ⟨(), _, rfl, Iff.rfl, fun _ => ?_⟩
    dsimp only
    unfold streamTryRead
    split
    · exact inb
    · exact (tryRead_spec inb len).2.1

/-- With Caps Lock on, the semicolon key types a colon. -/
theorem caps_shifts_semicolon :
    ¬ Along step Decodes (kbInit emptyStream) [.irq 0x3A#8, .irq 0x27#8] := by
  rintro ⟨_, kb1, e1, _, _, kb2, e2, dec, _⟩
  cases e1
  cases e2
  have typed := dec (by decide +kernel)
  revert typed
  decide +kernel

end TRS.Keyboard
