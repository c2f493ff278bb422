import TRS.Keyboard.Basic

/-!
# The two Shift keys

`shift_down` is one flag for two keys, and the handler drops the prefix `E0`, so that it takes the
codes `E0 2A`, `E0 AA`, `E0 36` and `E0 B6`, which a keyboard sends around its navigation keys, for
those of the Shift keys.

* `kbIrqHandler_shiftDown`: the flag after a scan code.
* `scan_exact`: it is right after one more code exactly if the other key is not held.

The headline `shift_exact_iff` is over all sequences of codes; `shift_forgets_right` holds both keys
and lets go of one.
-/

namespace TRS.Keyboard
open TRS.Lib TRS.Stream

/-- The keys as the scan codes tell of them: whether the next code has the prefix `E0`, and which
    Shift keys are held. -/
structure Held where
  prefixed : Bool
  left : Bool
  right : Bool

/-- No key is held. -/
def Held.none : Held := ⟨false, false, false⟩

/-- A Shift key is held. -/
def Held.shift (h : Held) : Bool := h.left || h.right

/-- The keys after one more scan code. -/
def Held.next (h : Held) (sc : Byte) : Held :=
  if sc = 0xE0#8 then { h with prefixed := true }
  else if h.prefixed then { h with prefixed := false }
  else if sc = 0x2A#8 then { h with left := true }
  else if sc = 0xAA#8 then { h with left := false }
  else if sc = 0x36#8 then { h with right := true }
  else if sc = 0xB6#8 then { h with right := false }
  else h

/-- One scan code, for the handler and for the keys. -/
def scan (s : Kb × Held) (sc : Byte) : Except Empty (Unit × (Kb × Held)) :=
  .ok ((), (kbIrqHandler s.1 sc, s.2.next sc))

/-- `shift_down` tells whether a Shift key is held. -/
def ShiftExact (_ : Kb × Held) (_ : Byte) (_ : Unit) (s' : Kb × Held) : Prop :=
  s'.1.shiftDown = s'.2.shift

/-- The code does not confuse the Shift keys: the key that is released is the only one held, and a
    prefixed Shift code says what the Shift keys say anyway. -/
def Unconfused (s : Kb × Held) (sc : Byte) : Prop :=
  if s.2.prefixed then
    ((sc = 0x2A#8 ∨ sc = 0x36#8) → s.2.shift = true) ∧
      ((sc = 0xAA#8 ∨ sc = 0xB6#8) → s.2.shift = false)
  else (sc = 0xAA#8 → s.2.right = false) ∧ (sc = 0xB6#8 → s.2.left = false)

/-- The codes that the handler takes for those of a Shift key. -/
lemma kbIrqHandler_shiftDown (kb : Kb) (sc : Byte) : (kbIrqHandler kb sc).shiftDown =
    if sc = 0x2A#8 ∨ sc = 0x36#8 then true
    else if sc = 0xAA#8 ∨ sc = 0xB6#8 then false
    else kb.shiftDown := by
  have codes : ∀ sc : Byte, ((sc &&& 0x7F#8).toNat = 0x2A ∨ (sc &&& 0x7F#8).toNat = 0x36) ↔
      (sc = 0x2A#8 ∨ sc = 0x36#8) ∨ (sc = 0xAA#8 ∨ sc = 0xB6#8) := by
    decide +kernel
  unfold kbIrqHandler
  by_cases ext : sc = 0xE0#8
  · subst ext
    rfl
  rw [if_neg ext]
  dsimp only
  by_cases press : sc = 0x2A#8 ∨ sc = 0x36#8
  · rw [if_pos ((codes sc).mpr (.inl press)), if_pos press]
    rcases press with rfl | rfl <;> rfl
  by_cases release : sc = 0xAA#8 ∨ sc = 0xB6#8
  · rw [if_pos ((codes sc).mpr (.inr release)), if_neg press, if_pos release]
    rcases release with rfl | rfl <;> rfl
  rw [if_neg fun h => ((codes sc).mp h).elim press release, if_neg press, if_neg release]
  repeat' split
  all_goals rfl

/-- One scan code keeps `shift_down` exact if and only if it does not confuse the Shift keys. -/
lemma scan_exact {s : Kb × Held} (exact_ : s.1.shiftDown = s.2.shift) (sc : Byte) :
    (kbIrqHandler s.1 sc).shiftDown = (s.2.next sc).shift ↔ Unconfused s sc := by
  obtain ⟨kb, prefixed, left, right⟩ := s
  dsimp only at exact_ ⊢
  rw [kbIrqHandler_shiftDown, exact_]
  unfold Unconfused Held.next Held.shift
  dsimp only
  by_cases shift : sc = 0x2A#8 ∨ sc = 0x36#8 ∨ sc = 0xAA#8 ∨ sc = 0xB6#8
  · -- the codes the handler takes for those of a Shift key: the prefix and the keys held decide
    rcases shift with rfl | rfl | rfl | rfl <;>
      cases prefixed <;> cases left <;> cases right <;> simp
  · -- any other code changes neither the flag nor the keys
    obtain ⟨c1, c2, c3, c4⟩ : sc ≠ 0x2A#8 ∧ sc ≠ 0x36#8 ∧ sc ≠ 0xAA#8 ∧ sc ≠ 0xB6#8 := by
      simpa only [not_or] using shift
    by_cases ext : sc = 0xE0#8 <;> cases prefixed <;> simp [c1, c2, c3, c4, ext]

/-- `shift_down` is exact after every scan code of a run if and only if none of them confuses the
    Shift keys. -/
theorem shift_exact_iff (s : StreamT) (codes : List Byte) :
    Along scan ShiftExact (kbInit s, Held.none) codes ↔
      Guarded scan Unconfused (kbInit s, Held.none) codes :=
  Along.iff_guarded (I := fun s => s.1.shiftDown = s.2.shift) (G := fun _ _ => True)
    (fun _ sc exact_ _ => ⟨(), _, rfl, scan_exact exact_ sc, id⟩) rfl Guarded.of_true

/-- Both Shift keys are pressed and the left one is released: `shift_down` forgets the right one. -/
theorem shift_forgets_right :
    ¬ Along scan ShiftExact (kbInit emptyStream, Held.none) [0x2A#8, 0x36#8, 0xAA#8] := by
  rintro ⟨_, s1, e1, _, _, s2, e2, _, _, s3, e3, exact_, _⟩
  cases e1
  cases e2
  cases e3
  have forgets : (kbInit emptyStream).shiftDown = true := exact_
  cases forgets

end TRS.Keyboard
