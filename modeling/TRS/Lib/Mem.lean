import Mathlib.Tactic.Lemma
import Mathlib.Tactic.TypeStar
import TRS.Lib.Loop

/-!
# Byte-addressed memory and bit arrays in it

`Mem` is a byte-addressed memory. A bit array at address `base` keeps bit `p` in bit `p % 8` of the
byte at `base + p / 8`; `setBit`, `clearBit` and `bitsFrom` (the byte of bit `p`, shifted right so
that bit `p` comes first) are the operations on it, and each has the lemma that says what it does to
`bitAt`.

* `bitAt_setBit`, `bitAt_clearBit`: one bit.
* `bitAt_setBits`, `bitAt_clearBits`: a range of bits, by induction on its end.
* `bitsFrom_eq_zero`: the shifted byte is zero exactly if no bit from `p` on is set in it.
-/

namespace TRS.Lib

/-- An `unsigned char`. -/
abbrev Byte := BitVec 8

/-- A byte-addressed memory. -/
abbrev Mem := Nat → Byte

/-- Store one byte. -/
def Mem.write (m : Mem) (a : Nat) (v : Byte) : Mem := fun x => if x = a then v else m x

@[simp] lemma Mem.write_same (m : Mem) (a : Nat) (v : Byte) : m.write a v a = v := by
  simp [Mem.write]

lemma Mem.write_other (m : Mem) {a b : Nat} (v : Byte) (ne : b ≠ a) : m.write a v b = m b := by
  simp [Mem.write, ne]

/-! ## Bits of one byte -/

/-- A byte with one bit set. -/
lemma getLsbD_or_bit (b : Byte) {k : Nat} (lt : k < 8) (j : Nat) :
    (b ||| 1#8 <<< k).getLsbD j = (decide (j = k) || b.getLsbD j) := by
  by_cases hj : j < 8
  · by_cases e : j = k
    · subst e; simp [hj]
    · have h : ¬ (j - k = 0 ∧ k ≤ j) := by omega
      by_cases lek : k ≤ j
      · have : j - k ≠ 0 := by omega
        simp [e, this]
      · simp [e, show j < k by omega]
  · have e : j ≠ k := by omega
    simp [BitVec.getLsbD_of_ge, show 8 ≤ j by omega, e]

/-- A byte with one bit cleared. -/
lemma getLsbD_and_not_bit (b : Byte) {k : Nat} (lt : k < 8) (j : Nat) :
    (b &&& ~~~(1#8 <<< k)).getLsbD j = (!decide (j = k) && b.getLsbD j) := by
  by_cases hj : j < 8
  · by_cases e : j = k
    · subst e; simp [hj]
    · by_cases lek : k ≤ j
      · have : j - k ≠ 0 := by omega
        simp [e, this, hj]
      · simp [e, show j < k by omega, hj]
  · have e : j ≠ k := by omega
    simp [BitVec.getLsbD_of_ge, show 8 ≤ j by omega, e]

/-- A byte shifted right by `k` is zero when none of its bits from `k` on is set. -/
lemma ushiftRight_eq_zero (b : Byte) (k : Nat) :
    b >>> k = 0#8 ↔ ∀ j, k ≤ j → b.getLsbD j = false := by
  constructor
  · intro h j le
    have e := congrArg (fun x => x.getLsbD (j - k)) h
    simpa [BitVec.getLsbD_ushiftRight, show k + (j - k) = j by omega] using e
  · intro h
    apply BitVec.eq_of_getLsbD_eq
    intro i _
    simp [BitVec.getLsbD_ushiftRight, h (k + i) (by omega)]

/-! ## Bit arrays -/

/-- Bit `p` of the array at `base`. -/
def bitAt (m : Mem) (base p : Nat) : Bool := (m (base + p / 8)).getLsbD (p % 8)

/-- Set bit `p`. -/
def setBit (m : Mem) (base p : Nat) : Mem :=
  m.write (base + p / 8) (m (base + p / 8) ||| 1#8 <<< (p % 8))

/-- Clear bit `p`. -/
def clearBit (m : Mem) (base p : Nat) : Mem :=
  m.write (base + p / 8) (m (base + p / 8) &&& ~~~(1#8 <<< (p % 8)))

/-- The byte of bit `p`, shifted so that bit `p` is its lowest bit. -/
def bitsFrom (m : Mem) (base p : Nat) : Byte := m (base + p / 8) >>> (p % 8)

/-- The bits after one is set. -/
lemma bitAt_setBit (m : Mem) (base p q : Nat) :
    bitAt (setBit m base p) base q = (decide (q = p) || bitAt m base q) := by
  by_cases e : q / 8 = p / 8
  · have h : (q % 8 = p % 8) ↔ q = p := by omega
    rw [bitAt, setBit, e, Mem.write_same, getLsbD_or_bit _ (Nat.mod_lt p (by omega))]
    simp only [h, bitAt, e]
  · have ne : q ≠ p := fun h => e (by rw [h])
    rw [bitAt, setBit, Mem.write_other _ _ (by omega)]
    simp [ne, bitAt]

/-- The bits after one is cleared. -/
lemma bitAt_clearBit (m : Mem) (base p q : Nat) :
    bitAt (clearBit m base p) base q = (!decide (q = p) && bitAt m base q) := by
  by_cases e : q / 8 = p / 8
  · have h : (q % 8 = p % 8) ↔ q = p := by omega
    rw [bitAt, clearBit, e, Mem.write_same, getLsbD_and_not_bit _ (Nat.mod_lt p (by omega))]
    simp only [h, bitAt, e]
  · have ne : q ≠ p := fun h => e (by rw [h])
    rw [bitAt, clearBit, Mem.write_other _ _ (by omega)]
    simp [ne, bitAt]

/-- Set the bits `lo .. hi - 1`. -/
def setBits (m : Mem) (base lo hi : Nat) : Mem := forRange lo hi (fun p m => setBit m base p) m

/-- Clear the bits `lo .. hi - 1`. -/
def clearBits (m : Mem) (base lo hi : Nat) : Mem := forRange lo hi (fun p m => clearBit m base p) m

/-- The bits after a range of them is set. -/
lemma bitAt_setBits (m : Mem) (base lo hi q : Nat) :
    bitAt (setBits m base lo hi) base q = (decide (lo ≤ q ∧ q < hi) || bitAt m base q) := by
  by_cases le : lo ≤ hi
  · apply forRange_induct
      (fun i t => bitAt t base q = (decide (lo ≤ q ∧ q < i) || bitAt m base q)) le
    · have none : ¬ (lo ≤ q ∧ q < lo) := by omega
      simp [none]
    · intro i t h1 _ ih
      have e : (decide (q = i) || decide (lo ≤ q ∧ q < i)) = decide (lo ≤ q ∧ q < i + 1) := by
        rw [← Bool.decide_or]; congr 1; apply propext; omega
      rw [bitAt_setBit, ih, ← Bool.or_assoc, e]
  · have : ¬ (lo ≤ q ∧ q < hi) := by omega
    simp [setBits, forRange_of_le (show hi ≤ lo by omega), this]

/-- The bits after a range of them is cleared. -/
lemma bitAt_clearBits (m : Mem) (base lo hi q : Nat) :
    bitAt (clearBits m base lo hi) base q = (!decide (lo ≤ q ∧ q < hi) && bitAt m base q) := by
  by_cases le : lo ≤ hi
  · apply forRange_induct
      (fun i t => bitAt t base q = (!decide (lo ≤ q ∧ q < i) && bitAt m base q)) le
    · have none : ¬ (lo ≤ q ∧ q < lo) := by omega
      simp [none]
    · intro i t h1 _ ih
      have e : (!decide (q = i) && !decide (lo ≤ q ∧ q < i)) = !decide (lo ≤ q ∧ q < i + 1) := by
        rw [← Bool.not_or, ← Bool.decide_or]; congr 2; apply propext; omega
      rw [bitAt_clearBit, ih, ← Bool.and_assoc, e]
  · have : ¬ (lo ≤ q ∧ q < hi) := by omega
    simp [clearBits, forRange_of_le (show hi ≤ lo by omega), this]

/-- The unmasked test of bit `p` looks at every bit of the byte from `p` on. -/
lemma bitsFrom_eq_zero (m : Mem) (base p : Nat) :
    bitsFrom m base p = 0#8 ↔ ∀ q, p ≤ q → q / 8 = p / 8 → bitAt m base q = false := by
  rw [bitsFrom, ushiftRight_eq_zero]
  constructor
  · intro h q le e
    rw [bitAt, e]
    exact h (q % 8) (by omega)
  · intro h j le
    by_cases lt : j < 8
    · have e : (p / 8 * 8 + j) / 8 = p / 8 := by omega
      have e' : (p / 8 * 8 + j) % 8 = j := by omega
      have hq := h (p / 8 * 8 + j) (by omega) e
      rwa [bitAt, e, e'] at hq
    · exact BitVec.getLsbD_of_ge _ _ (by omega)

end TRS.Lib
