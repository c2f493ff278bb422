import TRS.Lib.Mem

/-!
# Arrays of 32-bit words in memory

`Mem.load32` and `Mem.store32` are little-endian; `Mem.moved` is the memory with a range of bytes
copied to another place. `Holds m₀ base n w m` says that `m` is `m₀` but for an array of `n` words
at `base`, which are `w`; the stores and moves of a program have each a rule for it.

* `load32_store32_same`, `load32_store32_other`: a word is read back, and one beside it stays.
* `moved_moved`: an upward move may be made in two parts.
* `Holds.store`, `Holds.moved`: the rules for a store and a move.
-/

namespace TRS.Lib

/-- A 32-bit word. -/
abbrev Pixel := BitVec 32

namespace Mem

/-- The word at address `a`. -/
def load32 (m : Mem) (a : Nat) : Pixel := m (a + 3) ++ m (a + 2) ++ m (a + 1) ++ m a

/-- Store a word at address `a`. -/
def store32 (m : Mem) (a : Nat) (v : Pixel) : Mem :=
  (((m.write a (v.extractLsb' 0 8)).write (a + 1) (v.extractLsb' 8 8)).write
    (a + 2) (v.extractLsb' 16 8)).write (a + 3) (v.extractLsb' 24 8)

/-- The memory with the `n` bytes from `s` on copied to `d`. -/
def moved (m : Mem) (d s n : Nat) : Mem := fun a => if d ≤ a ∧ a < d + n then m (a - d + s) else m a

/-- The bytes after a word is stored. -/
lemma store32_apply (m : Mem) (a : Nat) (v : Pixel) (b : Nat) :
    m.store32 a v b = if a ≤ b ∧ b < a + 4 then v.extractLsb' (8 * (b - a)) 8 else m b := by
  unfold store32 write
  by_cases h3 : b = a + 3
  · rw [if_pos h3, if_pos (by omega), h3, Nat.add_sub_cancel_left]
  by_cases h2 : b = a + 2
  · rw [if_neg h3, if_pos h2, if_pos (by omega), h2, Nat.add_sub_cancel_left]
  by_cases h1 : b = a + 1
  · rw [if_neg h3, if_neg h2, if_pos h1, if_pos (by omega), h1, Nat.add_sub_cancel_left]
  by_cases h0 : b = a
  · rw [if_neg h3, if_neg h2, if_neg h1, if_pos h0, if_pos (by omega), h0, Nat.sub_self]
  · rw [if_neg h3, if_neg h2, if_neg h1, if_neg h0, if_neg (by omega)]

/-- A word that is stored is read back. -/
lemma load32_store32_same (m : Mem) (a : Nat) (v : Pixel) : (m.store32 a v).load32 a = v := by
  unfold load32
  simp only [store32_apply]
  rw [if_pos (by omega), if_pos (by omega), if_pos (by omega), if_pos (by omega)]
  apply BitVec.eq_of_getLsbD_eq
  intro i lt
  simp only [BitVec.getLsbD_append, BitVec.getLsbD_extractLsb']
  by_cases h0 : i < 8
  · simp [h0]
  by_cases h1 : i < 16
  · simp [h0, show i - 8 < 8 by omega, show 8 + (i - 8) = i by omega]
  by_cases h2 : i < 24
  · simp [h0, show i - 8 - 8 < 8 by omega, show 16 + (i - 8 - 8) = i by omega,
      show ¬ i - 8 < 8 by omega]
  · simp [h0, show i - 8 - 8 - 8 < 8 by omega, show 24 + (i - 8 - 8 - 8) = i by omega,
      show ¬ i - 8 < 8 by omega, show ¬ i - 8 - 8 < 8 by omega]

/-- A word depends on its four bytes only. -/
lemma load32_congr {m m' : Mem} {a b : Nat} (same : ∀ i < 4, m (a + i) = m' (b + i)) :
    m.load32 a = m'.load32 b := by
  have s0 := same 0 (by decide)
  rw [load32, load32, same 3 (by decide), same 2 (by decide), same 1 (by decide)]
  exact congrArg _ s0

/-- A word beside it stays. -/
lemma load32_store32_other (m : Mem) {a b : Nat} (v : Pixel) (ne : b + 4 ≤ a ∨ a + 4 ≤ b) :
    (m.store32 a v).load32 b = m.load32 b := by
  apply load32_congr
  intro i lt
  rw [store32_apply, if_neg (by omega)]

/-- The bytes of a word are those of the memory. -/
lemma extract_load32 (m : Mem) (a : Nat) {i : Nat} (lt : i < 4) :
    (m.load32 a).extractLsb' (8 * i) 8 = m (a + i) := by
  apply BitVec.eq_of_getLsbD_eq
  intro j lj
  simp only [load32, BitVec.getLsbD_append, BitVec.getLsbD_extractLsb', lj, decide_true,
    Bool.true_and]
  obtain rfl | rfl | rfl | rfl : i = 0 ∨ i = 1 ∨ i = 2 ∨ i = 3 := by omega
  · simp [lj]
  · simp [show ¬ 8 * 1 + j < 8 by omega, show 8 * 1 + j - 8 = j by omega, lj]
  · simp [show ¬ 8 * 2 + j < 8 by omega, show ¬ 8 * 2 + j - 8 < 8 by omega,
      show 8 * 2 + j - 8 - 8 = j by omega, lj]
  · simp [show ¬ 8 * 3 + j < 8 by omega, show ¬ 8 * 3 + j - 8 < 8 by omega,
      show ¬ 8 * 3 + j - 8 - 8 < 8 by omega, show 8 * 3 + j - 8 - 8 - 8 = j by omega]

/-- To copy a word is to move four bytes. -/
lemma store32_load32 (m : Mem) (d s : Nat) : m.store32 d (m.load32 s) = m.moved d s 4 := by
  funext a
  rw [store32_apply]
  unfold moved
  by_cases c : d ≤ a ∧ a < d + 4
  · rw [if_pos c, if_pos c, extract_load32 m s (show a - d < 4 by omega), Nat.add_comm]
  · rw [if_neg c, if_neg c]

/-- Copying `n` bytes upwards from `s` to `d` reads no byte that it has written. -/
def Upwards (d s n : Nat) : Prop := d ≤ s ∨ s + n ≤ d

namespace Upwards
variable {d s n k : Nat}

/-- The beginning of an upward copy is one. -/
lemma take (up : Upwards d s (n + k)) : Upwards d s n := by
  cases up with
  | inl le => exact .inl le
  | inr apart => exact .inr (by omega)

/-- So is the rest of it. -/
lemma drop (up : Upwards d s (n + k)) : Upwards (d + n) (s + n) k := by
  cases up with
  | inl le => exact .inl (Nat.add_le_add_right le n)
  | inr apart => exact .inr (by omega)

end Upwards

/-- The destination of a move has the bytes of its source. -/
lemma moved_copied (m : Mem) (d s : Nat) {n i : Nat} (lt : i < n) :
    m.moved d s n (d + i) = m (s + i) := by
  unfold moved
  rw [if_pos (by omega), Nat.add_sub_cancel_left, Nat.add_comm]

/-- Outside of the destination a move changes nothing. -/
lemma moved_kept (m : Mem) {d n a : Nat} (s : Nat) (out : a < d ∨ d + n ≤ a) :
    m.moved d s n a = m a := if_neg (by omega)

/-- Copying on from where a copy stopped. -/
lemma moved_moved (m : Mem) {d s n k : Nat} (up : Upwards d s (n + k)) :
    (m.moved d s n).moved (d + n) (s + n) k = m.moved d s (n + k) := by
  funext a
  by_cases out : a < d ∨ d + (n + k) ≤ a
  · rw [moved_kept _ _ out, moved_kept _ _ (by omega), moved_kept _ _ (by omega)]
  · obtain ⟨i, rfl⟩ := Nat.exists_eq_add_of_le (show d ≤ a by omega)
    rw [moved_copied _ _ _ (by omega)]
    by_cases done : i < n
    · rw [moved_kept _ _ (by omega), moved_copied _ _ _ done]
    · obtain ⟨j, rfl⟩ := Nat.exists_eq_add_of_le (Nat.le_of_not_lt done)
      rw [← Nat.add_assoc, moved_copied _ _ _ (by omega), Nat.add_assoc]
      -- the byte still to be copied has not been written
      cases up with
      | inl le => exact moved_kept _ _ (by omega)
      | inr apart => exact moved_kept _ _ (by omega)

/-- To copy a byte is to move one. -/
lemma write_eq_moved (m : Mem) (d s : Nat) : m.write d (m s) = m.moved d s 1 := by
  funext a
  unfold write moved
  by_cases e : a = d
  · rw [if_pos e, if_pos (by omega), e, Nat.sub_self, Nat.zero_add]
  · rw [if_neg e, if_neg (by omega)]

end Mem

/-- `m` holds the `n` words `w` at `base` and is `m₀` elsewhere. -/
structure Holds (m₀ : Mem) (base n : Nat) (w : Nat → Pixel) (m : Mem) : Prop where
  words : ∀ k < n, m.load32 (base + 4 * k) = w k
  frame : ∀ a, a < base ∨ base + 4 * n ≤ a → m a = m₀ a

namespace Holds
variable {m₀ m : Mem} {base n : Nat} {w w' : Nat → Pixel}

lemma self (m : Mem) (base n : Nat) : Holds m base n (fun k => m.load32 (base + 4 * k)) m :=
  ⟨fun _ _ => rfl, fun _ _ => rfl⟩

lemma congr (h : Holds m₀ base n w m) (same : ∀ k < n, w k = w' k) : Holds m₀ base n w' m :=
  ⟨fun k lt => (h.words k lt).trans (same k lt), h.frame⟩

/-- A byte of no word that has changed is as it was. -/
lemma unchanged (h : Holds m₀ base n w m) {a : Nat}
    (same : ∀ k < n, base + 4 * k ≤ a → a < base + 4 * k + 4 → w k = m₀.load32 (base + 4 * k)) :
    m a = m₀ a := by
  by_cases out : a < base ∨ base + 4 * n ≤ a
  · exact h.frame a out
  · obtain ⟨k, i, lt, lk, rfl⟩ : ∃ k i, i < 4 ∧ k < n ∧ base + 4 * k + i = a :=
      ⟨(a - base) / 4, (a - base) % 4, by omega, by omega, by omega⟩
    have word := (h.words k lk).trans (same k lk (by omega) (by omega))
    rw [← Mem.extract_load32 m _ lt, word, Mem.extract_load32 m₀ _ lt]

/-- The rule of a store to the array. -/
lemma store (h : Holds m₀ base n w m) {p : Nat} (lt : p < n) (v : Pixel) :
    Holds m₀ base n (fun k => if k = p then v else w k) (m.store32 (base + 4 * p) v) where
  words k lk := by
    by_cases e : k = p
    · rw [if_pos e, e, Mem.load32_store32_same]
    · rw [if_neg e, Mem.load32_store32_other _ _ (by omega), h.words k lk]
  frame a out := by
    rw [Mem.store32_apply, if_neg (by omega), h.frame a out]

/-- The rule of moving all the words from word `l` on to the front. -/
lemma moved (h : Holds m₀ base n w m) {l : Nat} (le : l ≤ n) :
    Holds m₀ base n (fun k => if k + l < n then w (k + l) else w k)
      (m.moved base (base + 4 * l) ((n - l) * 4)) where
  words k lk := by
    by_cases c : k + l < n
    · rw [if_pos c, ← h.words (k + l) c]
      apply Mem.load32_congr
      intro i lt
      rw [Mem.moved, if_pos (by omega)]
      exact congrArg m (by omega)
    · rw [if_neg c, ← h.words k lk]
      apply Mem.load32_congr
      intro i lt
      exact if_neg (by omega)
  frame a out := by
    rw [Mem.moved, if_neg (by omega), h.frame a out]

end Holds

end TRS.Lib
