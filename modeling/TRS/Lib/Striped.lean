import Mathlib.Data.List.GetD
import TRS.Lib.Block

/-!
# A sequence of bytes in blocks

Blocks in a row hold a sequence of bytes. `bytesAt` reads the sequence; a read or a write that stays
in one block is a read or a write of the sequence (`bytesAt_block`, `byteAt_splice`), and reads in a
row are one read (`bytesAt_add`). `overwrite` is what a write does to a list of bytes: where it
begins behind the end, the bytes in between are not determined.
-/

namespace TRS.Lib
variable {n : Nat}

/-- The byte at position `p`. -/
def byteAt (row : Nat → Block n) (p : Nat) : Byte := (row (p / n)).bytes (p % n)

/-- The `len` bytes from position `p` on. -/
def bytesAt (row : Nat → Block n) (p len : Nat) : List Byte :=
  (List.range len).map fun j => byteAt row (p + j)

section Row
variable {row row' : Nat → Block n} {p len : Nat}

@[simp] lemma length_bytesAt : (bytesAt row p len).length = len := by
  rw [bytesAt, List.length_map, List.length_range]

lemma getElem_bytesAt {j : Nat} (lt : j < (bytesAt row p len).length) :
    (bytesAt row p len)[j] = byteAt row (p + j) := by
  simp [bytesAt]

/-- They depend on their places only. -/
lemma bytesAt_congr (same : ∀ q, p ≤ q → q < p + len → byteAt row' q = byteAt row q) :
    bytesAt row' p len = bytesAt row p len := by
  refine List.map_congr_left fun j mem => same _ (Nat.le_add_right ..) ?_
  have := List.mem_range.mp mem
  omega

/-- Bytes in a row. -/
lemma bytesAt_add (a b : Nat) :
    bytesAt row p (a + b) = bytesAt row p a ++ bytesAt row (p + a) b := by
  unfold bytesAt
  rw [List.range_add, List.map_append, List.map_map]
  congr 1
  refine List.map_congr_left fun j _ => ?_
  rw [Function.comp_apply, Nat.add_assoc]

/-- A part of a read. -/
lemma take_drop_bytesAt (n p len : Nat) :
    ((bytesAt row 0 n).drop p).take len = bytesAt row p (min len (n - p)) := by
  refine List.ext_getElem (by simp) fun j lt lt' => ?_
  rw [List.getElem_take, List.getElem_drop, getElem_bytesAt, getElem_bytesAt, Nat.zero_add]

/-- A read that stays in one block. -/
lemma bytesAt_block (inside : p % n + len ≤ n) :
    bytesAt row p len = (row (p / n)).slice (p % n) len := by
  refine List.map_congr_left fun j mem => ?_
  have lt : j < len := List.mem_range.mp mem
  have pos : 0 < n := by omega
  have split : p + j = (p % n + j) + n * (p / n) := by
    have := Nat.mod_add_div p n
    omega
  have small : p % n + j < n := by omega
  unfold byteAt
  rw [split, Nat.add_mul_div_left _ _ pos, Nat.div_eq_of_lt small, Nat.zero_add,
    Nat.add_mul_mod_self_left, Nat.mod_eq_of_lt small]

/-- A write that stays in one block. -/
lemma byteAt_splice {data : List Byte} (inside : p % n + data.length ≤ n) (pos : 0 < n) (q : Nat) :
    byteAt (Function.update row (p / n) ((row (p / n)).splice (p % n) data)) q =
      if p ≤ q ∧ q < p + data.length then data.getD (q - p) 0#8 else byteAt row q := by
  have eq_p := Nat.mod_add_div p n
  have eq_q := Nat.mod_add_div q n
  have small := Nat.mod_lt q pos
  unfold byteAt
  by_cases same : q / n = p / n
  · rw [same] at eq_q ⊢
    rw [Function.update_self, Block.splice_bytes _ _ _ small]
    have shift : q % n - p % n = q - p := by omega
    rw [shift]
    congr 1
    exact propext ⟨fun h => by omega, fun h => by omega⟩
  · rw [Function.update_of_ne same, if_neg]
    rintro ⟨le, lt⟩
    refine same (Nat.le_antisymm ?_ (Nat.div_le_div_right le))
    rw [← Nat.lt_succ_iff, Nat.div_lt_iff_lt_mul pos, Nat.succ_mul, Nat.mul_comm]
    omega

end Row

/-! ## Overwriting a list of bytes -/

/-- `new` is `old` with `data` stored from `pos` on; between the end of `old` and `pos` it may have
    any bytes. -/
def Overwrites (old : List Byte) (pos : Nat) (data new : List Byte) : Prop :=
  ∃ gap, gap.length = pos - old.length ∧
    new = (old ++ gap).take pos ++ data ++ old.drop (pos + data.length)

/-- A write that begins in the list leaves no gap. -/
lemma Overwrites.eq {old data new : List Byte} {pos : Nat} (h : Overwrites old pos data new)
    (le : pos ≤ old.length) : new = old.take pos ++ data ++ old.drop (pos + data.length) := by
  obtain ⟨gap, len, eq⟩ := h
  rw [Nat.sub_eq_zero_of_le le] at len
  rw [eq, List.eq_nil_of_length_eq_zero len, List.append_nil]

/-- To overwrite makes no list shorter, and lengthens one that ends before the data does. -/
lemma Overwrites.length {old data new : List Byte} {pos : Nat} (h : Overwrites old pos data new) :
    new.length = max old.length (pos + data.length) := by
  obtain ⟨gap, len, rfl⟩ := h
  simp only [List.length_append, List.length_take, List.length_drop, len]
  omega

/-- A write to the sequence is a write to the list of its first bytes. -/
lemma overwrites_bytesAt {row row' : Nat → Block n} {size p : Nat} {data : List Byte}
    (new : ∀ j < data.length, byteAt row' (p + j) = data.getD j 0#8)
    (old : ∀ q < size, q < p ∨ p + data.length ≤ q → byteAt row' q = byteAt row q) :
    Overwrites (bytesAt row 0 size) p data (bytesAt row' 0 (max size (p + data.length))) := by
  have split : max size (p + data.length) = p + data.length + (size - (p + data.length)) := by omega
  refine ⟨bytesAt row' size (p - size), by simp, ?_⟩
  rw [split, bytesAt_add, bytesAt_add, Nat.zero_add, Nat.zero_add]
  congr 1
  · congr 1
    · refine List.ext_getElem (by simp; omega) fun j lt lt' => ?_
      rw [length_bytesAt] at lt
      rw [getElem_bytesAt, List.getElem_take]
      by_cases inside : j < size
      · rw [List.getElem_append_left (by rwa [length_bytesAt]), getElem_bytesAt]
        exact old _ (by omega) (.inl (by omega))
      · rw [List.getElem_append_right (by rw [length_bytesAt]; omega), getElem_bytesAt,
          length_bytesAt]
        congr 1
        omega
    · refine List.ext_getElem (by simp) fun j lt lt' => ?_
      rw [getElem_bytesAt, new j lt', List.getD_eq_getElem _ _ lt']
  · refine List.ext_getElem (by simp) fun j lt lt' => ?_
    rw [length_bytesAt] at lt
    rw [getElem_bytesAt, List.getElem_drop, getElem_bytesAt, Nat.zero_add]
    exact old _ (by omega) (.inr (by omega))

end TRS.Lib
