import TRS.Lib.CString

/-!
# Comparing strings

The lexicographic order of strings of unsigned bytes, as the first difference of two strings tells
it. A string that ends has a zero where the other one goes on.

* `difference_orders`: its sign is the order of the two strings.
* `difference_take`: a byte behind the first difference does not matter.
* `difference_append`: a common beginning does not matter.
-/

namespace TRS.Lib

/-- The sign of `r` tells the order of `s` and `t`. -/
structure Orders (r : Int) (s t : List Byte) : Prop where
  lt : r < 0 ↔ s < t
  eq : r = 0 ↔ s = t
  gt : 0 < r ↔ t < s

/-- The difference of the first bytes that differ. -/
def difference : List Byte → List Byte → Int
  | c :: s, d :: t => if c = d then difference s t else (c.toNat : Int) - d.toNat
  | s, t => ((s.headD 0#8).toNat : Int) - (t.headD 0#8).toNat

variable {s t : List Byte}

/-- Where the first string ends, the difference is the other one's byte, negated. -/
lemma difference_nil_cons (d : Byte) (t : List Byte) : difference [] (d :: t) = -(d.toNat : Int) :=
  Int.zero_sub _

/-- Where the second one ends, it is the byte of the first. -/
lemma difference_cons_nil (c : Byte) (s : List Byte) : difference (c :: s) [] = (c.toNat : Int) :=
  Int.sub_zero _

/-- A string does not differ from itself. -/
lemma difference_self (s : List Byte) : difference s s = 0 := by
  induction s with
  | nil => rfl
  | cons c s ih => exact (if_pos rfl).trans ih

/-- The first difference tells the order. -/
lemma difference_orders (hs : 0#8 ∉ s) (ht : 0#8 ∉ t) : Orders (difference s t) s t := by
  induction s generalizing t with
  | nil =>
    cases t with
    | nil => constructor <;> simp [difference_self]
    | cons d t =>
      have pos : d.toNat ≠ 0 := fun e => ht (BitVec.eq_of_toNat_eq (x := d) (y := 0#8) e ▸ .head t)
      rw [difference_nil_cons]
      constructor
      · exact iff_of_true (by omega) (List.nil_lt_cons d t)
      · exact iff_of_false (by omega) (List.cons_ne_nil d t).symm
      · exact iff_of_false (by omega) (List.not_lt_nil _)
  | cons c s ih =>
    cases t with
    | nil =>
      have pos : c.toNat ≠ 0 := fun e => hs (BitVec.eq_of_toNat_eq (x := c) (y := 0#8) e ▸ .head s)
      rw [difference_cons_nil]
      constructor
      · exact iff_of_false (by omega) (List.not_lt_nil _)
      · exact iff_of_false (by omega) (List.cons_ne_nil c s)
      · exact iff_of_true (by omega) (List.nil_lt_cons c s)
    | cons d t =>
      rw [difference]
      by_cases e : c = d
      · -- equal bytes leave the order to the rest
        subst e
        have rest := ih (fun m => hs (.tail c m)) (fun m => ht (.tail c m))
        have irrefl : ¬ c < c := BitVec.lt_irrefl c
        rw [if_pos rfl]
        constructor
        · rw [rest.lt, List.cons_lt_cons_iff]
          simp [irrefl]
        · rw [rest.eq, List.cons_inj_right]
        · rw [rest.gt, List.cons_lt_cons_iff]
          simp [irrefl]
      · have ne : c.toNat ≠ d.toNat := fun h => e (BitVec.eq_of_toNat_eq h)
        rw [if_neg e]
        constructor
        · rw [List.cons_lt_cons_iff, BitVec.lt_def]
          simp only [e, false_and, or_false]
          omega
        · exact iff_of_false (by omega) fun h => e (List.cons.inj h).1
        · rw [List.cons_lt_cons_iff, BitVec.lt_def]
          simp only [Ne.symm e, false_and, or_false]
          omega

/-- A byte behind the first difference, or behind the end of both strings, does not matter. -/
lemma difference_take {n : Nat} (stops : s.take n ≠ t.take n ∨ s.length < n) :
    difference (s.take (n + 1)) (t.take (n + 1)) = difference (s.take n) (t.take n) := by
  induction n generalizing s t with
  | zero => simp at stops
  | succ n ih =>
    match s, t with
    | [], [] => rfl
    | [], d :: t => simp only [List.take_nil, List.take_succ_cons, difference_nil_cons]
    | c :: s, [] => simp only [List.take_nil, List.take_succ_cons, difference_cons_nil]
    | c :: s, d :: t =>
      rw [List.take_succ_cons, List.take_succ_cons, List.take_succ_cons, List.take_succ_cons,
        difference, difference]
      by_cases e : c = d
      · rw [if_pos e, if_pos e]
        apply ih
        rw [List.take_succ_cons, List.take_succ_cons, e, List.length_cons] at stops
        exact stops.imp (fun ne same => ne (congrArg _ same)) Nat.lt_of_succ_lt_succ
      · rw [if_neg e, if_neg e]

/-- A common beginning does not matter. -/
lemma difference_append (p s t : List Byte) : difference (p ++ s) (p ++ t) = difference s t := by
  induction p with
  | nil => rfl
  | cons c p ih => exact (if_pos rfl).trans ih

end TRS.Lib
