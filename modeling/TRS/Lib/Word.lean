import Mathlib.Algebra.Group.Nat.Defs
import Mathlib.Algebra.Group.Int.Defs
import Mathlib.Tactic.Lemma

/-!
# Machine words

The values of the fixed-width integer types of C as natural numbers, with the truncations that the
code's assignments and operators make.

* `u32_of_lt`, `u64_of_lt`: a number that fits does not wrap.
* `and_mask`: to mask by a power of two less one is to take the remainder.
-/

namespace TRS.Lib

/-- Truncation to `unsigned int`. -/
def u32 (n : Nat) : Nat := n % 2 ^ 32

/-- Truncation to `unsigned long long`. -/
def u64 (n : Nat) : Nat := n % 2 ^ 64

/-- The difference of two `unsigned long long`. -/
def sub64 (a b : Nat) : Nat := (a + (2 ^ 64 - b % 2 ^ 64)) % 2 ^ 64

/-- Truncation of a `long` to `unsigned int`. -/
def toU32 (z : Int) : Nat := (z % 2 ^ 32).toNat

/-- A 32-bit value read as an `int`. -/
def i32 (n : Nat) : Int := if n < 2 ^ 31 then n else (n : Int) - 2 ^ 32

lemma u32_of_lt {n : Nat} (lt : n < 2 ^ 32) : u32 n = n := Nat.mod_eq_of_lt lt

lemma u64_le (n : Nat) : u64 n ≤ n := Nat.mod_le _ _

lemma u64_lt (n : Nat) : u64 n < 2 ^ 64 := Nat.mod_lt _ (by decide)

lemma u64_of_lt {n : Nat} (lt : n < 2 ^ 64) : u64 n = n := Nat.mod_eq_of_lt lt

/-- A difference that is not negative does not wrap. -/
lemma sub64_of_le {a b : Nat} (le : b ≤ a) (lt : a < 2 ^ 64) : sub64 a b = a - b := by
  unfold sub64
  omega

/-- A small number is its own value as an `unsigned int`. -/
lemma toU32_natCast {n : Nat} (lt : n < 2 ^ 32) : toU32 n = n := by
  unfold toU32
  omega

/-- Masking the low `k` bits is taking the remainder, also after a truncation. -/
lemma and_mask (n k : Nat) : n &&& (2 ^ k - 1) = n % 2 ^ k := Nat.and_two_pow_sub_one_eq_mod n k

end TRS.Lib
