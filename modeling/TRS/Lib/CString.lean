import Mathlib.Algebra.Group.Nat.Defs
import Mathlib.Tactic.Lemma
import TRS.Lib.Mem

/-!
# C strings in objects

A character array is the list of its bytes; a pointer into it is the rest of the list from there on.
An access past the end of the array is a `Fault`. `CStr b s` says that the bytes `b` start with the
string `s` and its terminating NUL.

* `CStr.deref`: the byte at a string, and `CStr.length_lt` the room that it has.
* `CStr.set`: a store behind its NUL leaves the string alone.
-/

namespace TRS.Lib

/-- An access outside an object. -/
inductive Fault where
  | bounds
  deriving DecidableEq, Repr

/-- The byte a pointer points to. -/
def deref : List Byte → Except Fault Byte
  | [] => .error .bounds
  | c :: _ => .ok c

/-- `b[i] = v`. -/
def store (b : List Byte) (i : Nat) (v : Byte) : Except Fault (List Byte) :=
  if i < b.length then .ok (b.set i v) else .error .bounds

/-- `while(p(*s)) s++`: how far the pointer goes. -/
def span (p : Byte → Bool) : List Byte → Except Fault Nat
  | [] => .error .bounds
  | c :: cs => if p c then (span p cs).map (· + 1) else .ok 0

/-- The value of bytes in little-endian order. -/
def leNat : List Byte → Nat
  | [] => 0
  | b :: bs => b.toNat + 2 ^ 8 * leNat bs

/-- The value of `n` bytes fits into `8 n` bits. -/
lemma leNat_lt (bs : List Byte) : leNat bs < 2 ^ (8 * bs.length) := by
  induction bs with
  | nil => exact Nat.one_pos
  | cons b bs ih =>
    have lt := b.isLt
    rw [leNat, List.length_cons, Nat.mul_add, Nat.pow_add, Nat.mul_comm (2 ^ (8 * bs.length))]
    omega

/-- The `n`-byte integer that a pointer points to. -/
def load (n : Nat) (b : List Byte) : Except Fault Nat :=
  if n ≤ b.length then .ok (leNat (b.take n)) else .error .bounds

/-- The bytes of a text. -/
def text (s : String) : List Byte := s.toList.map fun c => BitVec.ofNat 8 c.toNat

/-- The bytes of a string literal, with its NUL. -/
def literal (s : String) : List Byte := text s ++ [0#8]

/-- The bytes start with the string `s` and its NUL. -/
def CStr (b s : List Byte) : Prop := 0#8 ∉ s ∧ ∃ rest, b = s ++ 0#8 :: rest

/-- The byte at a string: the first one of its text, or the NUL. -/
lemma CStr.deref {b s : List Byte} (h : CStr b s) : deref b = .ok (s.headD 0#8) := by
  obtain ⟨_, rest, rfl⟩ := h
  cases s <;> rfl

/-- A buffer has room for the NUL of its string. -/
lemma CStr.length_lt {b s : List Byte} (h : CStr b s) : s.length < b.length := by
  obtain ⟨_, rest, rfl⟩ := h
  rw [List.length_append, List.length_cons]
  omega

/-- A store behind the NUL of a string leaves the string alone. -/
lemma CStr.set {b s : List Byte} (h : CStr b s) {i : Nat} (lt : s.length < i) (v : Byte) :
    CStr (b.set i v) s := by
  obtain ⟨ne, rest, rfl⟩ := h
  refine ⟨ne, rest.set (i - s.length - 1) v, ?_⟩
  rw [List.set_append_right _ _ (by omega)]
  obtain ⟨j, e⟩ : ∃ j, i - s.length = j + 1 := ⟨i - s.length - 1, by omega⟩
  rw [e]
  rfl

/-- A literal is the string of its text. -/
lemma literal_cstr {s : String} (ne : 0#8 ∉ text s) : CStr (literal s) (text s) := ⟨ne, [], rfl⟩

/-- A scan of a string stops within it if the condition fails on NUL. -/
lemma span_append {p : Byte → Bool} (zero : p 0#8 = false) (s rest : List Byte) :
    span p (s ++ 0#8 :: rest) = .ok (s.takeWhile p).length := by
  induction s with
  | nil => rw [List.nil_append, span, zero]; rfl
  | cons c s ih =>
    rw [List.cons_append, span, ih, List.takeWhile_cons]
    cases p c <;> rfl

end TRS.Lib
