import Mathlib.Tactic.ByContra
import TRS.Libc.String

/-!
# Comparing C strings

`strcmp` tells the order of two strings. `strncmp` with a bound `n` above zero looks at one byte more
than the bound allows: if the first `n` bytes are equal and no string ends among them, the next one
decides.

* `strncmp_difference`: what it computes, as a difference of two prefixes.
* `not_decides`, `strncmp_behind`: where the bound is not respected, the byte behind it decides.

The headline `strncmp_bound_iff` says when the bound is respected, and `strncmp_reads_past_bound` is
a pair of strings where it is not.
-/

namespace TRS.Libc
open TRS.Lib

variable {a b s t : List Byte} {n : Nat}

/-- `strncmp` compares one byte more than it is asked to. -/
lemma strncmp_difference (ha : CStr a s) (hb : CStr b t) (n : Nat) :
    strncmp a b n = .ok (if n = 0 then 0 else difference (s.take (n + 1)) (t.take (n + 1))) := by
  unfold strncmp
  by_cases n0 : n = 0
  · rw [if_pos n0, if_pos n0]
  · rw [if_neg n0, if_neg n0]
    exact strncmpLoop_difference ha hb n

/-- The sign of `strncmp` is that of the order of the strings, cut at `n` bytes. -/
def SignRespected (n : Nat) (s t : List Byte) : Prop :=
  ∀ a b, CStr a s → CStr b t → ∃ r, strncmp a b n = .ok r ∧ Orders r (s.take n) (t.take n)

/-- What a comparison of at most `n` bytes promises: the sign, that no byte behind matters, and that
    a bound that exceeds both lengths is none. -/
structure BoundRespected (n : Nat) (s t : List Byte) : Prop where
  orders : SignRespected n s t
  within : ∀ a b a' b' s' t', CStr a s → CStr b t → CStr a' s' → CStr b' t' →
    s'.take n = s.take n → t'.take n = t.take n → strncmp a' b' n = strncmp a b n
  unbounded : s.length < n → t.length < n → ∀ a b, CStr a s → CStr b t →
    ∃ r r', strncmp a b n = .ok r ∧ strcmp a b = .ok r' ∧ r.sign = r'.sign

/-- The first `n` bytes decide: there are none, or the strings differ there or end there. -/
def Decides (n : Nat) (s t : List Byte) : Prop := n = 0 ∨ s.take n ≠ t.take n ∨ s.length < n

/-- If the first `n` bytes decide, `strncmp` is their first difference. -/
lemma Decides.strncmp (h : Decides n s t) (ha : CStr a s) (hb : CStr b t) :
    strncmp a b n = .ok (difference (s.take n) (t.take n)) := by
  rw [strncmp_difference ha hb]
  rcases h with rfl | stops
  · rfl
  · rw [difference_take stops]
    split
    · next n0 => rw [n0]; rfl
    · rfl

/-- Where the bound is not respected, both strings go on, and agree, up to it. -/
lemma not_decides (h : ¬ Decides n s t) : n ≠ 0 ∧ s.take n = t.take n ∧ n ≤ s.length := by
  obtain ⟨n0, rest⟩ := not_or.mp h
  obtain ⟨same, long⟩ := not_or.mp rest
  exact ⟨n0, not_not.mp same, Nat.not_lt.mp long⟩

/-- Whether the first `n` bytes decide is up to them. -/
lemma Decides.congr {s' t' : List Byte} (h : Decides n s t) (hs : s'.take n = s.take n)
    (ht : t'.take n = t.take n) : Decides n s' t' := by
  rcases h with n0 | ne | short
  · exact .inl n0
  · refine .inr (.inl ?_)
    rw [hs, ht]
    exact ne
  · refine .inr (.inr ?_)
    have len := congrArg List.length hs
    rw [List.length_take, List.length_take] at len
    omega

/-- The beginning of a string has no NUL. -/
lemma CStr.take_not_mem (h : CStr a s) (n : Nat) : 0#8 ∉ s.take n :=
  fun m => h.1 (List.mem_of_mem_take m)

/-- If they do not decide, the byte behind them does. -/
lemma strncmp_behind {p : List Byte} (len : p.length = n) (pos : n ≠ 0) (ha : CStr a (p ++ s))
    (hb : CStr b (p ++ t)) : strncmp a b n = .ok (difference (s.take 1) (t.take 1)) := by
  rw [strncmp_difference ha hb, if_neg pos, ← len, List.take_length_add_append,
    List.take_length_add_append, difference_append]

/-- The sign is right if the first `n` bytes decide, or if the next ones are equal as well. -/
lemma signRespected_iff (hs : 0#8 ∉ s) (ht : 0#8 ∉ t) :
    SignRespected n s t ↔ Decides n s t ∨ s[n]? = t[n]? := by
  by_cases h : Decides n s t
  · refine iff_of_true (fun a b ha hb => ⟨_, h.strncmp ha hb, ?_⟩) (.inl h)
    exact difference_orders (CStr.take_not_mem ha n) (CStr.take_not_mem hb n)
  · obtain ⟨n0, same, long⟩ := not_decides h
    rw [or_iff_right h]
    have value : ∀ a b, CStr a s → CStr b t →
        strncmp a b n = .ok (difference s[n]?.toList t[n]?.toList) := by
      intro a b ha hb
      rw [← List.head?_drop, ← List.head?_drop, ← List.take_one, ← List.take_one]
      refine strncmp_behind (p := s.take n) (List.length_take_of_le long) n0 ?_ ?_
      · rw [List.take_append_drop]
        exact ha
      · rw [same, List.take_append_drop]
        exact hb
    constructor
    · intro sign
      obtain ⟨r, run, orders⟩ := sign _ _ ⟨hs, [], rfl⟩ ⟨ht, [], rfl⟩
      rw [value _ _ ⟨hs, [], rfl⟩ ⟨ht, [], rfl⟩] at run
      have zero := Except.ok.inj run ▸ orders.eq.mpr same
      have nul : ∀ l : List Byte, 0#8 ∉ l → 0#8 ∉ l[n]?.toList := by
        intro l no m
        exact no (List.mem_of_getElem? (Option.mem_toList.mp m))
      have equal := congrArg List.head? ((difference_orders (nul s hs) (nul t ht)).eq.mp zero)
      rw [Option.head?_toList, Option.head?_toList] at equal
      exact equal
    · intro next a b ha hb
      refine ⟨_, value a b ha hb, ?_⟩
      rw [next, difference_self, ← difference_self (t.take n), same]
      exact difference_orders (CStr.take_not_mem hb n) (CStr.take_not_mem hb n)

/-- `strncmp` keeps to its bound if and only if the first `n` bytes decide. Its sign alone is right
    also where the bytes behind them are equal. -/
theorem strncmp_bound_iff (n : Nat) {s t : List Byte} (hs : 0#8 ∉ s) (ht : 0#8 ∉ t) :
    (BoundRespected n s t ↔ Decides n s t) ∧
      (SignRespected n s t ↔ Decides n s t ∨ s[n]? = t[n]?) := by
  refine ⟨?_, signRespected_iff hs ht⟩
  constructor
  · intro h
    by_contra no
    obtain ⟨n0, same, long⟩ := not_decides no
    have len : (s.take n).length = n := List.length_take_of_le long
    have nul : ∀ x : Byte, x ≠ 0#8 → CStr (s.take n ++ [x] ++ [0#8]) (s.take n ++ [x]) := by
      intro x x0
      refine ⟨fun m => ?_, [], rfl⟩
      rcases List.mem_append.mp m with m | m
      · exact hs (List.mem_of_mem_take m)
      · exact x0 (List.mem_singleton.mp m).symm
    have take : ∀ x : Byte, (s.take n ++ [x]).take n = s.take n := by
      intro x
      exact List.take_left' len
    have one := nul 1#8 (by decide)
    have two := nul 2#8 (by decide)
    -- the same first `n` bytes, with a smaller and with a greater byte behind those of `s`
    have less := h.within _ _ _ _ _ _ ⟨hs, [], rfl⟩ ⟨ht, [], rfl⟩ one two (take _)
      ((take _).trans same)
    have more := h.within _ _ _ _ _ _ ⟨hs, [], rfl⟩ ⟨ht, [], rfl⟩ two one (take _)
      ((take _).trans same)
    rw [strncmp_behind len n0 one two] at less
    rw [strncmp_behind len n0 two one, ← less] at more
    cases more
  · intro h
    constructor
    · exact (signRespected_iff hs ht).mpr (.inl h)
    · intro a b a' b' s' t' ha hb ha' hb' es et
      rw [h.strncmp ha hb, (h.congr es et).strncmp ha' hb', es, et]
    · intro ls lt a b ha hb
      refine ⟨_, _, h.strncmp ha hb, strcmp_difference ha hb, ?_⟩
      rw [List.take_of_length_le (Nat.le_of_lt ls), List.take_of_length_le (Nat.le_of_lt lt)]

/-- The strings `cd` and `cdx`, compared in five bytes. -/
theorem strncmp_bound_iff_short :
    (BoundRespected 5 (text "cd") (text "cdx") ↔ Decides 5 (text "cd") (text "cdx")) ∧
      (SignRespected 5 (text "cd") (text "cdx") ↔
        Decides 5 (text "cd") (text "cdx") ∨ (text "cd")[5]? = (text "cdx")[5]?) :=
  strncmp_bound_iff 5 (by decide) (by decide)

/-- "ab" and "ac" are equal up to one byte; `strncmp` compares the second ones. -/
theorem strncmp_reads_past_bound : strncmp (literal "ab") (literal "ac") 1 = .ok (-1) ∧
    ¬ SignRespected 1 (text "ab") (text "ac") := by
  refine ⟨rfl, fun sign => ?_⟩
  obtain ⟨r, run, orders⟩ := sign (literal "ab") (literal "ac") (literal_cstr (by decide))
    (literal_cstr (by decide))
  cases run
  exact absurd (orders.eq.mpr (by decide)) (by decide)

end TRS.Libc
