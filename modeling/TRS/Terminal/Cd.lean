import TRS.Terminal.Parser

/-!
# The directory that `cd` leaves

`changeDir` says on strings what the branch `cd` of `command_parser` does to `current`;
`cdCommand_spec` says that the branch does it, within the bytes of `current`.

* `cdRelative_ok`, `cdUp_ok`, `cdCommand_home`: the three kinds of argument.
* `cdCommand_target`: the branch on any argument.
-/

namespace TRS.Terminal
open TRS.Lib TRS.Libc

/-- What stands before the last `d` of a string. -/
def beforeLast (d : Byte) : List Byte → Option (List Byte)
  | [] => none
  | c :: cs =>
    match beforeLast d cs with
    | some p => some (c :: p)
    | none => if c = d then some [] else none

/-- What has no separator has nothing before the last one. -/
lemma beforeLast_none {d : Byte} {s : List Byte} (no : d ∉ s) : beforeLast d s = none := by
  induction s with
  | nil => rfl
  | cons c s ih =>
    rw [beforeLast, ih fun m => no (.tail c m)]
    exact if_neg fun e : c = d => no (e ▸ .head s)

/-- What comes before the last separator. -/
lemma beforeLast_some {d : Byte} (pre : List Byte) {post : List Byte} (no : d ∉ post) :
    beforeLast d (pre ++ d :: post) = some pre := by
  induction pre with
  | nil =>
    rw [List.nil_append, beforeLast, beforeLast_none no]
    exact if_pos rfl
  | cons c pre ih => rw [List.cons_append, beforeLast, ih]

/-- The directory that a terminal starts in, and that `cd` alone returns to. -/
def home : List Byte := text "space/user"

/-- The directory after `cd` with, or without, a target. -/
def changeDir (s : List Byte) : Option (List Byte) → List Byte
  | none => home
  | some t =>
    if t = [dot] then s
    else if t = [dot, dot] then (beforeLast slash s).getD s
    else if t.head? = some slash then
      if t.length < currentSize then t.tail else s
    else if s.length + 1 + t.length < currentSize then
      (if s = [] ∨ s.getLast? = some slash then s else s ++ [slash]) ++ t
    else s

/-- `cd` without an argument goes home. -/
lemma cdCommand_home {current : List Byte} (trgt : List Byte) {argc : Nat} (few : argc < 2)
    (size : current.length = currentSize) :
    ∃ current', cdCommand current argc trgt = .ok ([], current') ∧
      current'.length = currentSize ∧ CStr current' home := by
  have h : CStr (literal "space/user") home := literal_cstr (by decide)
  obtain ⟨current', e, str, len⟩ := strcpy_ok current h (by rw [size]; decide)
  exact ⟨current', by rw [cdCommand, if_pos few, e]; rfl, len.trans size, str⟩

/-- The last byte of a nonempty string in the array. -/
lemma deref_last {b s : List Byte} (h : CStr b s) (ne : s ≠ []) :
    deref (b.drop (s.length - 1)) = .ok (s.getLast ne) := by
  obtain ⟨_, rest, rfl⟩ := h
  have split : s ++ 0#8 :: rest = s.dropLast ++ (s.getLast ne :: 0#8 :: rest) := by
    conv => lhs; rw [← List.dropLast_concat_getLast ne]
    simp
  rw [split, List.drop_left' List.length_dropLast]
  rfl

/-- Whether a slash is to be added. -/
lemma lacksSlash_ok {b s : List Byte} (h : CStr b s) :
    lacksSlash b = .ok (!(s = [] ∨ s.getLast? = some slash : Bool)) := by
  unfold lacksSlash
  rw [strlen_ok h, ok_bind]
  by_cases e : s = []
  · rw [e]
    rfl
  · rw [if_pos (List.length_pos_iff.mpr e), deref_last h e, ok_bind]
    simp [e, List.getLast?_eq_some_getLast, bne]
    rfl

/-- A relative target that fits goes behind a slash. -/
lemma cdRelative_ok {current trgt s t : List Byte} (size : current.length = currentSize)
    (hs : CStr current s) (ht : CStr trgt t) (fits : s.length + 1 + t.length < currentSize) :
    ∃ current', cdRelative current trgt = .ok current' ∧ current'.length = currentSize ∧
      CStr current' ((if s = [] ∨ s.getLast? = some slash then s else s ++ [slash]) ++ t) := by
  unfold cdRelative
  rw [lacksSlash_ok hs, ok_bind]
  by_cases e : s = [] ∨ s.getLast? = some slash
  · obtain ⟨fin, e2, str2, len2⟩ := strcat_ok hs ht (by omega)
    refine ⟨fin, ?_, by omega, ?_⟩
    · simp [e, e2]
    · rw [if_pos e]
      exact str2
  · have one : CStr (literal "/") [slash] := literal_cstr (by decide)
    obtain ⟨mid, e1, str1, len1⟩ := strcat_ok hs one (by rw [size]; simp; omega)
    obtain ⟨fin, e2, str2, len2⟩ := strcat_ok str1 ht (by rw [len1, size]; simp; omega)
    refine ⟨fin, ?_, by omega, ?_⟩
    · simp [e, e1, e2]
    · rw [if_neg e]
      exact str2

/-- Whether a string starts with a byte, which is not the NUL behind it. -/
lemma headD_eq {c : Byte} (c0 : c ≠ 0#8) (t : List Byte) : t.headD 0#8 = c ↔ t.head? = some c := by
  cases t with
  | nil => simp [c0.symm]
  | cons d t => simp

/-- `cd ..` cuts the last component off. -/
lemma cdUp_ok {current s : List Byte} (size : current.length = currentSize) (hs : CStr current s) :
    ∃ current', cdUp current = .ok current' ∧ current'.length = currentSize ∧
      CStr current' ((beforeLast slash s).getD s) := by
  unfold cdUp
  rcases strrchr_ok hs (d := slash) (by decide) (by decide) with ⟨e, no⟩ | ⟨pre, post, rfl, no, e⟩
  · rw [e, beforeLast_none no]
    exact ⟨current, rfl, size, hs⟩
  · rw [e, beforeLast_some pre no]
    refine ⟨_, rfl, List.length_set.trans size, ?_⟩
    obtain ⟨ne, rest, rfl⟩ := hs
    refine ⟨fun m => ne (List.mem_append_left _ m), post ++ 0#8 :: rest, ?_⟩
    simp

/-- `cd` with an argument. -/
lemma cdCommand_target {current trgt s t : List Byte} {argc : Nat} (some_ : ¬ argc < 2)
    (size : current.length = currentSize) (hs : CStr current s) (ht : CStr trgt t) :
    ∃ acts current', cdCommand current argc trgt = .ok (acts, current') ∧ (∀ p, .wh p ∉ acts) ∧
      current'.length = currentSize ∧ CStr current' (changeDir s (some t)) := by
  have quiet : ∀ p, Action.wh p ∉ [] := fun p => List.not_mem_nil
  have here : t.length = 1 ∧ t.headD 0#8 = dot ↔ t = [dot] := by
    constructor
    · rintro ⟨len, head⟩
      obtain ⟨c, rfl⟩ := List.length_eq_one_iff.mp len
      rw [← head]
      rfl
    · rintro rfl
      exact ⟨rfl, rfl⟩
  obtain ⟨up, eup, isUp⟩ := strcmp_ok ht (literal_cstr (s := "..") (by decide))
  have isUp : up = 0 ↔ t = [dot, dot] := isUp
  unfold cdCommand changeDir
  rw [if_neg some_, strlen_ok ht, ok_bind, ht.deref, ok_bind]
  by_cases c1 : t = [dot]
  · rw [if_pos (here.mpr c1)]
    simp only [if_pos c1]
    exact ⟨[], current, rfl, quiet, size, hs⟩
  rw [if_neg fun h => c1 (here.mp h), eup, ok_bind]
  simp only [if_neg c1]
  by_cases c2 : t = [dot, dot]
  · rw [if_pos (isUp.mpr c2)]
    simp only [if_pos c2]
    obtain ⟨current', e, size', hs'⟩ := cdUp_ok size hs
    exact ⟨[], current', by rw [e]; rfl, quiet, size', hs'⟩
  rw [if_neg fun h => c2 (isUp.mp h)]
  simp only [if_neg c2, headD_eq (c := slash) (by decide)]
  by_cases c3 : t.head? = some slash
  · simp only [if_pos c3]
    by_cases fits : t.length < currentSize
    · obtain ⟨rest, rfl⟩ : ∃ rest, t = slash :: rest := by
        cases t with
        | nil => cases c3
        | cons c t => exact ⟨t, by rw [(Option.some.inj c3)]⟩
      have tail : CStr (trgt.drop 1) rest := by
        obtain ⟨ne, after, rfl⟩ := ht
        exact ⟨fun m => ne (.tail _ m), after, rfl⟩
      obtain ⟨current', e, str, len⟩ := strcpy_ok current tail
        (by rw [List.length_cons] at fits; omega)
      refine ⟨[], current', ?_, quiet, len.trans size, ?_⟩
      · rw [if_pos fits, e]
        rfl
      · rw [if_pos fits]
        exact str
    · simp only [if_neg fits]
      exact ⟨_, current, rfl, by simp, size, hs⟩
  · simp only [if_neg c3, strlen_ok hs, ok_bind]
    by_cases fits : s.length + 1 + t.length < currentSize
    · obtain ⟨current', e, size', hs'⟩ := cdRelative_ok size hs ht fits
      refine ⟨[], current', ?_, quiet, size', ?_⟩
      · rw [if_pos fits, e]
        rfl
      · rw [if_pos fits]
        exact hs'
    · simp only [if_neg fits]
      exact ⟨[], current, rfl, quiet, size, hs⟩

end TRS.Terminal
