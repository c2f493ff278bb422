import Mathlib.Data.List.Basic
import Mathlib.Tactic.Lemma
import Mathlib.Tactic.TypeStar

/-!
# Components of a path

A path is a list over any alphabet with a separator `d`; its components are its nonempty pieces.
Several paths have the same components (`[]` and `[d]`, `p` and `p ++ [d]`), so that a program that
works on paths as strings is compared with one that works on components through `components d`.

`components_append` is the rule for a separator in the middle of a path. From it come the rules for
the two ways to append (`components_concat`), and for the piece behind the last separator
(`components_snoc`).
-/

namespace TRS.Lib

variable {α : Type*} [DecidableEq α] {d : α}

/-- The nonempty pieces of a path between its separators. -/
def components (d : α) (s : List α) : List (List α) := (s.splitOn d).filter (· ≠ [])

@[simp] lemma components_nil : components d [] = [] := rfl

/-- A separator belongs to no component. -/
lemma components_append (s t : List α) :
    components d (s ++ d :: t) = components d s ++ components d t := by
  unfold components
  rw [List.splitOn_append_cons_self, List.filter_append]

/-- A separator at the front does not count. -/
@[simp] lemma components_cons_self (t : List α) : components d (d :: t) = components d t :=
  components_append [] t

/-- A name is its only component. -/
lemma components_name {s : List α} (no : d ∉ s) (ne : s ≠ []) : components d s = [s] := by
  unfold components
  rw [List.splitOn_eq_singleton no]
  simp [ne]

/-- A path to whose end, or to whose empty text, something is appended. -/
lemma components_concat {s : List α} (closed : s = [] ∨ s.getLast? = some d) (t : List α) :
    components d (s ++ t) = components d s ++ components d t := by
  rcases closed with rfl | last
  · rfl
  · obtain ⟨pre, rfl⟩ := List.getLast?_eq_some_iff.mp last
    rw [List.append_assoc, List.singleton_append, components_append, components_append]
    simp

/-- What is behind the last separator is the last component, if it is anything. -/
lemma components_snoc (pre : List α) {post : List α} (no : d ∉ post) :
    components d (pre ++ d :: post) = components d pre ++ if post = [] then [] else [post] := by
  rw [components_append]
  split
  · next e => rw [e, components_nil]
  · next ne => rw [components_name no ne]

/-- A path that starts with no separator has a component. -/
lemma components_ne_nil {c : α} (ne : c ≠ d) (s : List α) : components d (c :: s) ≠ [] := by
  intro nil
  by_cases sep : d ∈ s
  · -- up to the first separator the path is a component of its own
    obtain ⟨pre, post, rfl, no⟩ := List.eq_append_cons_of_mem sep
    have first : d ∉ c :: pre := fun m => (List.mem_cons.mp m).elim (fun e => ne e.symm) no
    rw [← List.cons_append, components_append,
      components_name first (List.cons_ne_nil c pre)] at nil
    cases nil
  · have alone : d ∉ c :: s := fun m => (List.mem_cons.mp m).elim (fun e => ne e.symm) sep
    rw [components_name alone (List.cons_ne_nil c s)] at nil
    cases nil

end TRS.Lib
