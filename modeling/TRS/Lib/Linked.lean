import Mathlib.Data.List.Basic
import Mathlib.Data.List.Nodup
import Mathlib.Logic.Function.Basic

/-!
# Lists that are linked through a table

A table gives for each cell what it holds: nothing (`free`), the number of the next cell of its
list, or the end of the list. `Chain t l` says that the cells `l` make a list of the table `t`; such
a list has no cell twice (`Chain.nodup`) and is determined by its first cell (`Chain.unique`).
`Apart t files` says that every file has a list of its own, and that no two share a cell; the rules
`Apart.create`, `Apart.stretch` and `Apart.remove` say how a change of the table changes the files,
and `Apart.stray` that a free cell may be taken and be lost.
-/

namespace TRS.Lib

/-- What a table holds for a cell. -/
inductive Cell (α : Type*) where
  | free
  | bad
  | last
  | next (a : α)
  deriving DecidableEq, Repr

variable {α ι : Type*}

/-- The cells of a list, from the first one to the last one. -/
inductive Chain (t : α → Cell α) : List α → Prop where
  | last {a : α} :
    t a = .last →
    Chain t [a]
  | next {a b : α} {l : List α} :
    t a = .next b →
    Chain t (b :: l) →
    Chain t (a :: b :: l)

namespace Chain
variable {t t' : α → Cell α} {l l' : List α} {a : α}

/-- A chain has a cell. -/
lemma ne_nil (h : Chain t l) : l ≠ [] := by
  cases h with
  | last => exact List.cons_ne_nil _ _
  | next => exact List.cons_ne_nil _ _

/-- The list only reads the table at its own cells. -/
lemma congr (h : Chain t l) (same : ∀ a ∈ l, t' a = t a) : Chain t' l := by
  induction h with
  | last e => exact .last ((same _ (.head _)).trans e)
  | next e _ ih => exact .next ((same _ (.head _)).trans e) (ih fun a mem => same a (.tail _ mem))

/-- There is one chain from a cell. -/
lemma unique (h : Chain t l) (h' : Chain t l') (e : l.head? = l'.head?) : l = l' := by
  induction h generalizing l' with
  | last last =>
    cases h' with
    | last => exact congrArg (fun o => o.toList) e
    | next next =>
      cases e
      rw [last] at next
      cases next
  | next next _ ih =>
    cases h' with
    | last last =>
      cases e
      rw [next] at last
      cases last
    | next next' rest =>
      cases e
      rw [next] at next'
      cases next'
      rw [ih rest rfl]

/-- From each of its cells on, a list is a list. -/
lemma from_mem (h : Chain t l) (mem : a ∈ l) : ∃ l₁ l₂, l = l₁ ++ a :: l₂ ∧ Chain t (a :: l₂) := by
  induction h with
  | last e =>
    obtain rfl := List.mem_singleton.mp mem
    exact ⟨[], [], rfl, .last e⟩
  | @next b c l e rest ih =>
    rcases List.mem_cons.mp mem with rfl | mem
    · exact ⟨[], _, rfl, .next e rest⟩
    · obtain ⟨l₁, l₂, eq, chain⟩ := ih mem
      exact ⟨b :: l₁, l₂, congrArg (b :: ·) eq, chain⟩

/-- The rest of a list is a list. -/
lemma drop_left {l₁ l₂ : List α} (h : Chain t (l₁ ++ a :: l₂)) : Chain t (a :: l₂) := by
  induction l₁ with
  | nil => exact h
  | cons b l₁ ih =>
    refine ih ?_
    rw [List.cons_append] at h
    cases e : l₁ ++ a :: l₂ with
    | nil => simp at e
    | cons c l =>
      rw [e] at h
      cases h with
      | next _ rest => exact rest

/-- A list has no cell twice: it would never end. -/
lemma nodup (h : Chain t l) : l.Nodup := by
  induction h with
  | last => exact List.nodup_singleton _
  | @next a b l e rest ih =>
    refine List.nodup_cons.mpr ⟨fun mem => ?_, ih⟩
    obtain ⟨l₁, l₂, eq, again⟩ := rest.from_mem mem
    have same := unique (.next e rest) again rfl
    have := congrArg List.length same
    rw [eq] at this
    simp only [List.length_cons, List.length_append] at this
    omega

/-- No cell of a chain is free. -/
lemma not_free (h : Chain t l) (mem : a ∈ l) : t a ≠ .free := by
  obtain ⟨_, _, _, chain⟩ := h.from_mem mem
  cases chain with
  | last e => simp [e]
  | next e _ => simp [e]

/-- The last cell ends the list. -/
lemma last_eq {p : α} (h : Chain t (l ++ [p])) : t p = .last := by
  obtain ⟨l₁, l₂, eq, chain⟩ := h.from_mem (a := p) (by simp)
  have nodup := h.nodup
  cases chain with
  | last e => exact e
  | @next _ b l₃ _ rest =>
    -- `p` would be in the list twice
    have p_mem : p ∈ b :: l₃ := by
      have last := congrArg List.getLast? eq
      simp only [List.getLast?_append, List.getLast?_singleton, List.getLast?_cons_cons,
        Option.some_or] at last
      obtain ⟨q, last'⟩ : ∃ q, (b :: l₃).getLast? = some q := ⟨_, List.getLast?_cons⟩
      rw [last', Option.some_or] at last
      cases last
      exact List.mem_of_getLast? last'
    rw [eq] at nodup
    exact absurd p_mem (List.nodup_cons.mp (List.nodup_append.mp nodup).2.1).1

variable [DecidableEq α]

/-- A cell that is not in the list is put behind its last one. -/
lemma stretch {p c : α} (h : Chain t (l ++ [p])) (fresh : c ∉ l ++ [p]) :
    Chain (Function.update (Function.update t c .last) p (.next c)) (l ++ [p] ++ [c]) := by
  have ne : c ≠ p := fun e => fresh (by simp [e])
  have tail : Chain (Function.update (Function.update t c .last) p (.next c)) [p, c] := by
    refine .next (Function.update_self ..) (.last ?_)
    rw [Function.update_of_ne ne, Function.update_self]
  induction l with
  | nil => exact tail
  | cons a l ih =>
    have nodup := h.nodup
    have a_ne : a ≠ p := by
      rintro rfl
      exact (List.nodup_cons.mp nodup).1 (by simp)
    have a_ne' : a ≠ c := fun e => fresh (e ▸ .head _)
    have keep : Function.update (Function.update t c .last) p (.next c) a = t a := by
      rw [Function.update_of_ne a_ne, Function.update_of_ne a_ne']
    obtain ⟨b, rest, eq⟩ : ∃ b rest, l ++ [p] = b :: rest :=
      List.exists_cons_of_ne_nil (by simp)
    rw [List.cons_append, eq] at h
    cases h with
    | next e chain =>
      rw [← eq] at chain
      have ih := ih chain fun mem => fresh (.tail _ mem)
      rw [List.cons_append, List.cons_append]
      rw [eq, List.cons_append] at ih ⊢
      exact .next (keep.trans e) ih

end Chain

/-- Every file has its own list. -/
structure Apart (t : α → Cell α) (files : ι → Option (List α)) : Prop where
  chain : ∀ i l, files i = some l → Chain t l
  disjoint : ∀ i j l l', i ≠ j → files i = some l → files j = some l' → ∀ a ∈ l, a ∉ l'

namespace Apart
variable {t t' : α → Cell α} {files : ι → Option (List α)} {i : ι} {l : List α} {c p : α}

/-- A free cell belongs to no file. -/
lemma fresh (h : Apart t files) (free : t c = .free) (e : files i = some l) : c ∉ l :=
  fun mem => (h.chain i l e).not_free mem free

/-- Chains are apart in any table with the same links on them. -/
lemma congr (h : Apart t files) (same : ∀ i l, files i = some l → ∀ a ∈ l, t' a = t a) :
    Apart t' files :=
  ⟨fun i l e => (h.chain i l e).congr (same i l e), h.disjoint⟩

section Update
variable [DecidableEq α]

/-- Whatever a free cell is set to, no file changes. -/
lemma stray (h : Apart t files) (free : t c = .free) (x : Cell α) :
    Apart (Function.update t c x) files := by
  refine h.congr fun i l e a mem => Function.update_of_ne ?_ ..
  rintro rfl
  exact h.fresh free e mem

variable [DecidableEq ι]

/-- A free cell becomes a file. -/
lemma create (h : Apart t files) (free : t c = .free) :
    Apart (Function.update t c .last) (Function.update files i (some [c])) where
  chain j l e := by
    by_cases same : j = i
    · rw [same, Function.update_self] at e
      cases e
      exact .last (Function.update_self ..)
    · rw [Function.update_of_ne same] at e
      exact (h.stray free _).chain j l e
  disjoint j k l l' ne e e' a mem mem' := by
    by_cases same : j = i
    · subst same
      rw [Function.update_self] at e
      rw [Function.update_of_ne ne.symm] at e'
      cases e
      rw [List.mem_singleton.mp mem] at mem'
      exact h.fresh free e' mem'
    · rw [Function.update_of_ne same] at e
      by_cases same' : k = i
      · rw [same', Function.update_self] at e'
        cases e'
        rw [List.mem_singleton.mp mem'] at mem
        exact h.fresh free e mem
      · rw [Function.update_of_ne same'] at e'
        exact h.disjoint j k l l' ne e e' a mem mem'

/-- A free cell is put behind the last one of a file. -/
lemma stretch (h : Apart t files) (free : t c = .free) (e : files i = some (l ++ [p])) :
    Apart (Function.update (Function.update t c .last) p (.next c))
      (Function.update files i (some (l ++ [p] ++ [c]))) where
  chain j l' e' := by
    by_cases same : j = i
    · rw [same, Function.update_self] at e'
      cases e'
      exact (h.chain i _ e).stretch (h.fresh free e)
    · rw [Function.update_of_ne same] at e'
      refine ((h.stray free _).chain j l' e').congr fun a mem => Function.update_of_ne ?_ ..
      rintro rfl
      exact h.disjoint j i l' _ same e' e a mem (by simp)
  disjoint j k l₁ l₂ ne e₁ e₂ a mem₁ mem₂ := by
    by_cases same : j = i
    · subst same
      rw [Function.update_self] at e₁
      rw [Function.update_of_ne ne.symm] at e₂
      cases e₁
      rcases List.mem_append.mp mem₁ with mem₁ | mem₁
      · exact h.disjoint j k _ _ ne e e₂ a mem₁ mem₂
      · rw [List.mem_singleton.mp mem₁] at mem₂
        exact h.fresh free e₂ mem₂
    · rw [Function.update_of_ne same] at e₁
      by_cases same' : k = i
      · subst same'
        rw [Function.update_self] at e₂
        cases e₂
        rcases List.mem_append.mp mem₂ with mem₂ | mem₂
        · exact h.disjoint j k _ _ ne e₁ e a mem₁ mem₂
        · rw [List.mem_singleton.mp mem₂] at mem₁
          exact h.fresh free e₁ mem₁
      · rw [Function.update_of_ne same'] at e₂
        exact h.disjoint j k l₁ l₂ ne e₁ e₂ a mem₁ mem₂

end Update

/-- A file whose cells are changed in any way is lost, and no other one. -/
lemma remove [DecidableEq ι] (h : Apart t files) (e : files i = some l)
    (same : ∀ a, a ∉ l → t' a = t a) :
    Apart t' (Function.update files i none) where
  chain j l' e' := by
    have ne : j ≠ i := by
      rintro rfl
      rw [Function.update_self] at e'
      cases e'
    rw [Function.update_of_ne ne] at e'
    exact (h.chain j l' e').congr fun a mem => same a (h.disjoint j i l' l ne e' e a mem)
  disjoint j k l₁ l₂ ne e₁ e₂ := by
    have other : ∀ m l', Function.update files i none m = some l' → files m = some l' := by
      intro m l' e'
      rwa [Function.update_of_ne] at e'
      rintro rfl
      rw [Function.update_self] at e'
      cases e'
    exact h.disjoint j k l₁ l₂ ne (other j l₁ e₁) (other k l₂ e₂)

end Apart

end TRS.Lib
