import Mathlib.Tactic.Lemma
import Mathlib.Tactic.TypeStar

/-!
# Counted loops

`forRange lo hi body` is the C loop `for(i = lo; i < hi; ++i) body`, `forRangeM` the same loop with
a body that may stop the program. Each has the usual invariant rule: `P lo` before, `P i` to
`P (i+1)` over one round, `P hi` after.

* `forRange_induct`, `forRangeM_induct`: these rules, by induction on the rounds.
* `forRangeM_eq`: a loop whose rounds lead from each state to the next leads to the last one.
* `forRange_succ`, `forRange_of_le`: the last round, and no round.
-/

namespace TRS.Lib

universe u v

variable {σ : Type v} {ε : Type u}

/-- `n` rounds of a loop body, the counter going up from `i`. -/
def rounds (body : Nat → σ → σ) : (n i : Nat) → σ → σ
  | 0, _, s => s
  | n + 1, i, s => rounds body n (i + 1) (body i s)

/-- `for(i = lo; i < hi; ++i) body`. -/
def forRange (lo hi : Nat) (body : Nat → σ → σ) (s : σ) : σ :=
  rounds body (hi - lo) lo s

/-- `n` rounds of a loop body that may stop. -/
def roundsM (body : Nat → σ → Except ε σ) : (n i : Nat) → σ → Except ε σ
  | 0, _, s => .ok s
  | n + 1, i, s => do
    let s' ← body i s
    roundsM body n (i + 1) s'

/-- `for(i = lo; i < hi; ++i) body` with a body that may stop. -/
def forRangeM (lo hi : Nat) (body : Nat → σ → Except ε σ) (s : σ) : Except ε σ :=
  roundsM body (hi - lo) lo s

/-- A computation that did not stop hands its value on. -/
@[simp] lemma ok_bind {α β : Type v} (a : α) (f : α → Except ε β) :
    (Except.ok a >>= f) = f a := rfl

/-- A computation that goes through. -/
lemma bind_eq_ok {α β : Type v} {x : Except ε α} {f : α → Except ε β} {b : β} :
    (x >>= f) = .ok b ↔ ∃ a, x = .ok a ∧ f a = .ok b := by
  cases x with
  | error e =>
    constructor
    · intro h
      cases h
    · rintro ⟨a, h, _⟩
      cases h
  | ok a =>
    constructor
    · exact fun h => ⟨a, rfl, h⟩
    · rintro ⟨a', h, e⟩
      cases h
      exact e

/-- A result with another error is the same result. -/
lemma mapError_eq_ok {α : Type v} {ε' : Type u} {x : Except ε α} {f : ε → ε'} {a : α} :
    x.mapError f = .ok a ↔ x = .ok a := by
  cases x with
  | error e =>
    constructor
    · intro h
      cases h
    · intro h
      cases h
  | ok a' =>
    constructor
    · intro h
      cases h
      rfl
    · intro h
      cases h
      rfl

/-- What every round keeps, and moves on by one, all of them keep. -/
lemma rounds_induct {body : Nat → σ → σ} (P : Nat → σ → Prop) {n i : Nat} {s : σ} (start : P i s)
    (round : ∀ j s, i ≤ j → j < i + n → P j s → P (j + 1) (body j s)) :
    P (i + n) (rounds body n i s) := by
  induction n generalizing i s with
  | zero => exact start
  | succ n ih =>
    have h := ih (i := i + 1) (s := body i s) (round i s (by omega) (by omega) start)
      (fun j t h1 h2 => round j t (by omega) (by omega))
    rw [show i + (n + 1) = i + 1 + n by omega]
    exact h

/-- Invariant rule for `forRange`. -/
theorem forRange_induct {body : Nat → σ → σ} (P : Nat → σ → Prop) {lo hi : Nat} {s : σ}
    (le : lo ≤ hi) (start : P lo s)
    (round : ∀ i s, lo ≤ i → i < hi → P i s → P (i + 1) (body i s)) :
    P hi (forRange lo hi body s) := by
  have h := rounds_induct (n := hi - lo) P start
    (fun j t h1 h2 => round j t h1 (by omega))
  rwa [show lo + (hi - lo) = hi by omega] at h

/-- So it is with rounds that may fail, if none of them does. -/
lemma roundsM_induct {body : Nat → σ → Except ε σ} (P : Nat → σ → Prop) {n i : Nat} {s : σ}
    (start : P i s)
    (round : ∀ j s, i ≤ j → j < i + n → P j s → ∃ s', body j s = .ok s' ∧ P (j + 1) s') :
    ∃ s', roundsM body n i s = .ok s' ∧ P (i + n) s' := by
  induction n generalizing i s with
  | zero => exact ⟨s, rfl, start⟩
  | succ n ih =>
    obtain ⟨s1, e1, p1⟩ := round i s (by omega) (by omega) start
    obtain ⟨s2, e2, p2⟩ := ih p1 (fun j t h1 h2 => round j t (by omega) (by omega))
    refine ⟨s2, ?_, ?_⟩
    · simp only [roundsM, e1, ok_bind, e2]
    · rwa [show i + (n + 1) = i + 1 + n by omega]

/-- Invariant rule for `forRangeM`: no round stops, and the invariant holds at the end. -/
theorem forRangeM_induct {body : Nat → σ → Except ε σ} (P : Nat → σ → Prop) {lo hi : Nat} {s : σ}
    (le : lo ≤ hi) (start : P lo s)
    (round : ∀ i s, lo ≤ i → i < hi → P i s → ∃ s', body i s = .ok s' ∧ P (i + 1) s') :
    ∃ s', forRangeM lo hi body s = .ok s' ∧ P hi s' := by
  obtain ⟨s', e, p⟩ := roundsM_induct (n := hi - lo) P start
    (fun j t h1 h2 => round j t h1 (by omega))
  rw [show lo + (hi - lo) = hi by omega] at p
  exact ⟨s', e, p⟩

/-- A loop whose rounds lead from each `t i` to `t (i + 1)` leads from the first to the last. -/
theorem forRangeM_eq {body : Nat → σ → Except ε σ} (t : Nat → σ) {lo hi : Nat} (le : lo ≤ hi)
    (round : ∀ i, lo ≤ i → i < hi → body i (t i) = .ok (t (i + 1))) :
    forRangeM lo hi body (t lo) = .ok (t hi) := by
  have step : ∀ i s, lo ≤ i → i < hi → s = t i → ∃ s', body i s = .ok s' ∧ s' = t (i + 1) := by
    intro i s h1 h2 eq
    exact ⟨t (i + 1), by rw [eq, round i h1 h2], rfl⟩
  obtain ⟨s', e, p⟩ := forRangeM_induct (fun i s => s = t i) le rfl step
  rw [e, p]

/-- The last of the rounds. -/
lemma rounds_succ (body : Nat → σ → σ) (n i : Nat) (s : σ) :
    rounds body (n + 1) i s = body (i + n) (rounds body n i s) := by
  induction n generalizing i s with
  | zero => rfl
  | succ n ih =>
    rw [rounds, ih, show i + 1 + n = i + (n + 1) by omega]
    rfl

/-- One more round at the upper end. -/
lemma forRange_succ {body : Nat → σ → σ} {lo hi : Nat} (le : lo ≤ hi) (s : σ) :
    forRange lo (hi + 1) body s = body hi (forRange lo hi body s) := by
  rw [forRange, show hi + 1 - lo = hi - lo + 1 by omega, rounds_succ,
    show lo + (hi - lo) = hi by omega]
  rfl

/-- An empty range leaves the state as it is. -/
lemma forRange_of_le {body : Nat → σ → σ} {lo hi : Nat} (le : hi ≤ lo) (s : σ) :
    forRange lo hi body s = s := by
  rw [forRange, show hi - lo = 0 by omega]
  rfl

/-- An empty range leaves the state as it is. -/
lemma forRangeM_of_le {body : Nat → σ → Except ε σ} {lo hi : Nat} (le : hi ≤ lo) (s : σ) :
    forRangeM lo hi body s = .ok s := by
  rw [forRangeM, show hi - lo = 0 by omega]
  rfl

end TRS.Lib
