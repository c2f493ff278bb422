import Mathlib.Tactic.Lemma
import Mathlib.Tactic.TypeStar

/-!
# Loops that end when they like

`loop round fuel s` makes at most `fuel` rounds of a loop from the state `s` at its head, and gives
what the loop returns, if it has returned by then. `headAt round n s` is the state at the head after
`n` rounds. What every round keeps holds at every head (`headAt_invariant`) and decides about the
result (`loop_post`); a loop of which every round goes on never returns (`loop_none`).
-/

namespace TRS.Lib

variable {σ ρ : Type*}

/-- What a round of a loop does: it goes on, or the loop returns. -/
inductive Round (σ ρ : Type*) where
  | again (s : σ)
  | done (r : ρ)

variable (round : σ → Round σ ρ)

/-- At most `fuel` rounds. -/
def loop : (fuel : Nat) → σ → Option ρ
  | 0, _ => none
  | n + 1, s =>
    match round s with
    | .again s => loop n s
    | .done r => some r

/-- The state at the head of the loop after `n` rounds. -/
def headAt : (n : Nat) → σ → Option σ
  | 0, s => some s
  | n + 1, s =>
    match round s with
    | .again s => headAt n s
    | .done _ => none

variable {round} {I : σ → Prop}

/-- What every round keeps holds at the head of every round. -/
theorem headAt_invariant (again : ∀ s s', I s → round s = .again s' → I s') {n : Nat} {s t : σ}
    (inv : I s) (e : headAt round n s = some t) : I t := by
  induction n generalizing s with
  | zero =>
    cases e
    exact inv
  | succ n ih =>
    rw [headAt] at e
    cases r : round s with
    | again s' =>
      rw [r] at e
      exact ih (again s s' inv r) e
    | done _ =>
      rw [r] at e
      cases e

/-- A loop returns from the head of one of its rounds. -/
lemma loop_eq_some {n : Nat} {s : σ} {r : ρ} (e : loop round n s = some r) :
    ∃ k t, headAt round k s = some t ∧ round t = .done r := by
  induction n generalizing s with
  | zero => cases e
  | succ n ih =>
    rw [loop] at e
    cases here : round s with
    | again s' =>
      rw [here] at e
      obtain ⟨k, t, at_, last⟩ := ih e
      exact ⟨k + 1, t, by rw [headAt, here]; exact at_, last⟩
    | done r' =>
      rw [here] at e
      cases e
      exact ⟨0, s, rfl, here⟩

/-- Run rule: what a round promises when it ends the loop, the loop promises. -/
theorem loop_post {P : ρ → Prop} (again : ∀ s s', I s → round s = .again s' → I s')
    (done : ∀ s r, I s → round s = .done r → P r) {n : Nat} {s : σ} {r : ρ} (inv : I s)
    (e : loop round n s = some r) : P r := by
  obtain ⟨_, t, at_, last⟩ := loop_eq_some e
  exact done t r (headAt_invariant again inv at_) last

/-- Run rule: a loop of which every round goes on never returns. -/
theorem loop_none (again : ∀ s, I s → ∃ s', round s = .again s' ∧ I s') {s : σ} (inv : I s)
    (n : Nat) : loop round n s = none := by
  cases e : loop round n s with
  | none => rfl
  | some r =>
    have step : ∀ s s', I s → round s = .again s' → I s' := by
      intro s s' inv e
      obtain ⟨s2, e', inv'⟩ := again s inv
      rw [e] at e'
      cases e'
      exact inv'
    refine (loop_post (P := fun _ => False) step (fun s r inv e => ?_) inv e).elim
    obtain ⟨s', e', _⟩ := again s inv
    rw [e] at e'
    cases e'

end TRS.Lib
