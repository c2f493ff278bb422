import TRS.Lib.While

/-!
# Programs that return error codes

`Program σ α` is a C function that works on the state `σ` and either returns an `α` or gives up with
an error code; what it has done to the state stays. `int err = f(); if (err) return err;` is the
bind of the monad, `attempt` is a call whose code the caller looks at, `within` a call that works on
a part of the state, and `iterate` is a loop that may also return from the middle. A loop that has
used up its rounds stops with `Stop.rounds`, which no caller can catch.

`wp x Q E s` says that `x`, started in `s`, returns with `Q` or stops with `E`. There is one rule
for each construct; `wp_iterate` is the rule of the loop, with an invariant that may count the
rounds that are left.
-/

namespace TRS.Lib

/-- Why a program has not returned a value. -/
inductive Stop where
  | code (err : Int)
  | rounds
  deriving DecidableEq, Repr

/-- A function on a state that may fail. -/
abbrev Program (σ α : Type) := EStateM Stop σ α

namespace Program
variable {σ α β ρ : Type}

/-- A call with its error code. -/
def attempt (x : Program σ α) : Program σ (Except Int α) := fun s =>
  match x s with
  | .ok a t => .ok (.ok a) t
  | .error (.code err) t => .ok (.error err) t
  | .error .rounds t => .error .rounds t

/-- A loop with at most `fuel` rounds. -/
def iterate (round : β → Program σ (Round β ρ)) : (fuel : Nat) → β → Program σ ρ
  | 0, _ => throw .rounds
  | n + 1, b => do
    match ← round b with
    | .again b => iterate round n b
    | .done r => pure r

/-- A program on a part of the state. -/
def within {τ : Type} (part : τ → σ) (put : τ → σ → τ) (x : Program σ α) : Program τ α := fun s =>
  match x (part s) with
  | .ok a t => .ok a (put s t)
  | .error e t => .error e (put s t)

/-- The program returns with `Q` or stops with `E`. -/
def wp (x : Program σ α) (Q : α → σ → Prop) (E : Stop → σ → Prop) (s : σ) : Prop :=
  match x s with
  | .ok a t => Q a t
  | .error e t => E e t

variable {Q : α → σ → Prop} {E : Stop → σ → Prop} {s : σ}

@[simp] lemma wp_pure (a : α) : wp (pure a) Q E s ↔ Q a s := Iff.rfl

@[simp] lemma wp_throw (e : Stop) : wp (throw e : Program σ α) Q E s ↔ E e s := Iff.rfl

@[simp] lemma wp_get {Q : σ → σ → Prop} : wp (get : Program σ σ) Q E s ↔ Q s s := Iff.rfl

@[simp] lemma wp_modify {Q : PUnit → σ → Prop} (f : σ → σ) :
    wp (modify f : Program σ PUnit) Q E s ↔ Q ⟨⟩ (f s) := Iff.rfl

@[simp] lemma wp_bind {Q : β → σ → Prop} (x : Program σ α) (f : α → Program σ β) :
    wp (x >>= f) Q E s ↔ wp x (fun a t => wp (f a) Q E t) E s := by
  change (match EStateM.bind x f s with
    | .ok a t => Q a t
    | .error e t => E e t) ↔ _
  unfold wp EStateM.bind
  cases x s <;> rfl

@[simp] lemma wp_map {Q : β → σ → Prop} (x : Program σ α) (f : α → β) :
    wp (f <$> x) Q E s ↔ wp x (fun a t => Q (f a) t) E s := by
  rw [map_eq_pure_bind, wp_bind]
  rfl

/-- A program whose codes are caught. -/
@[simp] lemma wp_attempt {Q : Except Int α → σ → Prop} (x : Program σ α) :
    wp (attempt x) Q E s ↔ wp x (fun a t => Q (.ok a) t)
      (fun e t => match e with | .code err => Q (.error err) t | .rounds => E .rounds t) s := by
  unfold wp attempt
  cases x s with
  | ok a t => rfl
  | error e t => cases e <;> rfl

/-- A program on a part of the state. -/
@[simp] lemma wp_within {τ : Type} {part : τ → σ} {put : τ → σ → τ} {Q : α → τ → Prop}
    {E : Stop → τ → Prop} {s : τ} (x : Program σ α) :
    wp (within part put x) Q E s ↔
      wp x (fun a t => Q a (put s t)) (fun e t => E e (put s t)) (part s) := by
  unfold wp within
  cases x (part s) <;> rfl

/-- Consequence. -/
lemma wp_imp {x : Program σ α} {Q' : α → σ → Prop} {E' : Stop → σ → Prop} (h : wp x Q' E' s)
    (ok : ∀ a t, Q' a t → Q a t) (stop : ∀ e t, E' e t → E e t) : wp x Q E s := by
  unfold wp at *
  cases here : x s with
  | ok a t =>
    rw [here] at h
    exact ok a t h
  | error e t =>
    rw [here] at h
    exact stop e t h

/-- Two facts about a program hold together. -/
lemma wp_and {x : Program σ α} {Q' : α → σ → Prop} {E' : Stop → σ → Prop} (h : wp x Q E s)
    (h' : wp x Q' E' s) : wp x (fun a t => Q a t ∧ Q' a t) (fun e t => E e t ∧ E' e t) s := by
  unfold wp at *
  cases here : x s with
  | ok a t =>
    rw [here] at h h'
    exact ⟨h, h'⟩
  | error e t =>
    rw [here] at h h'
    exact ⟨h, h'⟩

/-- Sequence: what the first part ends with, the second one starts from. -/
lemma wp_seq {x : Program σ α} {f : α → Program σ β} {Q' : α → σ → Prop} {E' : Stop → σ → Prop}
    {Q : β → σ → Prop} (first : wp x Q' E' s) (next : ∀ a t, Q' a t → wp (f a) Q E t)
    (stop : ∀ e t, E' e t → E e t) : wp (x >>= f) Q E s :=
  (wp_bind x f).mpr (wp_imp first next stop)

/-- Loop rule: `Inv n` is the invariant where `n` rounds are left. -/
theorem wp_iterate {round : β → Program σ (Round β ρ)} {Q : ρ → σ → Prop}
    (Inv : Nat → β → σ → Prop) (spent : ∀ b s, Inv 0 b s → E .rounds s)
    (step : ∀ n b s, Inv (n + 1) b s → wp (round b) (fun r t =>
      match r with
      | .again b => Inv n b t
      | .done r => Q r t) E s)
    {n : Nat} {b : β} {s : σ} (inv : Inv n b s) : wp (iterate round n b) Q E s := by
  induction n generalizing b s with
  | zero => exact spent b s inv
  | succ n ih =>
    refine wp_seq (step n b s inv) (fun r t h => ?_) (fun e t h => h)
    cases r with
    | again b => exact ih h
    | done r => exact h

/-- From no state does the program stop. -/
def Total (x : Program σ α) : Prop := ∀ s, wp x (fun _ _ => True) (fun _ _ => False) s

namespace Total

lemma pure (a : α) : Total (Pure.pure a : Program σ α) := fun _ => trivial

lemma get : Total (MonadState.get : Program σ σ) := fun _ => trivial

lemma change (f : σ → σ) : Total (modify f : Program σ PUnit) := fun _ => trivial

/-- Programs that succeed do so in a row. -/
lemma bind {x : Program σ α} {f : α → Program σ β} (first : Total x) (next : ∀ a, Total (f a)) :
    Total (x >>= f) := fun s => wp_seq (first s) (fun a t _ => next a t) fun _ _ h => h

/-- A program that does not stop keeps its promise about returning. -/
lemma returns {x : Program σ α} (total : Total x) (h : wp x Q E s) : wp x Q (fun _ _ => False) s :=
  wp_imp (wp_and (total s) h) (fun _ _ h => h.2) fun _ _ h => h.1

end Total

/-- However the program ends, the invariant stays. -/
def Preserves (I : σ → Prop) (x : Program σ α) : Prop := ∀ s, I s → wp x (fun _ => I) (fun _ => I) s

namespace Preserves
variable {I : σ → Prop}

lemma pure (a : α) : Preserves I (Pure.pure a : Program σ α) := fun _ inv => inv

lemma throw (e : Stop) : Preserves I (throw e : Program σ α) := fun _ inv => inv

lemma change {f : σ → σ} (h : ∀ s, I s → I (f s)) : Preserves I (modify f : Program σ PUnit) := h

/-- Programs in a row keep what each of them keeps. -/
lemma bind {x : Program σ α} {f : α → Program σ β} (first : Preserves I x)
    (next : ∀ a, Preserves I (f a)) : Preserves I (x >>= f) := fun s inv =>
  wp_seq (first s inv) (fun a t => next a t) fun _ _ h => h

/-- A function of the state that is read first. -/
lemma get_bind {f : σ → Program σ β}
    (next : ∀ s, I s → wp (f s) (fun _ => I) (fun _ => I) s) :
    Preserves I (MonadState.get >>= f) := fun s inv => (wp_bind ..).mpr (next s inv)

/-- That its codes are caught does not matter. -/
lemma attempt {x : Program σ α} (h : Preserves I x) :
    Preserves I (Program.attempt x) := fun s inv =>
  (wp_attempt x).mpr (wp_imp (h s inv) (fun _ _ h => h) fun e t h => by cases e <;> exact h)

/-- A loop keeps what its rounds keep. -/
lemma iterate {round : β → Program σ (Round β ρ)} (h : ∀ b, Preserves I (round b)) (n : Nat)
    (b : β) : Preserves I (Program.iterate round n b) := fun _ inv =>
  wp_iterate (fun _ _ s => I s) (fun _ _ inv => inv)
    (fun _ b s inv => wp_imp (h b s inv) (fun r _ h => by cases r <;> exact h) fun _ _ h => h) inv

end Preserves

/-- Where the program stops, it is for a reason in `R`. -/
def Raises (R : Stop → Prop) (x : Program σ α) : Prop :=
  ∀ s, wp x (fun _ _ => True) (fun e _ => R e) s

namespace Raises
variable {R : Stop → Prop}

lemma pure (a : α) : Raises R (Pure.pure a : Program σ α) := fun _ => trivial

lemma throw {e : Stop} (h : R e) : Raises R (throw e : Program σ α) := fun _ => h

lemma change (f : σ → σ) : Raises R (modify f : Program σ PUnit) := fun _ => trivial

/-- Programs in a row stop for the reasons of each of them. -/
lemma bind {x : Program σ α} {f : α → Program σ β} (first : Raises R x)
    (next : ∀ a, Raises R (f a)) : Raises R (x >>= f) := fun s =>
  wp_seq (first s) (fun a t _ => next a t) fun _ _ h => h

/-- So does a function of the state that is read first. -/
lemma get_bind {f : σ → Program σ β} (next : ∀ s, Raises R (f s)) :
    Raises R (MonadState.get >>= f) := fun s => (wp_bind ..).mpr (next s s)

/-- A program whose codes are caught stops for want of rounds only. -/
lemma attempt {x : Program σ α} (rounds : R .rounds) : Raises R (Program.attempt x) := fun s => by
  rw [wp_attempt]
  unfold wp
  cases x s with
  | ok a t => trivial
  | error e t =>
    cases e with
    | code err => trivial
    | rounds => exact rounds

/-- A program on a part of the state stops for its own reasons. -/
lemma within {τ : Type} {part : τ → σ} {put : τ → σ → τ} {x : Program σ α} (h : Raises R x) :
    Raises R (Program.within part put x) := fun s =>
  (wp_within x).mpr (wp_imp (h (part s)) (fun _ _ h => h) fun _ _ h => h)

/-- A loop stops for those of its rounds, or for want of rounds. -/
lemma iterate {round : β → Program σ (Round β ρ)} (h : ∀ b, Raises R (round b)) (rounds : R .rounds)
    (n : Nat) (b : β) : Raises R (Program.iterate round n b) := fun _ =>
  wp_iterate (fun _ _ _ => True) (fun _ _ _ => rounds)
    (fun _ b s _ => wp_imp (h b s) (fun r _ h => by cases r <;> exact h) fun _ _ h => h) trivial

/-- What is promised of the way a program ends, together with its reasons. -/
lemma and {x : Program σ α} (h : Raises R x) (spec : wp x Q E s) :
    wp x Q (fun e t => R e ∧ E e t) s :=
  wp_imp (wp_and (h s) spec) (fun _ _ h => h.2) fun _ _ h => h

end Raises

/-- A program that stops from nowhere returns. -/
lemma exists_ok {x : Program σ α} (h : wp x Q (fun _ _ => False) s) :
    ∃ a t, x s = .ok a t ∧ Q a t := by
  unfold wp at h
  cases e : x s with
  | ok a t =>
    rw [e] at h
    exact ⟨a, t, rfl, h⟩
  | error stop t =>
    rw [e] at h
    exact h.elim

/-- A program that does not return stops. -/
lemma exists_error {x : Program σ α} (h : wp x (fun _ _ => False) E s) :
    ∃ stop t, x s = .error stop t ∧ E stop t := by
  unfold wp at h
  cases e : x s with
  | ok a t =>
    rw [e] at h
    exact h.elim
  | error stop t =>
    rw [e] at h
    exact ⟨stop, t, rfl, h⟩

/-- The state that a program leaves, whichever way it ends. -/
def after (x : Program σ α) (s : σ) : σ :=
  match x s with
  | .ok _ t => t
  | .error _ t => t

/-- What holds however a program ends holds of the state it leaves. -/
lemma wp_after {x : Program σ α} {P : σ → Prop} (h : wp x (fun _ => P) (fun _ => P) s) :
    P (after x s) := by
  unfold wp at h
  unfold after
  cases e : x s with
  | ok a t =>
    rw [e] at h
    exact h
  | error stop t =>
    rw [e] at h
    exact h

/-- What comes behind a program and leaves the state. -/
lemma after_bind {x : Program σ α} {f : α → Program σ β} {s : σ}
    (leaves : ∀ a t, after (f a) t = t) : after (x >>= f) s = after x s := by
  change after (EStateM.bind x f) s = _
  unfold after EStateM.bind
  cases x s with
  | ok a t => exact leaves a t
  | error => rfl

/-- What a program has promised about the outcome that it has. -/
lemma wp_ok {x : Program σ α} {a : α} {t : σ} (h : wp x Q E s) (e : x s = .ok a t) : Q a t := by
  unfold wp at h
  rw [e] at h
  exact h

/-- What holds where a program stops. -/
lemma wp_error {x : Program σ α} {stop : Stop} {t : σ} (h : wp x Q E s)
    (e : x s = .error stop t) : E stop t := by
  unfold wp at h
  rw [e] at h
  exact h

end Program

end TRS.Lib
