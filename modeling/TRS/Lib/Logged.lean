import TRS.Lib.Mem

/-!
# States with a log of accesses

`Logged σ α` is a state of type `σ` together with the accesses made on the way to it. A step of a
program is logged by giving the accesses that it makes in each state (`Logged.step`); the logged
program computes the same states (`step_val`, `forRange_val`), and a property of accesses is carried
along its steps (`AllLogged.step`) like any invariant. That no step forgets a store is such an
invariant too (`Accounts`): a byte which the log does not store to is what it was.
-/

namespace TRS.Lib

/-- An access to the `n` bytes from address `a` on. -/
inductive Access where
  | read (a n : Nat)
  | write (a n : Nat)
  deriving DecidableEq, Repr

/-- The bytes of the access lie in the `size` bytes from `base` on. -/
def Access.Within (base size : Nat) : Access → Prop
  | read a n | write a n => base ≤ a ∧ a + n ≤ base + size

/-- The access stores to byte `b`. -/
def Access.Stores (b : Nat) : Access → Prop
  | read .. => False
  | write a n => a ≤ b ∧ b < a + n

/-- What lies in a range lies in a larger one. -/
lemma Access.Within.mono {base size base' size' : Nat} {x : Access} (h : x.Within base size)
    (lo : base' ≤ base) (hi : base + size ≤ base' + size') : x.Within base' size' := by
  cases x with
  | read a n => exact ⟨Nat.le_trans lo h.1, Nat.le_trans h.2 hi⟩
  | write a n => exact ⟨Nat.le_trans lo h.1, Nat.le_trans h.2 hi⟩

variable {σ τ α : Type*}

/-- A state, and the accesses made so far. -/
structure Logged (σ α : Type*) where
  val : σ
  log : List α

namespace Logged

/-- A step that makes the accesses `acc` of the state before it. -/
def step (f : σ → σ) (acc : σ → List α) (t : Logged σ α) : Logged σ α :=
  ⟨f t.val, t.log ++ acc t.val⟩

/-- A step that makes no access. -/
def map (f : σ → τ) (t : Logged σ α) : Logged τ α := ⟨f t.val, t.log⟩

@[simp] lemma step_val (f : σ → σ) (acc : σ → List α) (t : Logged σ α) :
    (t.step f acc).val = f t.val := rfl

@[simp] lemma map_val (f : σ → τ) (t : Logged σ α) : (t.map f).val = f t.val := rfl

end Logged

/-- Every access of the log has the property. -/
def AllLogged (P : α → Prop) (t : Logged σ α) : Prop := ∀ a ∈ t.log, P a

namespace AllLogged
variable {P Q : α → Prop} {t : Logged σ α}

/-- A step keeps what its accesses have. -/
lemma step {f : σ → σ} {acc : σ → List α} (h : AllLogged P t) (new : ∀ a ∈ acc t.val, P a) :
    AllLogged P (t.step f acc) := by
  intro a m
  rcases List.mem_append.mp m with old | here
  · exact h a old
  · exact new a here

lemma map {f : σ → τ} (h : AllLogged P t) : AllLogged P (t.map f) := h

end AllLogged

/-- The log accounts for the memory: a byte to which it has no store is the one of `m₀`. -/
def Accounts (m₀ : Mem) (t : Logged Mem Access) : Prop :=
  ∀ b, (∀ a ∈ t.log, ¬ a.Stores b) → t.val b = m₀ b

/-- More accesses, which store to every byte that is changed. -/
lemma Accounts.more {m₀ : Mem} {t t' : Logged Mem Access} {acc : List Access} (h : Accounts m₀ t)
    (log : t'.log = t.log ++ acc)
    (own : ∀ b, (∀ a ∈ acc, ¬ a.Stores b) → t'.val b = t.val b) : Accounts m₀ t' := by
  intro b none_
  rw [log] at none_
  have before : ∀ a ∈ t.log, ¬ a.Stores b := fun a m => none_ a (List.mem_append_left _ m)
  have here : ∀ a ∈ acc, ¬ a.Stores b := fun a m => none_ a (List.mem_append_right _ m)
  calc t'.val b = t.val b := own b here
    _ = m₀ b := h b before

/-- A loop whose rounds are logged computes what the loop computes. -/
lemma forRange_val {σ α : Type*} (body : Nat → σ → σ)
    {logged : Nat → Logged σ α → Logged σ α} (same : ∀ i t, (logged i t).val = body i t.val)
    (lo hi : Nat) (t : Logged σ α) :
    (forRange lo hi logged t).val = forRange lo hi body t.val := by
  have all : ∀ n i (t : Logged σ α), (rounds logged n i t).val = rounds body n i t.val := by
    intro n
    induction n with
    | zero => exact fun _ _ => rfl
    | succ n ih => exact fun i t => by rw [rounds, rounds, ih, same]
  exact all _ _ t

end TRS.Lib
