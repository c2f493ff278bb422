import Mathlib.Tactic.TypeStar
import TRS.Lib.Run

/-!
# Bounded queues

A FIFO queue of bounded capacity as a machine over lists (`fifo`), the conservation law of its runs
(`fifo_conserves`), and the cells of a circular buffer read off as a list (`cyclic`).

* `cyclic_succ_last`, `cyclic_succ_first`: one more cell at either end.
* `cyclic_store`: a store to a cell that is not read off changes nothing.
-/

namespace TRS.Lib

/-- An operation of a queue. -/
inductive QueueOp (α : Type*) where
  | put (a : α)
  | get
  deriving DecidableEq, Repr

/-- What an operation of a queue answers. -/
inductive QueueAns (α : Type*) where
  | accepted
  | refused
  | got (a : α)
  | empty
  deriving DecidableEq, Repr

namespace QueueAns
variable {α : Type*}

/-- The operation failed. -/
def Fails : QueueAns α → Prop
  | accepted | got _ => False
  | refused | empty => True

/-- The element an answer hands out. -/
def elem? : QueueAns α → Option α
  | got a => some a
  | _ => none

end QueueAns

section Fifo
variable {α : Type*}

/-- One operation on a queue of capacity `cap`, oldest element first. -/
def fifo (cap : Nat) (q : List α) : QueueOp α → QueueAns α × List α
  | .put a => if q.length < cap then (.accepted, q ++ [a]) else (.refused, q)
  | .get =>
    match q with
    | [] => (.empty, [])
    | a :: q => (.got a, q)

/-- The elements that the operations of a run put into the queue, in order. -/
def acceptedBy : List (QueueOp α) → List (QueueAns α) → List α
  | .put a :: ops, .accepted :: outs => a :: acceptedBy ops outs
  | _ :: ops, _ :: outs => acceptedBy ops outs
  | _, _ => []

/-- The elements that a run took out of the queue, in order. -/
def gotBy (outs : List (QueueAns α)) : List α := outs.filterMap QueueAns.elem?

/-- A run neither loses nor invents an element, and keeps their order. -/
theorem fifo_conserves (cap : Nat) (q : List α) (ops : List (QueueOp α)) :
    q ++ acceptedBy ops (run (fifo cap) q ops).1 =
      gotBy (run (fifo cap) q ops).1 ++ (run (fifo cap) q ops).2 := by
  induction ops generalizing q with
  | nil => simp [acceptedBy, gotBy]
  | cons op ops ih =>
    rw [run_cons]
    cases op with
    | put a =>
      by_cases room : q.length < cap
      · have step : fifo cap q (.put a) = (.accepted, q ++ [a]) := by rw [fifo, if_pos room]
        have rest := ih (q ++ [a])
        rw [List.append_assoc] at rest
        rw [step]
        exact rest
      · have step : fifo cap q (.put a) = (.refused, q) := by rw [fifo, if_neg room]
        rw [step]
        exact ih q
    | get =>
      cases q with
      | nil => exact ih []
      | cons a q => exact congrArg (List.cons a) (ih q)

end Fifo

section Cyclic
variable {α : Type*}

/-- The `n` cells of a circular buffer of `size` cells from `start` on. -/
def cyclic (buf : Nat → α) (size start n : Nat) : List α :=
  (List.range n).map fun i => buf ((start + i) % size)

@[simp] lemma cyclic_zero (buf : Nat → α) (size start : Nat) : cyclic buf size start 0 = [] := rfl

@[simp] lemma cyclic_length (buf : Nat → α) (size start n : Nat) :
    (cyclic buf size start n).length = n := by
  simp [cyclic]

/-- One more value at the end. -/
lemma cyclic_succ_last (buf : Nat → α) (size start n : Nat) :
    cyclic buf size start (n + 1) = cyclic buf size start n ++ [buf ((start + n) % size)] := by
  rw [cyclic, List.range_succ, List.map_append]
  rfl

/-- One more value at the front. -/
lemma cyclic_succ_first (buf : Nat → α) (size start n : Nat) :
    cyclic buf size start (n + 1) =
      buf (start % size) :: cyclic buf size ((start + 1) % size) n := by
  rw [cyclic, List.range_succ_eq_map, List.map_cons, List.map_map, Nat.add_zero]
  refine congrArg (List.cons _) (List.map_congr_left fun i _ => ?_)
  change buf ((start + (i + 1)) % size) = buf (((start + 1) % size + i) % size)
  rw [Nat.mod_add_mod, Nat.add_assoc, Nat.add_comm 1 i]

/-- A store to a cell that is not among the `n` cells leaves them alone. -/
lemma cyclic_store {buf buf' : Nat → α} {size start n : Nat} (lt : n < size)
    (same : ∀ i, i ≠ (start + n) % size → buf' i = buf i) :
    cyclic buf' size start n = cyclic buf size start n := by
  refine List.map_congr_left fun i mem => same _ fun e => ?_
  have li : i < n := List.mem_range.mp mem
  have h : (start + i) % size = (start + n) % size := e
  have z := Nat.sub_mod_eq_zero_of_mod_eq h.symm
  rw [show start + n - (start + i) = n - i by omega, Nat.mod_eq_of_lt (by omega)] at z
  omega

end Cyclic

end TRS.Lib
