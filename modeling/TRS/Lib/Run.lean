import Mathlib.Tactic.Lemma
import Mathlib.Tactic.TypeStar

/-!
# Runs of a machine that answers calls

A machine is a function `step : σ → ι → Except ε (ο × σ)`: in a state `s` a call `c` either stops
the machine (`.error`) or is answered with an output and a next state. `Guarded` is the caller's
side of a run (every call that is reached meets a condition on the state before it), `Along` is the
machine's side (every call is answered, and the answer meets a relation). The rules
`Along.of_invariant`, `Along.iff_guarded` and `Along.iff_forall` turn a fact about one call into a
fact about every finite run.

A machine that always answers is a function `σ → ι → ο × σ`; `run` collects its outputs and
`run_simulates` is forward simulation between two of them, and `run_projects` compares the part of a
run that is about one of its clients with a run of that client alone.
-/

namespace TRS.Lib

section Calls
variable {σ ι ο ε : Type*} {step : σ → ι → Except ε (ο × σ)}

/-- Every call of the list is answered, and `P` relates the states around it to the answer. -/
def Along (step : σ → ι → Except ε (ο × σ)) (P : σ → ι → ο → σ → Prop) : σ → List ι → Prop
  | _, [] => True
  | s, c :: cs => ∃ o s', step s c = .ok (o, s') ∧ P s c o s' ∧ Along step P s' cs

/-- `G` holds before every call of the list that the run reaches. -/
def Guarded (step : σ → ι → Except ε (ο × σ)) (G : σ → ι → Prop) : σ → List ι → Prop
  | _, [] => True
  | s, c :: cs => G s c ∧ ∀ o s', step s c = .ok (o, s') → Guarded step G s' cs

/-- The state a run leaves. -/
def exec (step : σ → ι → Except ε (ο × σ)) : σ → List ι → Except ε σ
  | s, [] => .ok s
  | s, c :: cs =>
    match step s c with
    | .ok r => exec step r.2 cs
    | .error e => .error e

/-- A machine that always answers. -/
def answered (f : σ → ι → ο × σ) : σ → ι → Except Empty (ο × σ) := fun s c => .ok (f s c)

lemma exec_cons {s : σ} {c : ι} {cs : List ι} {o : ο} {s' : σ} (e : step s c = .ok (o, s')) :
    exec step s (c :: cs) = exec step s' cs := by
  rw [exec, e]

lemma exec_append {s t : σ} {cs : List ι} (e : exec step s cs = .ok t) (ds : List ι) :
    exec step s (cs ++ ds) = exec step t ds := by
  induction cs generalizing s with
  | nil =>
    cases e
    rfl
  | cons c cs ih =>
    rw [exec] at e
    rw [List.cons_append, exec]
    split at e
    · exact ih e
    · cases e

/-- What every call keeps, a run keeps. -/
theorem exec_invariant {I : σ → Prop}
    (call : ∀ s c o s', I s → step s c = .ok (o, s') → I s')
    {s t : σ} {cs : List ι} (inv : I s) (e : exec step s cs = .ok t) : I t := by
  induction cs generalizing s with
  | nil =>
    cases e
    exact inv
  | cons c cs ih =>
    rw [exec] at e
    split at e
    · rename_i r here
      exact ih (call s c r.1 r.2 inv here) e
    · cases e

/-- A promise about the calls alone. -/
lemma Guarded.of_forall {C : ι → Prop} {s : σ} {cs : List ι} (h : ∀ c ∈ cs, C c) :
    Guarded step (fun _ => C) s cs := by
  induction cs generalizing s with
  | nil => trivial
  | cons c cs ih =>
    obtain ⟨here, rest⟩ := List.forall_mem_cons.mp h
    exact ⟨here, fun _ _ _ => ih rest⟩

/-- A caller that promises nothing. -/
lemma Guarded.of_true {s : σ} {cs : List ι} : Guarded step (fun _ _ => True) s cs :=
  .of_forall fun _ _ => trivial

/-- A guard is met by a run if each call meets it in the state that the calls before it leave. -/
lemma Guarded.of_take {G : σ → ι → Prop} {s : σ} {cs : List ι}
    (each : ∀ k (lt : k < cs.length) t, exec step s (cs.take k) = .ok t → G t cs[k]) :
    Guarded step G s cs := by
  induction cs generalizing s with
  | nil => trivial
  | cons c cs ih =>
    refine ⟨each 0 (Nat.succ_pos _) s rfl, fun o s' here => ih fun k lt t e => ?_⟩
    refine each (k + 1) (Nat.succ_lt_succ lt) t ?_
    rw [List.take_succ_cons, exec_cons here]
    exact e

/-- A machine that always answers answers the first call and then the others. -/
lemma Along.answered_cons {f : σ → ι → ο × σ} {P : σ → ι → ο → σ → Prop} {s : σ} {c : ι}
    {cs : List ι} : Along (answered f) P s (c :: cs) ↔
      P s c (f s c).1 (f s c).2 ∧ Along (answered f) P (f s c).2 cs := by
  constructor
  · rintro ⟨o, s', e, rest⟩
    have eq : f s c = (o, s') := Except.ok.inj e
    rw [eq]
    exact rest
  · exact fun h => ⟨_, _, rfl, h⟩

/-- The last call of a run, with the state it is made in. -/
lemma Along.last {P : σ → ι → ο → σ → Prop} {s cs c} (h : Along step P s (cs ++ [c])) :
    ∃ t o t', exec step s cs = .ok t ∧ exec step s (cs ++ [c]) = .ok t' ∧ P t c o t' := by
  induction cs generalizing s with
  | nil =>
    obtain ⟨o, s', e, p, _⟩ := h
    exact ⟨s, o, s', rfl, by rw [List.nil_append, exec_cons e]; rfl, p⟩
  | cons d ds ih =>
    obtain ⟨o, s', e, _, rest⟩ := h
    obtain ⟨t, o', t', e1, e2, p⟩ := ih rest
    exact ⟨t, o', t', by rw [exec_cons e, e1], by rw [List.cons_append, exec_cons e, e2], p⟩

/-- Run rule: what one guarded call does from the invariant, every call of a guarded run does. -/
theorem Along.of_invariant {I : σ → Prop} {G : σ → ι → Prop} {P : σ → ι → ο → σ → Prop}
    (call : ∀ s c, I s → G s c → ∃ o s', step s c = .ok (o, s') ∧ P s c o s' ∧ I s')
    {s cs} (inv : I s) (h : Guarded step G s cs) : Along step P s cs := by
  induction cs generalizing s with
  | nil => trivial
  | cons c cs ih =>
    obtain ⟨o, s', e, p, inv'⟩ := call s c inv h.1
    exact ⟨o, s', e, p, ih inv' (h.2 o s' e)⟩

/-- Exact run rule: if one call meets `P` exactly under `C`, and a call that meets `P` keeps the
    invariant, then a whole run meets `P` exactly when `C` holds before each of its calls. -/
theorem Along.iff_guarded {I : σ → Prop} {G C : σ → ι → Prop} {P : σ → ι → ο → σ → Prop}
    (call : ∀ s c, I s → G s c →
      ∃ o s', step s c = .ok (o, s') ∧ (P s c o s' ↔ C s c) ∧ (P s c o s' → I s'))
    {s cs} (inv : I s) (h : Guarded step G s cs) :
    Along step P s cs ↔ Guarded step C s cs := by
  induction cs generalizing s with
  | nil => exact Iff.rfl
  | cons c cs ih =>
    obtain ⟨o, s', e, iff, keep⟩ := call s c inv h.1
    constructor
    · rintro ⟨o1, s1, e1, p, rest⟩
      rw [e] at e1
      cases e1
      refine ⟨iff.mp p, fun o2 s2 e2 => ?_⟩
      rw [e] at e2
      cases e2
      exact (ih (keep p) (h.2 o s' e)).mp rest
    · rintro ⟨hc, rest⟩
      have p := iff.mpr hc
      exact ⟨o, s', e, p, (ih (keep p) (h.2 o s' e)).mpr (rest o s' e)⟩

/-- Exact run rule for a condition on the calls alone: a call that meets `C` is answered as `P`
    asks, and an answer as `P` asks tells that the call meets `C`. -/
theorem Along.iff_forall {I : σ → Prop} {C : ι → Prop} {P : σ → ι → ο → σ → Prop}
    (good : ∀ s c, I s → C c → ∃ o s', step s c = .ok (o, s') ∧ P s c o s' ∧ I s')
    (bad : ∀ s c o s', I s → step s c = .ok (o, s') → P s c o s' → C c)
    {s cs} (inv : I s) : Along step P s cs ↔ ∀ c ∈ cs, C c := by
  induction cs generalizing s with
  | nil => exact ⟨fun _ => List.forall_mem_nil C, fun _ => trivial⟩
  | cons c cs ih =>
    rw [List.forall_mem_cons]
    constructor
    · rintro ⟨o, s', e, p, rest⟩
      have hc := bad s c o s' inv e p
      obtain ⟨o1, s1, e1, _, inv'⟩ := good s c inv hc
      rw [e] at e1
      cases e1
      exact ⟨hc, (ih inv').mp rest⟩
    · rintro ⟨hc, rest⟩
      obtain ⟨o, s', e, p, inv'⟩ := good s c inv hc
      exact ⟨o, s', e, p, (ih inv').mpr rest⟩

end Calls

section Total
variable {σ τ ι ο : Type*}

/-- The outputs of a list of calls, in order, and the state they leave. -/
def run (step : σ → ι → ο × σ) : σ → List ι → List ο × σ
  | s, [] => ([], s)
  | s, c :: cs =>
    let r := step s c
    let rest := run step r.2 cs
    (r.1 :: rest.1, rest.2)

@[simp] lemma run_nil (step : σ → ι → ο × σ) (s : σ) : run step s [] = ([], s) := rfl

@[simp] lemma run_cons (step : σ → ι → ο × σ) (s : σ) (c : ι) (cs : List ι) :
    run step s (c :: cs) =
      ((step s c).1 :: (run step (step s c).2 cs).1, (run step (step s c).2 cs).2) := rfl

/-- Forward simulation: if related states answer each call that meets `G` alike and stay related,
    then related states give the same outputs on every run of such calls. -/
theorem run_simulates {f : σ → ι → ο × σ} {g : τ → ι → ο × τ} {R : σ → τ → Prop} {G : ι → Prop}
    (call : ∀ s t c, R s t → G c → (f s c).1 = (g t c).1 ∧ R (f s c).2 (g t c).2)
    {s : σ} {t : τ} (rel : R s t) (cs : List ι) (guard : ∀ c ∈ cs, G c) :
    (run f s cs).1 = (run g t cs).1 ∧ R (run f s cs).2 (run g t cs).2 := by
  induction cs generalizing s t with
  | nil => exact ⟨rfl, rel⟩
  | cons c cs ih =>
    obtain ⟨out, rel'⟩ := call s t c rel (guard c (.head cs))
    obtain ⟨outs, rel''⟩ := ih rel' fun c m => guard c (.tail _ m)
    exact ⟨by simp only [run_cons, out, outs], rel''⟩

/-- The answers to the calls of a list that are `own`. -/
def answersTo {κ : Type*} (own : ι → Option κ) : List ι → List ο → List ο
  | c :: cs, o :: os =>
    match own c with
    | some _ => o :: answersTo own cs os
    | none => answersTo own cs os
  | _, _ => []

/-- Projection: if the own calls are answered as another machine answers them, and all other calls
    keep the relation to it, then the own calls of a run are answered as that machine answers them
    alone. -/
theorem run_projects {κ : Type*} {f : σ → ι → ο × σ} {g : τ → κ → ο × τ} {own : ι → Option κ}
    {R : σ → τ → Prop} {G : ι → Prop}
    (mine : ∀ s t c k, own c = some k → R s t → G c →
      (f s c).1 = (g t k).1 ∧ R (f s c).2 (g t k).2)
    (other : ∀ s t c, own c = none → R s t → G c → R (f s c).2 t)
    {s : σ} {t : τ} (rel : R s t) (cs : List ι) (guard : ∀ c ∈ cs, G c) :
    answersTo own cs (run f s cs).1 = (run g t (cs.filterMap own)).1 := by
  induction cs generalizing s t with
  | nil => rfl
  | cons c cs ih =>
    have here := guard c (.head cs)
    have later : ∀ d ∈ cs, G d := fun d m => guard d (.tail _ m)
    rw [run_cons, answersTo]
    cases e : own c with
    | none =>
      rw [List.filterMap_cons_none e]
      exact ih (other s t c e rel here) later
    | some k =>
      obtain ⟨out, rel'⟩ := mine s t c k e rel here
      rw [List.filterMap_cons_some e, run_cons]
      dsimp only
      rw [out, ih rel' later]

end Total

end TRS.Lib
