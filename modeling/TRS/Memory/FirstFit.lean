import Mathlib.Tactic.IntervalCases
import TRS.Memory.Accounting

/-!
# First fit

The lowest run of clear bits, and what `pmm_alloc_pages` hands out. The two agree exactly if the
bits behind the run are clear as well, to the end of its last byte: the unmasked test of the source
takes a page for a used one when any higher bit of its byte is set.

* `freeRun_iff`: the test of the source passes on a run exactly if the bits behind it are clear too.
* `FirstFit.behind`, `FirstFit.of_behind`: the two directions.

The headline `alloc_first_fit_iff` is over all states; `alloc_skips_freed` is a page that was freed
and is not handed out.
-/

namespace TRS.Memory
open TRS.Lib

namespace Pmm

/-- The `n` pages from `start` on lie below `total_pages` and have their bits clear. -/
def ClearRun (s : Pmm) (start n : Nat) : Prop :=
  start + n ≤ s.totalPages ∧ ∀ p, start ≤ p → p < start + n → s.bit p = false

/-- The lowest run of `n` pages with clear bits starts at `q`. -/
structure FirstRun (s : Pmm) (q n : Nat) : Prop where
  run : s.ClearRun q n
  first : ∀ r < q, ¬ s.ClearRun r n

/-- The state `t` is `s` with the `n` pages from `q` on handed out. -/
structure HandsOut (s : Pmm) (q n : Nat) (t : Pmm) : Prop where
  frame : SameFrame s t
  bit : ∀ p, t.bit p = (decide (q ≤ p ∧ p < q + n) || s.bit p)
  used : t.usedPages = u64 (s.usedPages + n)

/-- Complete first fit: the lowest run of `n` pages is handed out, or `NULL` if there is none. -/
structure FirstFit (s : Pmm) (n : Nat) (r : Except Stop (Nat × Pmm)) : Prop where
  found : ∀ q, s.FirstRun q n → ∃ t, r = .ok (q * pageSize, t) ∧ s.HandsOut q n t
  none : (∀ q, ¬ s.ClearRun q n) → r = .ok (0, s)

/-- The bits behind the `n` pages from `q` on are clear to the end of the last page's byte. -/
def ClearBehind (s : Pmm) (q n : Nat) : Prop :=
  ∀ p, q + n ≤ p → p / 8 = (q + n - 1) / 8 → s.bit p = false

/-- A run that passes the test of the source has its bits clear. -/
lemma FreeRun.clearRun {s : Pmm} {q n : Nat} (h : s.FreeRun q n) : s.ClearRun q n :=
  ⟨h.1, fun p h1 h2 => (h.2 p h1 h2).bit⟩

/-- The test of the source passes on a run exactly if the bits behind it are clear too. -/
lemma freeRun_iff {s : Pmm} {q n : Nat} (pos : 0 < n) :
    s.FreeRun q n ↔ s.ClearRun q n ∧ s.ClearBehind q n := by
  constructor
  · intro h
    refine ⟨h.clearRun, fun p le byte => ?_⟩
    have last := h.2 (q + n - 1) (by omega) (by omega)
    exact (s.clear_iff _).mp last p (by omega) byte
  · rintro ⟨run, behind⟩
    refine ⟨run.1, fun p h1 h2 => (s.clear_iff p).mpr fun r le byte => ?_⟩
    by_cases inside : r < q + n
    · exact run.2 r (by omega) inside
    · exact behind r (by omega) (by omega)

/-- To mark the pages of a run is to hand them out. -/
lemma allocated_handsOut (s : Pmm) (q n : Nat) : s.HandsOut q n (s.allocated q n) :=
  ⟨s.allocated_frame q n, s.allocated_bit q n, rfl⟩

/-- Where first fit is kept, the bits behind the lowest run are clear. -/
lemma FirstFit.behind {s : Pmm} (fits : s.Fits) {n : Nat} (pos : 0 < n)
    (h : s.FirstFit n (s.pmmAllocPages n)) {q : Nat} (first : s.FirstRun q n) :
    s.bitmap ≠ 0 ∧ s.ClearBehind q n := by
  obtain ⟨t, e, out⟩ := h.found q first
  rcases pmmAllocPages_cases fits n with ⟨e', _⟩ | ⟨r, free, _, b, _, e'⟩
  · rw [e'] at e
    have same : s = t := congrArg Prod.snd (Except.ok.inj e)
    have set_ := out.bit q
    rw [← same, first.run.2 q (Nat.le_refl q) (by omega)] at set_
    simp [pos] at set_
  · rw [e'] at e
    have page : r * pageSize = q * pageSize := congrArg Prod.fst (Except.ok.inj e)
    obtain rfl : r = q := Nat.eq_of_mul_eq_mul_right (by decide) page
    exact ⟨b, ((freeRun_iff pos).mp free).2⟩

/-- Where the bits behind the lowest run are clear, first fit is kept. -/
lemma FirstFit.of_behind {s : Pmm} (fits : s.Fits) {n : Nat} (pos : 0 < n)
    (h : ∀ q, s.FirstRun q n → s.bitmap ≠ 0 ∧ s.ClearBehind q n) :
    s.FirstFit n (s.pmmAllocPages n) := by
  rcases pmmAllocPages_cases fits n with ⟨e, no⟩ | ⟨r, free, least, _, _, e⟩
  · refine ⟨fun q first => ?_, fun _ => e⟩
    obtain ⟨b, behind⟩ := h q first
    rcases no with b0 | n0 | none
    · exact absurd b0 b
    · omega
    · exact absurd ((freeRun_iff pos).mpr ⟨first.run, behind⟩) (none q)
  · refine ⟨fun q first => ?_, fun none => absurd free.clearRun (none r)⟩
    have free' := (freeRun_iff pos).mpr ⟨first.run, (h q first).2⟩
    have le : r ≤ q := Nat.le_of_not_lt fun lt => least q lt free'
    have ge : q ≤ r := Nat.le_of_not_lt fun lt => first.first r lt free.clearRun
    obtain rfl := Nat.le_antisymm le ge
    exact ⟨_, e, s.allocated_handsOut r n⟩

end Pmm

/-- `pmm_alloc_pages` is complete first fit exactly if the bits behind the lowest run are clear to
    the end of its last byte. -/
theorem alloc_first_fit_iff {s : Pmm} (fits : s.Fits) {n : Nat} (pos : 0 < n) :
    s.FirstFit n (s.pmmAllocPages n) ↔
      ∀ q, s.FirstRun q n → s.bitmap ≠ 0 ∧ s.ClearBehind q n :=
  ⟨fun h _ first => h.behind fits pos first, Pmm.FirstFit.of_behind fits pos⟩

/-- Sixteen pages, their bitmap at 0x1000: pages 0, 1, 2 and 8 to 11 are taken. -/
def sixteenPages : Pmm :=
  ⟨fun a => if a = 0x1000 then 0x07#8 else if a = 0x1001 then 0x0F#8 else 0#8, 0x1000, 2, 16, 0, 16,
    7⟩

/-- A request for three pages gets the first free ones, with taken pages on both sides. -/
theorem alloc_first_fit_iff_sixteen :
    sixteenPages.FirstRun 3 3 ∧ sixteenPages.FirstFit 3 (sixteenPages.pmmAllocPages 3) := by
  have run : sixteenPages.ClearRun 3 3 := by
    refine ⟨by decide, fun p h1 h2 => ?_⟩
    interval_cases p <;> decide
  have first : ∀ r < 3, ¬ sixteenPages.ClearRun r 3 := by
    intro r lt below
    have taken : sixteenPages.bit r = true := by interval_cases r <;> decide
    rw [below.2 r (Nat.le_refl r) (by omega)] at taken
    cases taken
  refine ⟨⟨run, first⟩, (alloc_first_fit_iff (by unfold Pmm.Fits; decide) (by decide)).mpr
    fun q least => ⟨by decide, ?_⟩⟩
  -- another first run would have to be the same
  obtain rfl : q = 3 := by
    rcases Nat.lt_trichotomy q 3 with lt | rfl | gt
    · exact absurd least.run (first q lt)
    · rfl
    · exact absurd run (least.first 3 gt)
  intro p behind byte
  have h1 : 6 ≤ p := behind
  have h2 : p < 8 := by omega
  interval_cases p <;> decide

/-- The first clear bit is that of page 0x111, and the bit of page 0x112 is set. -/
def HoleAt111 (s : Pmm) : Prop :=
  s.Fits ∧ 0x112 ≤ s.totalPages ∧ (∀ p < 0x111, s.bit p = true) ∧ s.bit 0x111 = false ∧
    s.bit 0x112 = true

instance (s : Pmm) : Decidable (HoleAt111 s) := by
  unfold HoleAt111 Pmm.Fits; infer_instance

/-- After two pages were handed out and the first was given back, the next request for a page does
    not get it. -/
theorem alloc_skips_freed : ∃ s o, pmmInit smallMap smallKernel (fun _ => 0#8) = .ok s ∧
    exec Owner.call (.start s) [.alloc 1, .alloc 1, .free 0x111000] = .ok o ∧
    ¬ o.pmm.FirstFit 1 (o.pmm.pmmAllocPages 1) := by
  have hole : smallRun [.alloc 1, .alloc 1, .free 0x111000] (fun o => HoleAt111 o.pmm) = true := by
    decide +kernel
  obtain ⟨s, o, e, e', h⟩ := smallRun_reaches hole
  obtain ⟨fits, total, below, clear, set_⟩ := of_decide_eq_true h
  refine ⟨s, o, e, e', fun fit => ?_⟩
  have first : o.pmm.FirstRun 0x111 1 := by
    refine ⟨⟨total, fun p h1 h2 => ?_⟩, fun r lt run => ?_⟩
    · obtain rfl : p = 0x111 := by omega
      exact clear
    · have free := run.2 r (Nat.le_refl r) (by omega)
      rw [below r lt] at free
      cases free
  have behind := (fit.behind fits Nat.one_pos first).2 0x112 (by decide) (by decide)
  rw [set_] at behind
  cases behind

end TRS.Memory
