import Mathlib.Tactic.Push
import TRS.Memory.Basic

/-!
# What the memory manager's functions do

One lemma for each function of `Memory/Basic.lean`, over the bits of the bitmap. `Clear s p` is the
unmasked test of the source: bit `p` *and every higher bit of its byte* are 0. A bitmap that `Fits`
has a byte for every page below `total_pages`, so that none of the functions stops; the callers in
the following modules use these lemmas and never unfold a function again.

* `bitmapTest_ok`, `bitmapSet_ok`, `bitmapClear_ok`: the accesses to the bitmap.
* `reservRange_ok`, `reservAll_ok`: the reservations.
* `scan_cases`, `pmmAllocPages_cases`: the search for a run, by the invariant `ScanInv`.
* `pmmFreePage_ok`: the free of a page.
-/

namespace TRS.Memory
open TRS.Lib

namespace Pmm

/-- Bit `p` of the bitmap. -/
def bit (s : Pmm) (p : Nat) : Bool := bitAt s.mem s.bitmap p

/-- `bitmap_test(p)` is 0. -/
def Clear (s : Pmm) (p : Nat) : Prop := bitsFrom s.mem s.bitmap p = 0#8

instance (s : Pmm) (p : Nat) : Decidable (s.Clear p) := by unfold Clear; infer_instance

/-- The bitmap has a byte for every page below `total_pages`. -/
def Fits (s : Pmm) : Prop := s.totalPages ≤ 8 * s.bitmapBytes

/-- The state with bits `lo .. hi - 1` set. -/
def mark (s : Pmm) (lo hi : Nat) : Pmm := { s with mem := setBits s.mem s.bitmap lo hi }

/-- The state with bits `lo .. hi - 1` cleared. -/
def unmark (s : Pmm) (lo hi : Nat) : Pmm := { s with mem := clearBits s.mem s.bitmap lo hi }

@[simp] lemma mark_bit (s : Pmm) (lo hi q : Nat) :
    (s.mark lo hi).bit q = (decide (lo ≤ q ∧ q < hi) || s.bit q) := bitAt_setBits ..

@[simp] lemma unmark_bit (s : Pmm) (lo hi q : Nat) :
    (s.unmark lo hi).bit q = (!decide (lo ≤ q ∧ q < hi) && s.bit q) := bitAt_clearBits ..

/-- The test of page `p` is 0 when no bit of its byte from `p` on is set. -/
lemma clear_iff (s : Pmm) (p : Nat) :
    s.Clear p ↔ ∀ q, p ≤ q → q / 8 = p / 8 → s.bit q = false := bitsFrom_eq_zero ..

/-- A page whose test is 0 has its own bit clear. -/
lemma Clear.bit {s : Pmm} {p : Nat} (h : s.Clear p) : s.bit p = false :=
  (s.clear_iff p).mp h p (Nat.le_refl p) rfl

/-- A page whose own bit is set is not `Clear`. -/
lemma not_clear_of_bit {s : Pmm} {p : Nat} (h : s.bit p = true) : ¬ s.Clear p := by
  intro c
  rw [c.bit] at h
  cases h

/-- A page is kept from being `Clear` by some bit of its byte at or above it. -/
lemma not_clear_iff (s : Pmm) (p : Nat) :
    ¬ s.Clear p ↔ ∃ q, p ≤ q ∧ q / 8 = p / 8 ∧ s.bit q = true := by
  rw [clear_iff]
  push Not
  simp only [Bool.not_eq_false]

/-- The byte of a page's bit lies in the bitmap. -/
lemma index_lt {s : Pmm} (fits : s.Fits) {p : Nat} (lt : p < s.totalPages) :
    p / 8 < s.bitmapBytes := by
  unfold Fits at fits
  omega

/-! ## The bit operations -/

lemma shiftRight_three (p : Nat) : p >>> 3 = p / 8 := Nat.shiftRight_eq_div_pow p 3

lemma and_seven (p : Nat) : p &&& 7 = p % 8 := Nat.and_two_pow_sub_one_eq_mod p 3

/-- `bitmap_test` in the bitmap: the bits of the byte from the page's own on. -/
lemma bitmapTest_ok {s : Pmm} {p : Nat} (lt : p / 8 < s.bitmapBytes) :
    s.bitmapTest p = .ok (bitsFrom s.mem s.bitmap p) := by
  rw [bitmapTest, shiftRight_three, and_seven, load, if_pos lt]
  rfl

/-- `bitmap_set` in the bitmap. -/
lemma bitmapSet_ok {s : Pmm} {p : Nat} (lt : p / 8 < s.bitmapBytes) :
    s.bitmapSet p = .ok { s with mem := setBit s.mem s.bitmap p } := by
  rw [bitmapSet, shiftRight_three, and_seven, load, if_pos lt, ok_bind, store, if_pos lt]
  rfl

/-- `bitmap_clear` in the bitmap. -/
lemma bitmapClear_ok {s : Pmm} {p : Nat} (lt : p / 8 < s.bitmapBytes) :
    s.bitmapClear p = .ok { s with mem := clearBit s.mem s.bitmap p } := by
  rw [bitmapClear, shiftRight_three, and_seven, load, if_pos lt, ok_bind, store, if_pos lt]
  rfl

/-- A loop of `bitmap_set` marks its range. -/
lemma bitmapSet_loop {s : Pmm} (fits : s.Fits) {lo hi : Nat} (le : hi ≤ s.totalPages) :
    forRangeM lo hi (fun i s => s.bitmapSet i) s = .ok (s.mark lo hi) := by
  by_cases h : lo ≤ hi
  · have round : ∀ i, lo ≤ i → i < hi →
        (s.mark lo i).bitmapSet i = .ok (s.mark lo (i + 1)) := by
      intro i h1 h2
      rw [bitmapSet_ok (s := s.mark lo i) (index_lt fits (by omega))]
      simp only [mark, setBits, forRange_succ h1]
    have run : forRangeM lo hi (fun i s => s.bitmapSet i) (s.mark lo lo) =
        .ok (s.mark lo hi) := forRangeM_eq (s.mark lo) h round
    have start : s.mark lo lo = s := by
      simp only [mark, setBits, forRange_of_le (Nat.le_refl lo)]
    rwa [start] at run
  · simp [forRangeM_of_le (show hi ≤ lo by omega), mark, setBits,
      forRange_of_le (show hi ≤ lo by omega)]

/-- A loop of `bitmap_clear` unmarks its range. -/
lemma bitmapClear_loop {s : Pmm} (fits : s.Fits) {lo hi : Nat} (le : hi ≤ s.totalPages) :
    forRangeM lo hi (fun i s => s.bitmapClear i) s = .ok (s.unmark lo hi) := by
  by_cases h : lo ≤ hi
  · have round : ∀ i, lo ≤ i → i < hi →
        (s.unmark lo i).bitmapClear i = .ok (s.unmark lo (i + 1)) := by
      intro i h1 h2
      rw [bitmapClear_ok (s := s.unmark lo i) (index_lt fits (by omega))]
      simp only [unmark, clearBits, forRange_succ h1]
    have run : forRangeM lo hi (fun i s => s.bitmapClear i) (s.unmark lo lo) =
        .ok (s.unmark lo hi) := forRangeM_eq (s.unmark lo) h round
    have start : s.unmark lo lo = s := by
      simp only [unmark, clearBits, forRange_of_le (Nat.le_refl lo)]
    rwa [start] at run
  · simp [forRangeM_of_le (show hi ≤ lo by omega), unmark, clearBits,
      forRange_of_le (show hi ≤ lo by omega)]

/-! ## `reserv_range` -/

/-- Nothing but the memory, `used_pages` and `last_alloc` changed. -/
structure SameFrame (s t : Pmm) : Prop where
  bitmap : t.bitmap = s.bitmap
  bitmapBytes : t.bitmapBytes = s.bitmapBytes
  totalPages : t.totalPages = s.totalPages
  usablePages : t.usablePages = s.usablePages

/-- Where the frame stays, the bitmap still fits. -/
lemma SameFrame.fits {s t : Pmm} (h : SameFrame s t) (fits : s.Fits) : t.Fits := by
  unfold Fits at *
  rw [h.totalPages, h.bitmapBytes]
  exact fits

lemma SameFrame.trans {s t u : Pmm} (h1 : SameFrame s t) (h2 : SameFrame t u) : SameFrame s u :=
  ⟨h2.bitmap.trans h1.bitmap, h2.bitmapBytes.trans h1.bitmapBytes,
    h2.totalPages.trans h1.totalPages, h2.usablePages.trans h1.usablePages⟩

/-- Page `p` reserved: its bit set and counted. -/
def reserve (s : Pmm) (p : Nat) : Pmm :=
  { s with mem := setBit s.mem s.bitmap p, usedPages := u64 (s.usedPages + 1) }

@[simp] lemma reserve_bit (s : Pmm) (p q : Nat) :
    (s.reserve p).bit q = (decide (q = p) || s.bit q) := bitAt_setBit ..

/-- What any sequence of reservations does: pages that are `Clear` are reserved, one by one. -/
inductive Reserves : Pmm → Pmm → Prop where
  | refl (s) : Reserves s s
  | page {s t p} : Reserves s t → p < t.totalPages → t.Clear p → Reserves s (t.reserve p)

/-- Reservations in a row. -/
lemma Reserves.trans {s t u : Pmm} (h1 : Reserves s t) (h2 : Reserves t u) : Reserves s u := by
  induction h2 with
  | refl => exact h1
  | page _ lt c ih => exact .page ih lt c

/-- They keep the frame. -/
lemma Reserves.frame {s t : Pmm} (h : Reserves s t) : SameFrame s t := by
  induction h with
  | refl => exact ⟨rfl, rfl, rfl, rfl⟩
  | page _ _ _ ih => exact ⟨ih.bitmap, ih.bitmapBytes, ih.totalPages, ih.usablePages⟩

/-- They clear no bit. -/
lemma Reserves.mono {s t : Pmm} (h : Reserves s t) {q : Nat} (b : s.bit q = true) :
    t.bit q = true := by
  induction h with
  | refl => exact b
  | page _ _ _ ih => simp [ih]

/-- They make no page clear. -/
lemma Reserves.not_clear {s t : Pmm} (h : Reserves s t) {p : Nat} (nc : ¬ s.Clear p) :
    ¬ t.Clear p := by
  rw [not_clear_iff] at nc ⊢
  obtain ⟨q, le, e, b⟩ := nc
  exact ⟨q, le, e, h.mono b⟩

/-- `reserv_page` reserves a page that is clear. -/
lemma reservPage_ok {s : Pmm} (fits : s.Fits) {p : Nat} (lt : p < s.totalPages) :
    reservPage p s = .ok (if s.Clear p then s.reserve p else s) := by
  have ix := index_lt fits lt
  by_cases c : s.Clear p
  · have t : bitsFrom s.mem s.bitmap p = 0#8 := c
    simp only [reservPage, bitmapTest_ok ix, ok_bind, t, if_true, bitmapSet_ok ix, c, reserve]
    rfl
  · have t : ¬ bitsFrom s.mem s.bitmap p = 0#8 := c
    simp only [reservPage, bitmapTest_ok ix, ok_bind, t, if_false, c]
    rfl

/-- The first page of a range. -/
def firstPage (start : Nat) : Nat := start / pageSize

/-- The page after the last page of a range. -/
def lastPage (start size : Nat) : Nat := alignUp (u64 (start + size)) pageSize / pageSize

/-- `reserv_range` reserves pages, and leaves none of its pages `Clear`. -/
lemma reservRange_ok {s : Pmm} (fits : s.Fits) (start size : Nat) :
    ∃ t, s.reservRange start size = .ok t ∧ Reserves s t ∧
      ∀ p, firstPage start ≤ p → p < lastPage start size → p < s.totalPages → ¬ t.Clear p := by
  by_cases le : firstPage start ≤ min (lastPage start size) s.totalPages
  · obtain ⟨t, e, r, cov⟩ : ∃ t, s.reservRange start size = .ok t ∧ Reserves s t ∧
        ∀ p, firstPage start ≤ p → p < min (lastPage start size) s.totalPages → ¬ t.Clear p :=
      forRangeM_induct (fun i t => Reserves s t ∧ ∀ p, firstPage start ≤ p → p < i → ¬ t.Clear p) le
      ⟨.refl s, fun p h1 h2 => absurd h2 (Nat.not_lt.mpr h1)⟩
      (fun i t h1 h2 ih => by
        have fr := ih.1.frame
        have lt : i < t.totalPages := by rw [fr.totalPages]; omega
        refine ⟨_, reservPage_ok (fr.fits fits) lt, ?_⟩
        by_cases c : t.Clear i
        · rw [if_pos c]
          have st : Reserves t (t.reserve i) := .page (.refl t) lt c
          refine ⟨.page ih.1 lt c, fun p g1 g2 => ?_⟩
          by_cases e : p = i
          · subst e
            exact not_clear_of_bit (by simp)
          · exact st.not_clear (ih.2 p g1 (by omega))
        · rw [if_neg c]
          refine ⟨ih.1, fun p g1 g2 => ?_⟩
          by_cases e : p = i
          · rw [e]; exact c
          · exact ih.2 p g1 (by omega))
    exact ⟨t, e, r, fun p h1 h2 h3 => cov p h1 (by omega)⟩
  · refine ⟨s, forRangeM_of_le (by unfold firstPage lastPage at le; omega) s, .refl s, ?_⟩
    intro p h1 h2 h3
    omega

/-- All reservations succeed, and leave no page of their ranges clear. -/
lemma reservAll_ok {s : Pmm} (fits : s.Fits) (rs : List (Nat × Nat)) :
    ∃ t, reservAll rs s = .ok t ∧ Reserves s t ∧
      ∀ r ∈ rs, ∀ p, firstPage r.1 ≤ p → p < lastPage r.1 r.2 → p < s.totalPages →
        ¬ t.Clear p := by
  induction rs generalizing s with
  | nil => exact ⟨s, rfl, .refl s, by simp⟩
  | cons r rs ih =>
    obtain ⟨t, e, st, cov⟩ := reservRange_ok fits r.1 r.2
    obtain ⟨u, e', st', cov'⟩ := ih (st.frame.fits fits)
    refine ⟨u, ?_, st.trans st', ?_⟩
    · rw [reservAll, e, ok_bind, e']
    · intro r' mem p h1 h2 h3
      cases mem with
      | head => exact st'.not_clear (cov p h1 h2 h3)
      | tail _ mem => exact cov' r' mem p h1 h2 (by rw [st.frame.totalPages]; exact h3)

/-! ## `pmm_alloc_pages` -/

/-- The `n` pages from `start` on lie below `total_pages` and are all `Clear`. -/
def FreeRun (s : Pmm) (start n : Nat) : Prop :=
  start + n ≤ s.totalPages ∧ ∀ p, start ≤ p → p < start + n → s.Clear p

/-- The state after the block of `n` pages at `start` was handed out. -/
def allocated (s : Pmm) (start n : Nat) : Pmm :=
  { s.mark start (start + n) with
    usedPages := u64 (s.usedPages + n)
    lastAlloc := start + n }

@[simp] lemma allocated_bit (s : Pmm) (start n q : Nat) :
    (s.allocated start n).bit q = (decide (start ≤ q ∧ q < start + n) || s.bit q) :=
  mark_bit ..

/-- What the scan knows at page `p`: the last `c` pages are `Clear`, the page before them is not,
    and no run of `pages` pages ended before `p`. -/
structure ScanInv (s : Pmm) (pages p c start : Nat) : Prop where
  le : c ≤ p
  short : c < pages
  clear : ∀ q, p - c ≤ q → q < p → s.Clear q
  start : c ≠ 0 → start = p - c
  edge : c < p → ¬ s.Clear (p - c - 1)
  none : ∀ q, q + pages ≤ p → ∃ r, q ≤ r ∧ r < q + pages ∧ ¬ s.Clear r

/-- Before the first page no run has been found. -/
lemma ScanInv.first {s : Pmm} {pages : Nat} (pos : 0 < pages) : ScanInv s pages 0 0 0 where
  le := Nat.le_refl 0
  short := pos
  clear := by omega
  start := by omega
  edge := by omega
  none := by omega

/-- One more `Clear` page, still short of a block. -/
lemma ScanInv.grow {s : Pmm} {pages p c start : Nat} (h : ScanInv s pages p c start)
    (cl : s.Clear p) (short : c + 1 < pages) :
    ScanInv s pages (p + 1) (c + 1) (if c = 0 then p else start) where
  le := by have := h.le; omega
  short := short
  clear := by
    intro q h1 h2
    by_cases e : q = p
    · rw [e]; exact cl
    · exact h.clear q (by omega) (by omega)
  start := by
    intro _
    by_cases e : c = 0
    · simp [e]
    · have := h.start e
      simp only [e, if_false]
      omega
  edge := by
    intro lt
    rw [show p + 1 - (c + 1) - 1 = p - c - 1 by omega]
    exact h.edge (by omega)
  none := by
    intro q le
    by_cases e : q + pages ≤ p
    · exact h.none q e
    · -- a block that ends in page `p` reaches back past the start of the run
      have := h.le
      exact ⟨p - c - 1, by omega, by omega, h.edge (by omega)⟩

/-- A page that is not `Clear` starts the run anew. -/
lemma ScanInv.reset {s : Pmm} {pages p c start : Nat} (h : ScanInv s pages p c start)
    (cl : ¬ s.Clear p) : ScanInv s pages (p + 1) 0 start where
  le := Nat.zero_le _
  short := by have := h.short; omega
  clear := by omega
  start := by omega
  edge := fun _ => cl
  none := by
    intro q le
    by_cases e : q + pages ≤ p
    · exact h.none q e
    · have := h.short
      exact ⟨p, by omega, by omega, cl⟩

/-- The scan hands out the first run of `pages` `Clear` pages, or finds that there is none. -/
lemma scan_cases {s : Pmm} (fits : s.Fits) {pages n p c start : Nat}
    (inv : ScanInv s pages p c start) (e : p + n = s.totalPages) :
    (scan pages n p c start s = .ok (0, s) ∧ ∀ q, ¬ s.FreeRun q pages) ∨
    ∃ q, s.FreeRun q pages ∧ (∀ r, r < q → ¬ s.FreeRun r pages) ∧
      scan pages n p c start s = .ok (q * pageSize, s.allocated q pages) := by
  -- on the pages left; `ScanInv` says what the scan knows of those behind it
  induction n generalizing p c start with
  | zero =>
    left
    refine ⟨rfl, fun q run => ?_⟩
    obtain ⟨r, h1, h2, h3⟩ := inv.none q (by have := run.1; omega)
    exact h3 (run.2 r h1 h2)
  | succ n ih =>
    have ix := index_lt fits (show p < s.totalPages by omega)
    by_cases cl : s.Clear p
    · have t : bitsFrom s.mem s.bitmap p = 0#8 := cl
      by_cases full : c + 1 = pages
      · -- the run is complete, and any lower one would have been found before
        right
        have le := inv.le
        have st : (if c = 0 then p else start) = p - c := by
          by_cases c0 : c = 0
          · simp [c0]
          · simp [c0, inv.start c0]
        refine ⟨p - c, ⟨by omega, fun q h1 h2 => ?_⟩, fun r lt run => ?_, ?_⟩
        · by_cases eq : q = p
          · rw [eq]; exact cl
          · exact inv.clear q h1 (by omega)
        · obtain ⟨x, h1, h2, h3⟩ := inv.none r (by omega)
          exact h3 (run.2 x h1 h2)
        · have hp : p + 1 = p - c + pages := by omega
          simp only [scan, bitmapTest_ok ix, ok_bind, t, if_true, full, st,
            bitmapSet_loop fits (show p + 1 ≤ s.totalPages by omega)]
          simp only [hp]
          rfl
      · have short : c + 1 < pages := by have := inv.short; omega
        simp only [scan, bitmapTest_ok ix, ok_bind, t, if_true, full, if_false]
        exact ih (inv.grow cl short) (by omega)
    · have t : ¬ bitsFrom s.mem s.bitmap p = 0#8 := cl
      simp only [scan, bitmapTest_ok ix, ok_bind, t, if_false]
      exact ih (inv.reset cl) (by omega)

/-- `pmm_alloc_pages` returns `NULL` and changes nothing, or hands out the first run of `n` pages
    whose test is 0. -/
theorem pmmAllocPages_cases {s : Pmm} (fits : s.Fits) (n : Nat) :
    (s.pmmAllocPages n = .ok (0, s) ∧
      (s.bitmap = 0 ∨ n = 0 ∨ ∀ q, ¬ s.FreeRun q n)) ∨
    ∃ q, s.FreeRun q n ∧ (∀ r, r < q → ¬ s.FreeRun r n) ∧ s.bitmap ≠ 0 ∧ 0 < n ∧
      s.pmmAllocPages n = .ok (q * pageSize, s.allocated q n) := by
  by_cases h : s.bitmap = 0 ∨ n = 0
  · left
    rw [pmmAllocPages, if_pos h]
    exact ⟨rfl, h.elim .inl (fun e => .inr (.inl e))⟩
  · have b : s.bitmap ≠ 0 := fun e => h (.inl e)
    have pos : 0 < n := by
      have : n ≠ 0 := fun e => h (.inr e)
      omega
    rw [pmmAllocPages, if_neg h]
    rcases scan_cases fits (ScanInv.first pos) (Nat.zero_add _) with ⟨e, no⟩ | ⟨q, run, first, e⟩
    · exact .inl ⟨e, .inr (.inr no)⟩
    · exact .inr ⟨q, run, first, b, pos, e⟩

lemma allocated_frame (s : Pmm) (start n : Nat) : SameFrame s (s.allocated start n) :=
  ⟨rfl, rfl, rfl, rfl⟩

/-! ## `pmm_free_page` -/

/-- The state after page `p` was given back. -/
def freed (s : Pmm) (p : Nat) : Pmm :=
  { s with
    mem := clearBit s.mem s.bitmap p
    usedPages := u64 (s.usedPages + (2 ^ 64 - 1))
    lastAlloc := if p < s.lastAlloc then p else s.lastAlloc }

@[simp] lemma freed_bit (s : Pmm) (p q : Nat) :
    (s.freed p).bit q = (!decide (q = p) && s.bit q) := bitAt_clearBit ..

lemma freed_frame (s : Pmm) (p : Nat) : SameFrame s (s.freed p) := ⟨rfl, rfl, rfl, rfl⟩

/-- `pmm_free_page` gives the page back exactly when it is below `total_pages` and its test is not
    0; otherwise it changes nothing. -/
theorem pmmFreePage_ok {s : Pmm} (fits : s.Fits) (page : Nat) :
    s.pmmFreePage page =
      .ok (if s.bitmap ≠ 0 ∧ page / pageSize < s.totalPages ∧ ¬ s.Clear (page / pageSize)
        then s.freed (page / pageSize) else s) := by
  by_cases b : s.bitmap = 0
  · simp [pmmFreePage, b]
  · by_cases ge : page / pageSize ≥ s.totalPages
    · simp [pmmFreePage, b, ge, Nat.not_lt.mpr ge]
    · have ix := index_lt fits (show page / pageSize < s.totalPages by omega)
      by_cases c : s.Clear (page / pageSize)
      · have t : bitsFrom s.mem s.bitmap (page / pageSize) = 0#8 := c
        simp only [pmmFreePage, b, ge, if_false, bitmapTest_ok ix, ok_bind, t, if_true, c]
        simp
        rfl
      · have t : ¬ bitsFrom s.mem s.bitmap (page / pageSize) = 0#8 := c
        simp only [pmmFreePage, b, ge, if_false, bitmapTest_ok ix, ok_bind, t, bitmapClear_ok ix, c]
        simp [show page / pageSize < s.totalPages by omega, freed, b]
        rfl

end Pmm

end TRS.Memory
