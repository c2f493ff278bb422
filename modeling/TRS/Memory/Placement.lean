import Mathlib.Tactic.ByContra
import Mathlib.Tactic.Push
import TRS.Memory.Ownership

/-!
# Where the bitmap is placed

`pmm_init` puts the bitmap at the start of the first of the largest ConventionalMemory regions and
makes its reservations afterwards. The storage is memory that nobody else owns (`Placed`) exactly if
that region starts clear of the low megabyte and of the program window.

* `bestRegion_spec`: the search keeps the first of the largest regions (`BestSoFar`).
* `maxAddr_spec`: the highest end of a region gives the size of the bitmap.
* `Placed.clear`, `Placed.of_clear`: the two directions.

The headline `bitmap_placed_iff` is over all maps; `bitmap_in_program_window` is one that puts the
bitmap where programs are loaded.
-/

namespace TRS.Memory
open TRS.Lib

/-- Descriptor `i` is the first of the largest ConventionalMemory regions. -/
structure FirstLargest (bi : BootInfo) (i : Nat) : Prop where
  conv : bi.IsConv i
  le : ∀ j, bi.IsConv j → (bi.desc j).pages ≤ (bi.desc i).pages
  lt : ∀ j, bi.IsConv j → j < i → (bi.desc j).pages < (bi.desc i).pages

/-- `top` is the end of the highest ConventionalMemory region. -/
structure HighestEnd (bi : BootInfo) (top : Nat) : Prop where
  attained : ∃ i, bi.IsConv i ∧ (bi.desc i).last = top
  le : ∀ i, bi.IsConv i → (bi.desc i).last ≤ top

/-- `(best, best_pages)` after the first `n` descriptors: the first of the largest regions among
    them, or `(0, 0)` if they hold no page of ConventionalMemory. -/
def BestSoFar (bi : BootInfo) (n : Nat) (best : Nat × Nat) : Prop :=
  (best = (0, 0) ∧ ∀ j < n, bi.IsConv j → (bi.desc j).pages = 0) ∨
  ∃ i < n, bi.IsConv i ∧ 0 < (bi.desc i).pages ∧ best = ((bi.desc i).phys, (bi.desc i).pages) ∧
    (∀ j < n, bi.IsConv j → (bi.desc j).pages ≤ (bi.desc i).pages) ∧
    ∀ j < i, bi.IsConv j → (bi.desc j).pages < (bi.desc i).pages

/-- A round of the search keeps the first of the largest regions. -/
lemma BestSoFar.round {bi : BootInfo} {n : Nat} {best : Nat × Nat} (lt : n < bi.count)
    (h : BestSoFar bi n best) : BestSoFar bi (n + 1) (bestRound bi n best) := by
  have split : ∀ j, j < n + 1 → j < n ∨ j = n := by omega
  by_cases c : bi.IsConv n
  · have ty : ¬ (bi.desc n).type ≠ conventionalMemory := not_not_intro c.2
    by_cases more : (bi.desc n).pages > best.2
    · rw [bestRound, if_neg ty, if_pos more]
      rcases h with ⟨rfl, none⟩ | ⟨i, li, _, _, rfl, le, _⟩
      · refine .inr ⟨n, by omega, c, by simpa using more, rfl, fun j lj cj => ?_, fun j lj cj => ?_⟩
        · rcases split j lj with lj | rfl
          · rw [none j lj cj]
            exact Nat.zero_le _
          · exact Nat.le_refl _
        · rw [none j lj cj]
          simpa using more
      · -- the new region beats the best one, and so all those before it
        have more' : (bi.desc i).pages < (bi.desc n).pages := more
        refine .inr ⟨n, by omega, c, by omega, rfl, fun j lj cj => ?_, fun j lj cj => ?_⟩
        · rcases split j lj with lj | rfl
          · have := le j lj cj
            omega
          · exact Nat.le_refl _
        · have := le j lj cj
          omega
    · -- an equally large region comes too late
      rw [bestRound, if_neg ty, if_neg more]
      rcases h with ⟨rfl, none⟩ | ⟨i, li, ci, pos, rfl, le, first⟩
      · refine .inl ⟨rfl, fun j lj cj => ?_⟩
        rcases split j lj with lj | rfl
        · exact none j lj cj
        · simpa using more
      · refine .inr ⟨i, by omega, ci, pos, rfl, fun j lj cj => ?_, first⟩
        rcases split j lj with lj | rfl
        · exact le j lj cj
        · exact Nat.not_lt.mp more
  · have ty : (bi.desc n).type ≠ conventionalMemory := fun e => c ⟨lt, e⟩
    rw [bestRound, if_pos ty]
    rcases h with ⟨e, none⟩ | ⟨i, li, ci, pos, e, le, first⟩
    · refine .inl ⟨e, fun j lj cj => ?_⟩
      rcases split j lj with lj | rfl
      · exact none j lj cj
      · exact absurd cj c
    · refine .inr ⟨i, by omega, ci, pos, e, fun j lj cj => ?_, first⟩
      rcases split j lj with lj | rfl
      · exact le j lj cj
      · exact absurd cj c

/-- The loop over the map finds the first of the largest regions. -/
lemma bestRegion_spec (bi : BootInfo) : BestSoFar bi bi.count (bestRegion bi) :=
  forRange_induct (fun n best => BestSoFar bi n best) (Nat.zero_le _)
    (.inl ⟨rfl, fun j lt => by omega⟩) (fun _ _ _ lt ih => ih.round lt)

/-- A boot that does not panic has its bitmap at the start of the first largest region. -/
lemma bestRegion_eq {bi : BootInfo} (np : ¬ Panics bi) :
    ∃ i, FirstLargest bi i ∧ bestRegion bi = ((bi.desc i).phys, (bi.desc i).pages) := by
  rcases bestRegion_spec bi with ⟨e, _⟩ | ⟨i, _, ci, _, e, le, first⟩
  · exfalso
    apply np
    refine .inr (.inr (.inr ?_))
    have b : bitmapOf bi = 0 := by rw [bitmapOf, e]; decide
    have lt := totalPagesOf_lt bi
    have eb := bytesFor_spec lt
    rw [b, e]
    change u64 (0 + bytesFor (totalPagesOf bi)) > u64 (0 + u64 (0 * pageSize))
    rw [eb, Nat.zero_add, u64_of_lt (by simp only [pageSize]; omega)]
    have z : u64 (0 + u64 (0 * pageSize)) = 0 := by decide
    rw [z]
    simp only [pageSize]
    omega
  · exact ⟨i, ⟨ci, fun j cj => le j cj.1 cj, fun j cj lj => first j lj cj⟩, e⟩

/-- The loop over the map finds the highest end. -/
lemma maxAddr_spec {bi : BootInfo} (sp : bi.InSpace) (pos : maxAddr bi ≠ 0) :
    HighestEnd bi (maxAddr bi) := by
  have ends : ∀ i < bi.count,
      u64 ((bi.desc i).phys + u64 ((bi.desc i).pages * pageSize)) = (bi.desc i).last := by
    intro i lt
    have := sp i lt
    unfold MemDesc.last at *
    rw [u64_of_lt (n := (bi.desc i).pages * pageSize) (by omega), u64_of_lt this]
  -- the maximum so far is attained, or still 0, and no end behind it is higher
  have inv : (maxAddr bi = 0 ∨ ∃ i, bi.IsConv i ∧ (bi.desc i).last = maxAddr bi) ∧
      ∀ j < bi.count, bi.IsConv j → (bi.desc j).last ≤ maxAddr bi := by
    apply forRange_induct (fun n m => (m = 0 ∨ ∃ i, bi.IsConv i ∧ (bi.desc i).last = m) ∧
      ∀ j < n, bi.IsConv j → (bi.desc j).last ≤ m) (Nat.zero_le _)
    · exact ⟨.inl rfl, fun j lt => by omega⟩
    · rintro i m _ lt ⟨attained, above⟩
      by_cases c : bi.IsConv i
      · have ty : ¬ (bi.desc i).type ≠ conventionalMemory := not_not_intro c.2
        rw [maxAddrRound, if_neg ty, ends i lt]
        by_cases gt : (bi.desc i).last > m
        · simp only [gt, if_true]
          refine ⟨.inr ⟨i, c, rfl⟩, fun j lj cj => ?_⟩
          by_cases e : j = i
          · exact Nat.le_of_eq (by rw [e])
          · have := above j (by omega) cj
            omega
        · simp only [gt, if_false]
          refine ⟨attained, fun j lj cj => ?_⟩
          by_cases e : j = i
          · rw [e]
            exact Nat.not_lt.mp gt
          · exact above j (by omega) cj
      · have ty : (bi.desc i).type ≠ conventionalMemory := fun e => c ⟨lt, e⟩
        rw [maxAddrRound, if_pos ty]
        refine ⟨attained, fun j lj cj => ?_⟩
        have ne : j ≠ i := by rintro rfl; exact c cj
        exact above j (by omega) cj
  rcases inv.1 with z | attained
  · exact absurd z pos
  · exact ⟨attained, fun i c => inv.2 i c.1 c⟩

/-! ## The storage of the bitmap -/

/-- The ranges `pmm_init` reserves besides the bitmap, the fourth of its reservations: the low
    megabyte, the program window, the kernel, the framebuffer, the stack and the memory map. -/
def otherRanges (bi : BootInfo) (k : KernelImage) : List (Nat × Nat) :=
  (reservations bi k 0 0).eraseIdx 3

/-- Address `a` lies in the range `(start, size)`. -/
def InRange (r : Nat × Nat) (a : Nat) : Prop := r.1 ≤ a ∧ a < r.1 + r.2

/-- A range keeps off ConventionalMemory. -/
def BootInfo.OffConv (bi : BootInfo) (r : Nat × Nat) : Prop :=
  ∀ i, bi.IsConv i → ∀ a, InRange r a → ¬ (bi.desc i).Has a

/-- The kernel image, the framebuffer, the stack and the memory map lie outside ConventionalMemory,
    as the boot loader allocates them. -/
structure LoaderOwned (bi : BootInfo) (k : KernelImage) : Prop where
  kernel : bi.OffConv (k.kernelStart, u64 (k.kernelEnd + 2 ^ 64 - k.kernelStart))
  framebuf : bi.OffConv (bi.fb.base, bi.fb.size)
  stack : bi.OffConv (u64 (bi.stackTop + 2 ^ 64 - 128 * 1024), 128 * 1024)
  mmap : bi.OffConv (bi.mmapAddr, bi.mmapSize)

/-- The bitmap lies inside one ConventionalMemory region, has a bit for every page, and shares no
    address with another reserved range. -/
structure Placed (bi : BootInfo) (k : KernelImage) (s : Pmm) : Prop where
  region : ∃ i, bi.IsConv i ∧ (bi.desc i).phys ≤ s.bitmap ∧
    s.bitmap + s.bitmapBytes ≤ (bi.desc i).last
  bits : s.totalPages ≤ 8 * s.bitmapBytes
  apart : ∀ r ∈ otherRanges bi k, ∀ a, InRange r a → ¬ InRange (s.bitmap, s.bitmapBytes) a

/-- Storage of `bytes` bytes at `start` neither passes 2^64 nor meets the low megabyte or the
    program window. -/
def ClearOfWindows (start bytes : Nat) : Prop :=
  start + bytes < 2 ^ 64 ∧ 0x100000 ≤ start ∧ (0x500000 ≤ start ∨ start + bytes ≤ 0x400000)

section Built
variable {bi : BootInfo} {k : KernelImage} {cleared s : Pmm} (spec : InitSpec bi k cleared s)
include spec

/-- The bitmap is put at the start of the first of the largest regions. -/
lemma InitSpec.bitmap_eq (al : bi.Aligned) (sp : bi.InSpace) {i : Nat} (first : FirstLargest bi i)
    (best : bestRegion bi = ((bi.desc i).phys, (bi.desc i).pages)) :
    s.bitmap = (bi.desc i).phys := by
  have si := sp i first.conv.1
  rw [spec.frame.bitmap, spec.bitmap, bitmapOf, best]
  exact alignUp_of_aligned (al i first.conv.1) (by unfold MemDesc.last at si; omega)

/-- The bitmap has a bit for each page below the highest end. -/
lemma InitSpec.bitmapBytes_eq : s.bitmapBytes = bytesFor (maxAddr bi / pageSize) := by
  rw [spec.frame.bitmapBytes, spec.bitmapBytes, bitmapBytesOf, totalPagesOf]

/-- It has a byte. -/
lemma InitSpec.bitmapBytes_pos : 0 < s.bitmapBytes := by
  rw [spec.bitmapBytes_eq, ← totalPagesOf, bytesFor_spec (totalPagesOf_lt bi)]
  simp only [pageSize]
  omega

/-- The bitmap fits into its region by the check of `pmm_init`, whose sum may wrap around. -/
lemma InitSpec.bitmap_inside (np : ¬ Panics bi) (sp : bi.InSpace) {i : Nat}
    (first : FirstLargest bi i)
    (best : bestRegion bi = ((bi.desc i).phys, (bi.desc i).pages)) :
    u64 (s.bitmap + s.bitmapBytes) ≤ (bi.desc i).last := by
  have checked : ¬ u64 (bitmapOf bi + bitmapBytesOf bi) >
      u64 ((bestRegion bi).1 + u64 ((bestRegion bi).2 * pageSize)) :=
    fun h => np (.inr (.inr (.inr h)))
  have si := sp i first.conv.1
  rw [← spec.bitmap, ← spec.frame.bitmap, ← spec.bitmapBytes, ← spec.frame.bitmapBytes, best]
    at checked
  unfold MemDesc.last at *
  rw [u64_of_lt (n := (bi.desc i).pages * pageSize) (by omega), u64_of_lt si] at checked
  omega

/-- A bitmap in memory that nobody else owns is clear of the windows. -/
lemma Placed.clear (sp : bi.InSpace) (h : Placed bi k s) :
    ClearOfWindows s.bitmap s.bitmapBytes := by
  obtain ⟨⟨j, cj, _, le⟩, _, apart⟩ := h
  have sj := sp j cj.1
  have pos := spec.bitmapBytes_pos
  have low := apart (0, 0x100000) (by simp [otherRanges, reservations])
  have win := apart (0x400000, 0x100000) (by simp [otherRanges, reservations])
  simp only [InRange] at low win
  refine ⟨by omega, ?_, ?_⟩
  · by_contra lt
    exact low s.bitmap (by omega) (by omega)
  · by_contra no
    push Not at no
    exact win (max s.bitmap 0x400000) (by omega) (by omega)

/-- A bitmap clear of the windows is in memory that nobody else owns: what the boot loader allocated
    is outside the region that it lies in. -/
lemma Placed.of_clear (own : LoaderOwned bi k) {i : Nat} (c : bi.IsConv i)
    (start : s.bitmap = (bi.desc i).phys)
    (fit : u64 (s.bitmap + s.bitmapBytes) ≤ (bi.desc i).last)
    (clear : ClearOfWindows s.bitmap s.bitmapBytes) : Placed bi k s := by
  obtain ⟨lt, low, win⟩ := clear
  rw [u64_of_lt lt] at fit
  refine ⟨⟨i, c, Nat.le_of_eq start.symm, fit⟩, spec.fits, fun r mem a h ha => ?_⟩
  have hc : (bi.desc i).Has a := by
    simp only [InRange, MemDesc.Has] at *
    omega
  simp only [otherRanges, reservations, List.eraseIdx, List.mem_cons, List.not_mem_nil,
    or_false] at mem
  rcases mem with rfl | rfl | rfl | rfl | rfl | rfl | rfl
  · simp only [InRange] at h ha
    omega
  · simp only [InRange] at h ha
    omega
  · exact own.kernel i c a h hc
  · exact own.framebuf i c a h hc
  · exact own.stack i c a h hc
  · exact own.mmap i c a h hc
  · simp only [InRange] at h ha
    omega

end Built

/-- The bitmap of a boot is placed in memory that nobody else owns exactly if the first of the
    largest ConventionalMemory regions starts with enough room clear of the low megabyte and of the
    program window. -/
theorem bitmap_placed_iff (bi : BootInfo) (k : KernelImage) (mem : Mem) (s : Pmm)
    (al : bi.Aligned) (sp : bi.InSpace) (own : LoaderOwned bi k)
    (init : pmmInit bi k mem = .ok s) : ∃ i top, FirstLargest bi i ∧ HighestEnd bi top ∧
      (Placed bi k s ↔ ClearOfWindows (bi.desc i).phys (bytesFor (top / pageSize))) := by
  obtain ⟨np, cleared, spec⟩ := pmmInit_inv init
  obtain ⟨i, first, best⟩ := bestRegion_eq np
  have high := maxAddr_spec sp (fun z => np (.inr (.inr (.inl z))))
  refine ⟨i, maxAddr bi, first, high, ?_⟩
  have start := spec.bitmap_eq al sp first best
  rw [← start, ← spec.bitmapBytes_eq]
  constructor
  · exact Placed.clear spec sp
  · exact .of_clear spec own first.conv start (spec.bitmap_inside np sp first best)

/-- A boot with one ConventionalMemory region of four megabytes, starting at `phys`. -/
def oneRegion (phys : Nat) : BootInfo where
  fb := ⟨0xC0000000, 0x300000, 1024, 768, 4096, 0xFF0000, 0xFF00, 0xFF⟩
  mmapAddr := 0x50000
  mmapSize := 40
  mmapDsize := 40
  stackTop := 0x80000
  desc := fun _ => ⟨conventionalMemory, phys, 1024⟩

/-- A region from 4 MiB on keeps off everything the boot loader allocates in `oneRegion`. -/
lemma oneRegion_owned {phys : Nat} (low : 0x400000 ≤ phys) (high : phys + 0x400000 ≤ 0xC0000000) :
    LoaderOwned (oneRegion phys) smallKernel := by
  refine ⟨?_, ?_, ?_, ?_⟩
  all_goals
    intro i _ a h c
    simp only [InRange, MemDesc.Has, MemDesc.last, oneRegion, smallKernel, pageSize, u64] at h c
    omega

/-- A region above the windows. -/
theorem bitmap_placed_iff_clear : ∃ s,
    pmmInit (oneRegion 0x800000) smallKernel (fun _ => 0#8) = .ok s ∧
    ∃ i top, FirstLargest (oneRegion 0x800000) i ∧ HighestEnd (oneRegion 0x800000) top ∧
      (Placed (oneRegion 0x800000) smallKernel s ↔
        ClearOfWindows ((oneRegion 0x800000).desc i).phys (bytesFor (top / pageSize))) := by
  obtain ⟨_, s, e, _⟩ := pmmInit_ok smallKernel (fun _ => 0#8)
    (show ¬ Panics (oneRegion 0x800000) by decide)
  exact ⟨s, e, bitmap_placed_iff (oneRegion 0x800000) smallKernel (fun _ => 0#8) s
    (by unfold BootInfo.Aligned; decide) (by unfold BootInfo.InSpace; decide)
    (oneRegion_owned (by decide) (by decide)) e⟩

/-- With its only region at 4 MiB, a boot puts the bitmap where applications are loaded. -/
theorem bitmap_in_program_window :
    (oneRegion 0x400000).Aligned ∧ (oneRegion 0x400000).Disjoint ∧
    LoaderOwned (oneRegion 0x400000) smallKernel ∧
    ∃ s, pmmInit (oneRegion 0x400000) smallKernel (fun _ => 0#8) = .ok s ∧
      ¬ Placed (oneRegion 0x400000) smallKernel s := by
  obtain ⟨_, s, e, spec⟩ :=
    pmmInit_ok smallKernel (fun _ => 0#8) (show ¬ Panics (oneRegion 0x400000) by decide)
  refine ⟨by unfold BootInfo.Aligned; decide, ?_, oneRegion_owned (by decide) (by decide), s, e, ?_⟩
  · intro i hi j hj ne
    have : (oneRegion 0x400000).count = 1 := rfl
    omega
  · intro placed
    have hb : s.bitmap = 0x400000 := by rw [spec.frame.bitmap, spec.bitmap]; decide
    have hB : s.bitmapBytes = 0x1000 := by rw [spec.frame.bitmapBytes, spec.bitmapBytes]; decide
    refine placed.apart (0x400000, 0x100000) (by simp [otherRanges, reservations]) 0x400000 ?_ ?_
    · exact ⟨Nat.le_refl _, by decide⟩
    · rw [hb, hB]
      exact ⟨Nat.le_refl _, by decide⟩

end TRS.Memory
