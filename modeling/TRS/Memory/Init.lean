import TRS.Memory.Spec

/-!
# What `pmm_init` builds

`pmm_init` panics, or it returns a state that `InitSpec` describes: the geometry of the bitmap, the
pages cleared by the loop over the map (`Cleared`), and the reservations made on top of them. No
access of `pmm_init` leaves the bitmap (`pmmInit_not_wild`).

* `clearLoop_ok`: the loop over the map, by the invariant rule of counted loops.
* `pmmInit_panics`, `pmmInit_ok`: it panics on such maps, and returns on all others.
* `convPage_of_bit`, `cleared_of_bit`: what a clear bit says of its page.
-/

namespace TRS.Memory
open TRS.Lib

/-- One of the first `n` descriptors makes the clearing loop clear page `q`. -/
def Cleared (bi : BootInfo) (totalPages n q : Nat) : Prop :=
  ∃ i < n, (bi.desc i).type = conventionalMemory ∧ (bi.desc i).phys / pageSize ≤ q ∧
    q < min (u64 ((bi.desc i).phys / pageSize + (bi.desc i).pages)) totalPages

/-- The sum of the sizes of the ConventionalMemory descriptors among the first `n`. -/
def convSum (bi : BootInfo) : Nat → Nat
  | 0 => 0
  | n + 1 => convSum bi n + if (bi.desc n).type = conventionalMemory then (bi.desc n).pages else 0

/-- The state `pmm_init` has after the clearing loop went over the first `n` descriptors. -/
structure ClearSpec (bi : BootInfo) (s t : Pmm) (n : Nat) : Prop where
  bitmap : t.bitmap = s.bitmap
  bitmapBytes : t.bitmapBytes = s.bitmapBytes
  totalPages : t.totalPages = s.totalPages
  usedPages : t.usedPages = s.usedPages
  lastAlloc : t.lastAlloc = s.lastAlloc
  usablePages : t.usablePages = u64 (convSum bi n)
  bit : ∀ q, q / 8 < s.bitmapBytes → (t.bit q = false ↔ Cleared bi s.totalPages n q)

/-- What `memset(bitmap, 0xFF, ..)` leaves: every bit of the storage is set. -/
lemma fillBitmap_bit (s : Pmm) {q : Nat} (lt : q / 8 < s.bitmapBytes) :
    s.fillBitmap.bit q = true := by
  have h : s.bitmap ≤ s.bitmap + q / 8 ∧ s.bitmap + q / 8 < s.bitmap + s.bitmapBytes := by omega
  have ones : 0xFF#8 = BitVec.allOnes 8 := rfl
  simp only [Pmm.bit, bitAt, Pmm.fillBitmap, if_pos h, ones, BitVec.getLsbD_allOnes]
  exact decide_eq_true (Nat.mod_lt q (by decide))

/-- One entry of the map is cleared in the bitmap, and counted. -/
lemma clearDesc_ok {bi : BootInfo} {s t : Pmm} {n : Nat} (fits : s.Fits)
    (h : ClearSpec bi s t n) :
    ∃ u, Pmm.clearDesc bi n t = .ok u ∧ ClearSpec bi s u (n + 1) := by
  by_cases c : (bi.desc n).type = conventionalMemory
  · have fits' : t.Fits := by
      unfold Pmm.Fits at *; rw [h.totalPages, h.bitmapBytes]; exact fits
    refine ⟨{ t.unmark ((bi.desc n).phys / pageSize)
        (min (u64 ((bi.desc n).phys / pageSize + (bi.desc n).pages)) t.totalPages) with
        usablePages := u64 (t.usablePages + (bi.desc n).pages) }, ?_, ?_⟩
    · simp only [Pmm.clearDesc, c, ne_eq, not_true_eq_false, if_false]
      rw [Pmm.bitmapClear_loop fits' (by omega), ok_bind]
      rfl
    · refine ⟨h.bitmap, h.bitmapBytes, h.totalPages, h.usedPages, h.lastAlloc, ?_, ?_⟩
      · change u64 (t.usablePages + _) = _
        rw [h.usablePages, convSum, if_pos c, u64, u64, u64, Nat.mod_add_mod]
      · intro q lt
        change (Pmm.unmark t _ _).bit q = false ↔ _
        rw [Pmm.unmark_bit, h.totalPages]
        have ih := h.bit q lt
        constructor
        · intro e
          by_cases m : (bi.desc n).phys / pageSize ≤ q ∧
              q < min (u64 ((bi.desc n).phys / pageSize + (bi.desc n).pages)) s.totalPages
          · exact ⟨n, by omega, c, m⟩
          · -- a page outside this descriptor was cleared for an earlier one
            rw [decide_eq_false m] at e
            obtain ⟨i, lt, rest⟩ := ih.mp (by simpa using e)
            exact ⟨i, by omega, rest⟩
        · rintro ⟨i, lt, ci, m⟩
          by_cases e : i = n
          · subst e
            rw [decide_eq_true m]
            rfl
          · rw [ih.mpr ⟨i, by omega, ci, m⟩]
            simp
  · refine ⟨t, ?_, ⟨h.bitmap, h.bitmapBytes, h.totalPages, h.usedPages, h.lastAlloc, ?_, ?_⟩⟩
    · simp only [Pmm.clearDesc, c, ne_eq, not_false_eq_true, if_true]
    · rw [h.usablePages, convSum, if_neg c, Nat.add_zero]
    · intro q lt
      rw [h.bit q lt]
      constructor
      · rintro ⟨i, lt, rest⟩
        exact ⟨i, by omega, rest⟩
      · rintro ⟨i, lt, ci, m⟩
        have ne : i ≠ n := by rintro rfl; exact c ci
        exact ⟨i, by omega, ci, m⟩

/-- All entries are. -/
lemma clearLoop_ok (bi : BootInfo) {s : Pmm} (fits : s.Fits) (zero : s.usablePages = 0) :
    ∃ t, forRangeM 0 bi.count (Pmm.clearDesc bi) s.fillBitmap = .ok t ∧
      ClearSpec bi s t bi.count := by
  apply forRangeM_induct (fun n t => ClearSpec bi s t n) (Nat.zero_le _)
  · refine ⟨rfl, rfl, rfl, rfl, rfl, ?_, ?_⟩
    · change s.usablePages = _
      rw [zero]
      rfl
    · intro q lt
      rw [fillBitmap_bit s lt]
      constructor
      · intro e; cases e
      · rintro ⟨i, lt, _⟩; omega
  · intro i t _ _ ih
    exact clearDesc_ok fits ih

/-! ## The geometry -/

/-- The highest end of an entry is a 64-bit value. -/
lemma maxAddr_lt (bi : BootInfo) : maxAddr bi < 2 ^ 64 := by
  apply forRange_induct (fun _ m => m < 2 ^ 64) (Nat.zero_le _) (by decide)
  intro i m _ _ ih
  unfold maxAddrRound
  dsimp only
  split
  · exact ih
  · split
    · exact u64_lt _
    · exact ih

/-- `total_pages` of a boot. -/
def totalPagesOf (bi : BootInfo) : Nat := maxAddr bi / pageSize

/-- `bitmap_bytes` of a boot. -/
def bitmapBytesOf (bi : BootInfo) : Nat := bytesFor (totalPagesOf bi)

/-- `bitmap` of a boot. -/
def bitmapOf (bi : BootInfo) : Nat := alignUp (bestRegion bi).1 pageSize

/-- So there are fewer than 2^52 pages. -/
lemma totalPagesOf_lt (bi : BootInfo) : totalPagesOf bi < 2 ^ 52 := by
  have := maxAddr_lt bi
  simp only [totalPagesOf, pageSize]
  omega

/-- The bitmap has a bit for every page, and is a whole number of pages. -/
lemma bytesFor_spec {n : Nat} (lt : n < 2 ^ 52) :
    bytesFor n = (n / 8 + 1 + (pageSize - 1)) / pageSize * pageSize := by
  have h : n / 8 + 1 < 2 ^ 64 := by omega
  rw [bytesFor, u64_of_lt h, alignUp_page (by simp only [pageSize]; omega)]

/-- The bitmap has a bit for each of them. -/
lemma bitmap_fits (bi : BootInfo) : totalPagesOf bi ≤ 8 * bitmapBytesOf bi := by
  have := bytesFor_spec (totalPagesOf_lt bi)
  rw [bitmapBytesOf, this]
  simp only [pageSize]
  omega

/-! ## The result -/

/-- The state `pmm_init` returns; `cleared` is the state before the reservations. -/
structure InitSpec (bi : BootInfo) (k : KernelImage) (cleared s : Pmm) : Prop where
  bitmap : cleared.bitmap = bitmapOf bi
  bitmapBytes : cleared.bitmapBytes = bitmapBytesOf bi
  totalPages : cleared.totalPages = totalPagesOf bi
  usedPages : cleared.usedPages = 0
  usablePages : cleared.usablePages = u64 (convSum bi bi.count)
  bit : ∀ q, q / 8 < bitmapBytesOf bi →
    (cleared.bit q = false ↔ Cleared bi (totalPagesOf bi) bi.count q)
  reserves : Pmm.Reserves cleared s
  covered : ∀ r ∈ reservations bi k (bitmapOf bi) (bitmapBytesOf bi), ∀ p,
    Pmm.firstPage r.1 ≤ p → p < Pmm.lastPage r.1 r.2 → p < totalPagesOf bi → ¬ s.Clear p

/-- The checks of `pmm_init` that end in `kpanic`. -/
def Panics (bi : BootInfo) : Prop :=
  bi.mmapDsize = 0 ∨ bi.mmapSize = 0 ∨ maxAddr bi = 0 ∨
    u64 (bitmapOf bi + bitmapBytesOf bi) >
      u64 ((bestRegion bi).1 + u64 ((bestRegion bi).2 * pageSize))

instance (bi : BootInfo) : Decidable (Panics bi) := by unfold Panics; infer_instance

/-- `pmm_init` panics exactly on its checks. -/
theorem pmmInit_panics {bi : BootInfo} (k : KernelImage) (mem : Mem) (h : Panics bi) :
    ∃ msg, pmmInit bi k mem = .error (.panic msg) := by
  unfold pmmInit
  split
  · exact ⟨_, rfl⟩
  · split
    · exact ⟨_, rfl⟩
    · rename_i h1 h2
      have big : u64 (bitmapOf bi + bitmapBytesOf bi) >
          u64 ((bestRegion bi).1 + u64 ((bestRegion bi).2 * pageSize)) := by
        rcases h with h | h | h | h
        · exact absurd (.inl h) h1
        · exact absurd (.inr h) h1
        · exact absurd h h2
        · exact h
      exact ⟨_, if_pos big⟩

/-- A boot that passes the checks gets the state of `InitSpec`, from the reservations. -/
lemma pmmInit_built {bi : BootInfo} (k : KernelImage) (mem : Mem) (h : ¬ Panics bi) :
    ∃ cleared s, pmmInit bi k mem = .ok s ∧ InitSpec bi k cleared s ∧
      reservAll (reservations bi k (bitmapOf bi) (bitmapBytesOf bi)) cleared = .ok s := by
  have h1 : ¬ (bi.mmapDsize = 0 ∨ bi.mmapSize = 0) := by
    rintro (e | e)
    · exact h (.inl e)
    · exact h (.inr (.inl e))
  have h2 : ¬ maxAddr bi = 0 := fun e => h (.inr (.inr (.inl e)))
  have h3 : ¬ u64 (bitmapOf bi + bitmapBytesOf bi) >
      u64 ((bestRegion bi).1 + u64 ((bestRegion bi).2 * pageSize)) :=
    fun e => h (.inr (.inr (.inr e)))
  obtain ⟨t, e, cl⟩ := clearLoop_ok bi
    (s := ⟨mem, bitmapOf bi, bitmapBytesOf bi, totalPagesOf bi, 0, 0, 0⟩) (bitmap_fits bi) rfl
  have fits : t.Fits := by
    unfold Pmm.Fits
    rw [cl.totalPages, cl.bitmapBytes]
    exact bitmap_fits bi
  obtain ⟨s, e', res, cov⟩ := Pmm.reservAll_ok fits
    (reservations bi k (bitmapOf bi) (bitmapBytesOf bi))
  refine ⟨t, s, ?_, ?_, e'⟩
  · unfold pmmInit
    rw [if_neg h1, if_neg h2]
    change (if u64 (bitmapOf bi + bitmapBytesOf bi) >
      u64 ((bestRegion bi).1 + u64 ((bestRegion bi).2 * pageSize)) then _ else _) = _
    rw [if_neg h3]
    change (forRangeM 0 bi.count (Pmm.clearDesc bi)
      (Pmm.fillBitmap ⟨mem, bitmapOf bi, bitmapBytesOf bi, totalPagesOf bi, 0, 0, 0⟩) >>= _) = _
    rw [e, ok_bind]
    exact e'
  · refine ⟨cl.bitmap, cl.bitmapBytes, cl.totalPages, cl.usedPages, cl.usablePages, cl.bit, res, ?_⟩
    intro r mem p h1 h2 h3
    exact cov r mem p h1 h2 (by rw [cl.totalPages]; exact h3)

/-- A boot that passes the checks gets the state of `InitSpec`. -/
theorem pmmInit_ok {bi : BootInfo} (k : KernelImage) (mem : Mem) (h : ¬ Panics bi) :
    ∃ cleared s, pmmInit bi k mem = .ok s ∧ InitSpec bi k cleared s := by
  obtain ⟨cleared, s, e, spec, _⟩ := pmmInit_built k mem h
  exact ⟨cleared, s, e, spec⟩

/-- `pmm_init` returns exactly when no check fails; then the state is that of `InitSpec`. -/
theorem pmmInit_inv {bi : BootInfo} {k : KernelImage} {mem : Mem} {s : Pmm}
    (h : pmmInit bi k mem = .ok s) : ¬ Panics bi ∧ ∃ cleared, InitSpec bi k cleared s := by
  have np : ¬ Panics bi := by
    intro p
    obtain ⟨msg, e⟩ := pmmInit_panics k mem p
    rw [e] at h
    cases h
  obtain ⟨cleared, t, e, spec⟩ := pmmInit_ok k mem np
  rw [e] at h
  cases h
  exact ⟨np, cleared, spec⟩

/-- A `pmm_init` that returns has cleared the map and then made its reservations. -/
lemma pmmInit_reservations {bi : BootInfo} {k : KernelImage} {mem : Mem} {s : Pmm}
    (h : pmmInit bi k mem = .ok s) : ∃ cleared, InitSpec bi k cleared s ∧
      reservAll (reservations bi k (bitmapOf bi) (bitmapBytesOf bi)) cleared = .ok s := by
  obtain ⟨cleared, t, e, spec, built⟩ := pmmInit_built k mem (pmmInit_inv h).1
  rw [e] at h
  cases h
  exact ⟨cleared, spec, built⟩

/-- `pmm_init` never leaves the storage of the bitmap. -/
theorem pmmInit_not_wild (bi : BootInfo) (k : KernelImage) (mem : Mem) (i : Nat) :
    pmmInit bi k mem ≠ .error (.wild i) := by
  by_cases p : Panics bi
  · obtain ⟨msg, e⟩ := pmmInit_panics k mem p
    rw [e]
    intro h
    cases h
  · obtain ⟨_, s, e, _⟩ := pmmInit_ok k mem p
    rw [e]
    intro h
    cases h

/-! ## Cleared pages and ConventionalMemory -/

/-- A cleared page lies inside ConventionalMemory. -/
lemma Cleared.convPage {bi : BootInfo} (al : bi.Aligned) {n q : Nat}
    (h : Cleared bi n bi.count q) : bi.ConvPage q := by
  obtain ⟨i, lt, c, h1, h2⟩ := h
  have ha := al i lt
  have hu := u64_le ((bi.desc i).phys / pageSize + (bi.desc i).pages)
  refine ⟨i, lt, c, ?_, ?_⟩
  · simp only [pageSize] at *
    omega
  · simp only [MemDesc.last, pageSize] at *
    omega

/-- A page of ConventionalMemory below `total_pages` is cleared. -/
lemma cleared_of_convPage {bi : BootInfo} (sp : bi.InSpace) {n q : Nat}
    (lt : q < n) (h : bi.ConvPage q) : Cleared bi n bi.count q := by
  obtain ⟨i, li, c, h1, h2⟩ := h
  have hs := sp i li
  have hu : u64 ((bi.desc i).phys / pageSize + (bi.desc i).pages) =
      (bi.desc i).phys / pageSize + (bi.desc i).pages := by
    apply u64_of_lt
    simp only [MemDesc.last, pageSize] at hs ⊢
    omega
  refine ⟨i, li, c, ?_, ?_⟩
  · simp only [pageSize] at *
    omega
  · rw [hu]
    simp only [MemDesc.last, pageSize] at *
    omega

namespace InitSpec
variable {bi : BootInfo} {k : KernelImage} {cleared s : Pmm}

/-- The reservations leave the bitmap where it is. -/
lemma frame (h : InitSpec bi k cleared s) : Pmm.SameFrame cleared s := h.reserves.frame

/-- They leave the number of pages. -/
lemma total (h : InitSpec bi k cleared s) : s.totalPages = totalPagesOf bi :=
  h.frame.totalPages.trans h.totalPages

/-- The bitmap has a bit for each page. -/
lemma fits (h : InitSpec bi k cleared s) : s.Fits := by
  unfold Pmm.Fits
  rw [h.total, h.frame.bitmapBytes, h.bitmapBytes]
  exact bitmap_fits bi

/-- A page whose bit is clear after `pmm_init` was cleared by the loop over the map. -/
lemma cleared_of_bit (h : InitSpec bi k cleared s) {q : Nat} (lt : q < s.totalPages)
    (b : s.bit q = false) : Cleared bi (totalPagesOf bi) bi.count q := by
  have ix : q / 8 < bitmapBytesOf bi := by
    have := Pmm.index_lt h.fits lt
    rwa [h.frame.bitmapBytes, h.bitmapBytes] at this
  rw [← h.bit q ix]
  cases nb : cleared.bit q with
  | false => rfl
  | true =>
    have := h.reserves.mono nb
    rw [b] at this
    cases this

/-- A page whose bit is clear after `pmm_init` lies inside ConventionalMemory. -/
lemma convPage_of_bit (h : InitSpec bi k cleared s) (al : bi.Aligned) {q : Nat}
    (lt : q < s.totalPages) (b : s.bit q = false) : bi.ConvPage q :=
  (h.cleared_of_bit lt b).convPage al

end InitSpec

end TRS.Memory
