import TRS.Memory.Accounting

/-!
# The reservation map

Which bits `pmm_init` leaves set. A page of ConventionalMemory that a reserved range covers gets its
bit only if the unmasked test of `reserv_range` lets it through (`Marked`): every higher page of its
byte must have been cleared by the loop over the map, and none of them may have been visited before
it.

* `reservRange_bit`, `reservAll_bit`: the bits after the reservations, by induction on the ranges.
* `InitSpec.clear_cleared`: which pages are clear before them.
* `InitSpec.bit_iff`: the bits after `pmm_init`, in terms of the map.

The headline `pmm_init_map_iff` compares them with the pages that should be reserved;
`bitmap_page_unmarked` is a page of the bitmap itself that is handed out.
-/

namespace TRS.Memory
open TRS.Lib

/-- The loop of `reserv_range` for the range `r` visits page `p`. -/
def Visits (totalPages : Nat) (r : Nat × Nat) (p : Nat) : Prop :=
  Pmm.firstPage r.1 ≤ p ∧ p < min (Pmm.lastPage r.1 r.2) totalPages

instance (n : Nat) (r : Nat × Nat) (p : Nat) : Decidable (Visits n r p) := by
  unfold Visits; infer_instance

/-- The first of the ranges that visits `p` or a higher page of its byte visits `p`. -/
def Reaches (totalPages : Nat) : List (Nat × Nat) → Nat → Prop
  | [], _ => False
  | r :: rs, p => Visits totalPages r p ∨
      (∀ q, p ≤ q → q / 8 = p / 8 → ¬ Visits totalPages r q) ∧ Reaches totalPages rs p

namespace Pmm

/-- Pages from `p` on to the end of its byte: one test covers the next. -/
lemma Clear.higher {s : Pmm} {p q : Nat} (h : s.Clear p) (le : p ≤ q) (byte : q / 8 = p / 8) :
    s.Clear q :=
  (s.clear_iff q).mpr fun r le' byte' =>
    (s.clear_iff p).mp h r (Nat.le_trans le le') (byte'.trans byte)

/-- Two states with the same bits from `p` on pass the same test. -/
lemma clear_congr {s t : Pmm} {p : Nat} (same : ∀ q, p ≤ q → (t.bit q = true ↔ s.bit q = true)) :
    t.Clear p ↔ s.Clear p := by
  rw [clear_iff, clear_iff]
  refine forall_congr' fun q => forall_congr' fun le => forall_congr' fun _ => ?_
  have := same q le
  rw [← Bool.not_eq_true, ← Bool.not_eq_true, this]

/-- The bits after `reserv_range`: those of the visited pages that pass the test are new. -/
lemma reservRange_bit {s t : Pmm} (fits : s.Fits) {r : Nat × Nat}
    (e : s.reservRange r.1 r.2 = .ok t) :
    SameFrame s t ∧
      ∀ p, t.bit p = true ↔ s.bit p = true ∨ (Visits s.totalPages r p ∧ s.Clear p) := by
  by_cases le : firstPage r.1 ≤ min (lastPage r.1 r.2) s.totalPages
  · obtain ⟨t', e', same, bits⟩ : ∃ t', s.reservRange r.1 r.2 = .ok t' ∧ SameFrame s t' ∧
        ∀ p, t'.bit p = true ↔ s.bit p = true ∨
          ((firstPage r.1 ≤ p ∧ p < min (lastPage r.1 r.2) s.totalPages) ∧ s.Clear p) := by
      refine forRangeM_induct (fun i u => SameFrame s u ∧ ∀ p, u.bit p = true ↔
        s.bit p = true ∨ ((firstPage r.1 ≤ p ∧ p < i) ∧ s.Clear p)) le ?_ ?_
      · refine ⟨⟨rfl, rfl, rfl, rfl⟩, fun p => ?_⟩
        have none : ¬ (firstPage r.1 ≤ p ∧ p < firstPage r.1) := by omega
        exact ⟨.inl, fun h => h.resolve_right fun v => none v.1⟩
      · intro i u h1 h2 ⟨frame, bits⟩
        have lt : i < u.totalPages := by rw [frame.totalPages]; omega
        refine ⟨_, reservPage_ok (frame.fits fits) lt, ?_⟩
        -- the loop goes upwards, so that nothing from page `i` on has changed yet
        have test : u.Clear i ↔ s.Clear i := clear_congr fun q le => by
          rw [bits q]
          have none : ¬ (firstPage r.1 ≤ q ∧ q < i) := by omega
          simp [none]
        by_cases c : s.Clear i
        · rw [if_pos (test.mpr c)]
          refine ⟨⟨frame.bitmap, frame.bitmapBytes, frame.totalPages, frame.usablePages⟩,
            fun p => ?_⟩
          rw [reserve_bit, Bool.or_eq_true, decide_eq_true_iff, bits p]
          by_cases here : p = i
          · subst here
            have new : firstPage r.1 ≤ p ∧ p < p + 1 := ⟨h1, Nat.lt_succ_self p⟩
            simp [c, new]
          · have step : (firstPage r.1 ≤ p ∧ p < i + 1) ↔ firstPage r.1 ≤ p ∧ p < i := by omega
            rw [step]
            simp [here]
        · rw [if_neg fun h => c (test.mp h)]
          refine ⟨frame, fun p => ?_⟩
          rw [bits p]
          by_cases here : p = i
          · subst here
            simp [c]
          · have step : (firstPage r.1 ≤ p ∧ p < i + 1) ↔ firstPage r.1 ≤ p ∧ p < i := by omega
            rw [step]
    rw [e] at e'
    cases e'
    exact ⟨same, bits⟩
  · have none : ∀ p, ¬ Visits s.totalPages r p := by
      intro p v
      unfold Visits at v
      omega
    have same : s.reservRange r.1 r.2 = .ok s :=
      forRangeM_of_le (by unfold firstPage lastPage at le; omega) s
    rw [e] at same
    cases same
    exact ⟨⟨rfl, rfl, rfl, rfl⟩, fun p => by simp [none p]⟩

/-- The bits after reservations: those set before, and those of clear pages in reach of a range. -/
lemma reservAll_bit {s t : Pmm} (fits : s.Fits) {rs : List (Nat × Nat)}
    (e : reservAll rs s = .ok t) (p : Nat) :
    t.bit p = true ↔ s.bit p = true ∨ (s.Clear p ∧ Reaches s.totalPages rs p) := by
  induction rs generalizing s with
  | nil =>
    cases e
    simp [Reaches]
  | cons r rs ih =>
    obtain ⟨u, eu, _⟩ := reservRange_ok fits r.1 r.2
    rw [reservAll, eu, ok_bind] at e
    obtain ⟨frame, bits⟩ := reservRange_bit fits eu
    rw [ih (frame.fits fits) e, bits p, frame.totalPages, Reaches]
    -- after the range the test passes where it did before and nothing from `p` on was visited
    have test : u.Clear p ↔ s.Clear p ∧
        ∀ q, p ≤ q → q / 8 = p / 8 → ¬ Visits s.totalPages r q := by
      constructor
      · intro c
        have cs : s.Clear p := (s.clear_iff p).mpr fun q le byte => by
          cases b : s.bit q with
          | false => rfl
          | true =>
            have set_ := (bits q).mpr (.inl b)
            rw [(u.clear_iff p).mp c q le byte] at set_
            cases set_
        refine ⟨cs, fun q le byte v => ?_⟩
        have set_ := (bits q).mpr (.inr ⟨v, cs.higher le byte⟩)
        rw [(u.clear_iff p).mp c q le byte] at set_
        cases set_
      · rintro ⟨c, none⟩
        refine (u.clear_iff p).mpr fun q le byte => ?_
        rw [← Bool.not_eq_true, bits q, (s.clear_iff p).mp c q le byte]
        simp [none q le byte]
    rw [test]
    tauto

end Pmm

/-! ## The map of a boot -/

/-- A page overlaps a range if neither ends before the other begins. -/
lemma overlaps_iff {r : Nat × Nat} {p : Nat} :
    Overlaps r p ↔ 0 < r.2 ∧ r.1 < (p + 1) * pageSize ∧ p * pageSize < r.1 + r.2 := by
  simp only [Overlaps, pageSize]
  constructor
  · rintro ⟨a, e, h1, h2⟩
    omega
  · rintro ⟨pos, h1, h2⟩
    exact ⟨max r.1 (p * 4096), by omega, by omega, by omega⟩

instance (r : Nat × Nat) (p : Nat) : Decidable (Overlaps r p) :=
  decidable_of_iff _ overlaps_iff.symm

/-- Page `p` overlaps a range that `pmm_init` reserves. -/
def Reserved (bi : BootInfo) (k : KernelImage) (p : Nat) : Prop :=
  ∃ r ∈ reservations bi k (bitmapOf bi) (bitmapBytesOf bi), Overlaps r p

instance (bi : BootInfo) (k : KernelImage) (p : Nat) : Decidable (Reserved bi k p) := by
  unfold Reserved; infer_instance

/-- The reservations set the bit of page `p`: the higher pages of its byte are ConventionalMemory
    below `total_pages`, and the first range that visits one of them or `p` visits `p`. -/
def Marked (bi : BootInfo) (k : KernelImage) (p : Nat) : Prop :=
  (∀ q, p ≤ q → q / 8 = p / 8 → q < totalPagesOf bi ∧ bi.ConvPage q) ∧
    Reaches (totalPagesOf bi) (reservations bi k (bitmapOf bi) (bitmapBytesOf bi)) p

/-- The exact reservation map: a bit is set exactly if its page is not ConventionalMemory or
    overlaps a reserved range, and `used_pages` counts the ConventionalMemory pages that do. -/
structure ExactMap (bi : BootInfo) (k : KernelImage) (s : Pmm) : Prop where
  bit : ∀ p < s.totalPages, s.bit p = true ↔ ¬ bi.ConvPage p ∨ Reserved bi k p
  used : s.usedPages = ((convPages bi s.totalPages).filter (Reserved bi k)).card

section Built
variable {bi : BootInfo} {k : KernelImage} {cleared s : Pmm} (spec : InitSpec bi k cleared s)
include spec

/-- The test passes on a page before the reservations exactly if the loop over the map cleared it
    and the higher pages of its byte. -/
lemma InitSpec.clear_cleared (al : bi.Aligned) (sp : bi.InSpace) {p : Nat}
    (lt : p < totalPagesOf bi) :
    cleared.Clear p ↔ ∀ q, p ≤ q → q / 8 = p / 8 → q < totalPagesOf bi ∧ bi.ConvPage q := by
  rw [cleared.clear_iff]
  refine forall_congr' fun q => forall_congr' fun le => forall_congr' fun byte => ?_
  have ix : q / 8 < bitmapBytesOf bi := by
    have := bitmap_fits bi
    omega
  rw [spec.bit q ix]
  constructor
  · intro c
    obtain ⟨i, li, ci, h1, h2⟩ := c
    exact ⟨by omega, Cleared.convPage al ⟨i, li, ci, h1, h2⟩⟩
  · rintro ⟨lt', c⟩
    exact cleared_of_convPage sp lt' c

/-- The bits after `pmm_init`: those of pages of other kinds, and the marked ones. -/
lemma InitSpec.bit_iff (al : bi.Aligned) (sp : bi.InSpace)
    (built : reservAll (reservations bi k (bitmapOf bi) (bitmapBytesOf bi)) cleared = .ok s)
    {p : Nat} (lt : p < totalPagesOf bi) :
    s.bit p = true ↔ ¬ bi.ConvPage p ∨ Marked bi k p := by
  have fits : cleared.Fits := by
    unfold Pmm.Fits
    rw [spec.totalPages, spec.bitmapBytes]
    exact bitmap_fits bi
  have ix : p / 8 < bitmapBytesOf bi := by
    have := bitmap_fits bi
    omega
  have conv : cleared.bit p = false ↔ bi.ConvPage p := by
    rw [spec.bit p ix]
    exact ⟨Cleared.convPage al, cleared_of_convPage sp lt⟩
  rw [Pmm.reservAll_bit fits built, spec.totalPages, spec.clear_cleared al sp lt, ← conv,
    Bool.not_eq_false]
  rfl

/-- The bits alone decide whether the map is exact. -/
lemma InitSpec.exactMap_iff (al : bi.Aligned) (sp : bi.InSpace) :
    ExactMap bi k s ↔ ∀ p < s.totalPages, s.bit p = true ↔ ¬ bi.ConvPage p ∨ Reserved bi k p := by
  refine ⟨ExactMap.bit, fun bits => ⟨bits, ?_⟩⟩
  have count : Accounted bi s := spec.accounted al sp
  rw [count, usedSet]
  refine congrArg Finset.card (Finset.filter_congr fun p m => ?_)
  rw [convPages, Finset.mem_filter, Finset.mem_range] at m
  rw [bits p m.1]
  simp [m.2]

end Built

/-- `pmm_init` builds the exact reservation map if and only if the pages of ConventionalMemory that
    it marks are those that overlap a reserved range. -/
theorem pmm_init_map_iff (bi : BootInfo) (k : KernelImage) (mem : Mem) (s : Pmm) (al : bi.Aligned)
    (sp : bi.InSpace) (init : pmmInit bi k mem = .ok s) :
    ExactMap bi k s ↔
      ∀ p < totalPagesOf bi, bi.ConvPage p → (Marked bi k p ↔ Reserved bi k p) := by
  obtain ⟨cleared, spec, built⟩ := pmmInit_reservations init
  rw [spec.exactMap_iff al sp, spec.total]
  refine forall_congr' fun p => forall_congr' fun lt => ?_
  rw [spec.bit_iff al sp built lt]
  tauto

/-- A map of one region. -/
theorem pmm_init_map_iff_small : ∃ s, pmmInit smallMap smallKernel (fun _ => 0#8) = .ok s ∧
    (ExactMap smallMap smallKernel s ↔ ∀ p < totalPagesOf smallMap, smallMap.ConvPage p →
      (Marked smallMap smallKernel p ↔ Reserved smallMap smallKernel p)) := by
  obtain ⟨_, s, e, _⟩ := pmmInit_ok smallKernel (fun _ => 0#8) (show ¬ Panics smallMap by decide)
  exact ⟨s, e, pmm_init_map_iff smallMap smallKernel (fun _ => 0#8) s
    (by unfold BootInfo.Aligned; decide) (by unfold BootInfo.InSpace; decide) e⟩

/-- A boot with one ConventionalMemory region of seven pages. -/
def sevenPages : BootInfo := { smallMap with desc := fun _ => ⟨conventionalMemory, 0x110000, 7⟩ }

/-- The page of the bitmap itself is not marked: the bit behind the last page is still set. -/
theorem bitmap_page_unmarked : ∃ s, pmmInit sevenPages smallKernel (fun _ => 0#8) = .ok s ∧
    ¬ ExactMap sevenPages smallKernel s := by
  obtain ⟨_, s, e, spec, built⟩ := pmmInit_built smallKernel (fun _ => 0#8)
    (show ¬ Panics sevenPages by decide)
  refine ⟨s, e, fun exact_ => ?_⟩
  have total : totalPagesOf sevenPages = 279 := by decide
  have lt : 272 < totalPagesOf sevenPages := by rw [total]; decide
  have set_ : s.bit 272 = true :=
    (exact_.bit 272 (by rw [spec.total]; exact lt)).mpr (.inr (by decide))
  have bits := spec.bit_iff (by unfold BootInfo.Aligned; decide)
    (by unfold BootInfo.InSpace; decide) built lt
  rcases bits.mp set_ with off | marked
  · exact off (by decide)
  · have behind := (marked.1 279 (by decide) (by decide)).1
    rw [total] at behind
    exact Nat.lt_irrefl _ behind

end TRS.Memory
