import Mathlib.Algebra.BigOperators.Group.Finset.Basic
import TRS.Memory.Ownership

/-!
# Page accounting

`used_pages` against the bitmap. A call keeps the two in step (`Accounted`) exactly if it does not
free a page whose own bit is clear while a higher bit of the same byte is set: there
`bitmap_test`, which does not mask the shifted byte, takes the page for an allocated one, and
`pmm_free_page` counts it down once more.

* `convSum_eq_card`: the pages that the loop over the map counts are those of its regions.
* `Accounted.allocated`, `Accounted.freed`: an allocation, and the free of a page whose bit is set.
* `not_accounted_freed`: the free of a page whose own bit is clear.
* `Counting.call`: one call keeps the count exactly if it makes no such free.

The headline `pmm_accounting_iff` is over all runs, by `Along.iff_guarded` with the invariant
`Counting`; `double_free_miscounts` frees a page twice.
-/

namespace TRS.Memory
open TRS.Lib

/-- The ConventionalMemory pages below `total_pages`. -/
def convPages (bi : BootInfo) (totalPages : Nat) : Finset Nat :=
  (Finset.range totalPages).filter bi.ConvPage

/-- The ConventionalMemory pages below `total_pages` whose bit is set. -/
def usedSet (bi : BootInfo) (s : Pmm) : Finset Nat :=
  (convPages bi s.totalPages).filter (fun p => s.bit p = true)

/-- `used_pages` is the number of ConventionalMemory pages whose bit is set. -/
def Accounted (bi : BootInfo) (s : Pmm) : Prop := s.usedPages = (usedSet bi s).card

/-- A page in use is a ConventionalMemory page whose bit is set. -/
lemma mem_usedSet {bi : BootInfo} {s : Pmm} {p : Nat} :
    p ∈ usedSet bi s ↔ (p < s.totalPages ∧ bi.ConvPage p) ∧ s.bit p = true := by
  rw [usedSet, convPages, Finset.mem_filter, Finset.mem_filter, Finset.mem_range]

/-- There are no more of them than pages of that kind. -/
lemma usedSet_card_le (bi : BootInfo) (s : Pmm) :
    (usedSet bi s).card ≤ (convPages bi s.totalPages).card :=
  Finset.card_filter_le _ _

/-- There are no more of these than pages. -/
lemma convPages_card_le (bi : BootInfo) (n : Nat) : (convPages bi n).card ≤ n := by
  have h := Finset.card_filter_le (Finset.range n) bi.ConvPage
  rwa [Finset.card_range] at h

/-! ## `usable_pages` -/

/-- The pages of a descriptor. -/
def MemDesc.pageSet (d : MemDesc) : Finset Nat :=
  Finset.Ico (d.phys / pageSize) (d.phys / pageSize + d.pages)

/-- The pages of the ConventionalMemory descriptors among the first `n`. -/
def convUnion (bi : BootInfo) : Nat → Finset Nat
  | 0 => ∅
  | n + 1 => convUnion bi n ∪
    if (bi.desc n).type = conventionalMemory then (bi.desc n).pageSet else ∅

/-- The pages of the first entries of the map. -/
lemma mem_convUnion {bi : BootInfo} {n p : Nat} :
    p ∈ convUnion bi n ↔
      ∃ i < n, (bi.desc i).type = conventionalMemory ∧ p ∈ (bi.desc i).pageSet := by
  induction n with
  | zero => simp [convUnion]
  | succ n ih =>
    rw [convUnion, Finset.mem_union, ih]
    constructor
    · rintro (⟨i, lt, h⟩ | h)
      · exact ⟨i, by omega, h⟩
      · by_cases c : (bi.desc n).type = conventionalMemory
        · rw [if_pos c] at h
          exact ⟨n, by omega, c, h⟩
        · rw [if_neg c] at h
          simp at h
    · rintro ⟨i, lt, c, h⟩
      by_cases e : i = n
      · subst e
        exact .inr (by rw [if_pos c]; exact h)
      · exact .inl ⟨i, by omega, c, h⟩

/-- The addresses of a page of a descriptor are addresses of the descriptor. -/
lemma MemDesc.has_of_page {d : MemDesc} (al : d.phys % pageSize = 0) {p : Nat}
    (h : p ∈ d.pageSet) : d.Has (p * pageSize) := by
  rw [MemDesc.pageSet, Finset.mem_Ico] at h
  simp only [MemDesc.Has, MemDesc.last, pageSize] at *
  omega

/-- Disjoint descriptors: the sum of their sizes counts their pages. -/
lemma convSum_eq_card {bi : BootInfo} (al : bi.Aligned) (dj : bi.Disjoint) {n : Nat}
    (le : n ≤ bi.count) : convSum bi n = (convUnion bi n).card := by
  induction n with
  | zero => rfl
  | succ n ih =>
    rw [convSum, convUnion, ih (by omega)]
    by_cases c : (bi.desc n).type = conventionalMemory
    · rw [if_pos c, if_pos c, Finset.card_union_of_disjoint, MemDesc.pageSet, Nat.card_Ico]
      · omega
      · rw [Finset.disjoint_left]
        intro p h1 h2
        obtain ⟨i, lt, _, h1⟩ := mem_convUnion.mp h1
        exact dj i (by omega) n (by omega) (by omega) _
          (MemDesc.has_of_page (al i (by omega)) h1) (MemDesc.has_of_page (al n (by omega)) h2)
    · simp [c]

/-- The sum of the sizes does not wrap. -/
lemma convSum_lt {bi : BootInfo} (al : bi.Aligned) (dj : bi.Disjoint) (sp : bi.InSpace) :
    convSum bi bi.count < 2 ^ 64 := by
  rw [convSum_eq_card al dj (Nat.le_refl _)]
  have sub : convUnion bi bi.count ⊆ Finset.range (2 ^ 52) := by
    intro p h
    obtain ⟨i, lt, _, h⟩ := mem_convUnion.mp h
    have hs := sp i lt
    have hh := MemDesc.has_of_page (al i lt) h
    rw [Finset.mem_range]
    simp only [MemDesc.Has, pageSize] at hh
    omega
  have := Finset.card_le_card sub
  rw [Finset.card_range] at this
  omega

/-- Every ConventionalMemory page belongs to a descriptor of the map. -/
lemma convPages_subset (bi : BootInfo) (n : Nat) : convPages bi n ⊆ convUnion bi bi.count := by
  intro p h
  rw [convPages, Finset.mem_filter] at h
  obtain ⟨_, i, lt, c, h1, h2⟩ := h
  refine mem_convUnion.mpr ⟨i, lt, c, ?_⟩
  rw [MemDesc.pageSet, Finset.mem_Ico]
  simp only [MemDesc.last, pageSize] at *
  omega

/-! ## The invariant -/

/-- What holds of the allocator and the pages ever handed out, whatever is freed. -/
structure Counting (bi : BootInfo) (o : Owner) : Prop where
  fits : o.pmm.Fits
  small : o.pmm.totalPages < 2 ^ 52
  usable : (convPages bi o.pmm.totalPages).card ≤ o.pmm.usablePages
  conv : ∀ p < o.pmm.totalPages, o.pmm.bit p = false → bi.ConvPage p
  given : ∀ p ∈ o.given, p < o.pmm.totalPages ∧ bi.ConvPage p ∧ o.pmm.bitmap ≠ 0
  accounted : Accounted bi o.pmm

/-- Reserving clear pages keeps the count. -/
lemma Accounted.reserves {bi : BootInfo} {s t : Pmm} (h : Pmm.Reserves s t)
    (small : s.totalPages < 2 ^ 52)
    (conv : ∀ p < s.totalPages, s.bit p = false → bi.ConvPage p) (acc : Accounted bi s) :
    Accounted bi t := by
  induction h with
  | refl => exact acc
  | @page t p r lt c ih =>
    have fr := r.frame
    have nb : s.bit p = false := by
      cases b : s.bit p with
      | false => rfl
      | true => exact absurd (r.mono b) (by rw [c.bit]; decide)
    have new : p ∉ usedSet bi t := by
      intro m
      have := (mem_usedSet.mp m).2
      rw [c.bit] at this
      cases this
    have e : usedSet bi (t.reserve p) = insert p (usedSet bi t) := by
      ext q
      rw [mem_usedSet, Finset.mem_insert, mem_usedSet, Pmm.reserve_bit]
      change (q < t.totalPages ∧ _) ∧ _ ↔ _
      by_cases eq : q = p
      · subst eq
        simp [lt, conv q (by rw [← fr.totalPages]; exact lt) nb]
      · simp [eq]
    have le := (usedSet_card_le bi t).trans (convPages_card_le bi _)
    unfold Accounted at *
    rw [e, Finset.card_insert_of_notMem new]
    change u64 (t.usedPages + 1) = _
    rw [ih, u64_of_lt]
    rw [fr.totalPages] at le
    omega

/-- `pmm_init` counts the pages it reserves. -/
lemma InitSpec.accounted {bi : BootInfo} {k : KernelImage} {cleared s : Pmm}
    (spec : InitSpec bi k cleared s) (al : bi.Aligned) (sp : bi.InSpace) : Accounted bi s := by
  have small : cleared.totalPages < 2 ^ 52 := by
    rw [spec.totalPages]
    exact totalPagesOf_lt bi
  have ix : ∀ p < cleared.totalPages, p / 8 < bitmapBytesOf bi := by
    intro p lt
    have := bitmap_fits bi
    rw [spec.totalPages] at lt
    omega
  have conv : ∀ p < cleared.totalPages, cleared.bit p = false → bi.ConvPage p :=
    fun p lt b => ((spec.bit p (ix p lt)).mp b).convPage al
  apply Accounted.reserves spec.reserves small conv
  have e : usedSet bi cleared = ∅ := by
    ext p
    rw [mem_usedSet]
    constructor
    · rintro ⟨⟨lt, c⟩, b⟩
      rw [(spec.bit p (ix p lt)).mpr
        (cleared_of_convPage sp (by rw [← spec.totalPages]; exact lt) c)] at b
      cases b
    · simp
  unfold Accounted
  rw [e, spec.usedPages]
  rfl

/-- The state of `pmm_init` counts right. -/
lemma Counting.start {bi : BootInfo} {k : KernelImage} {cleared s : Pmm}
    (spec : InitSpec bi k cleared s) (al : bi.Aligned) (dj : bi.Disjoint) (sp : bi.InSpace) :
    Counting bi (.start s) where
  fits := spec.fits
  small := by
    change s.totalPages < _
    rw [spec.total]
    exact totalPagesOf_lt bi
  usable := by
    change _ ≤ s.usablePages
    rw [spec.frame.usablePages, spec.usablePages, u64_of_lt (convSum_lt al dj sp),
      convSum_eq_card al dj (Nat.le_refl _)]
    exact Finset.card_le_card (convPages_subset bi _)
  conv := fun p lt b => spec.convPage_of_bit al lt b
  given := by simp [Owner.start]
  accounted := spec.accounted al sp

/-- Handing out a block counts its pages. -/
lemma Accounted.allocated {bi : BootInfo} {s : Pmm} {q n : Nat} (small : s.totalPages < 2 ^ 52)
    (conv : ∀ p < s.totalPages, s.bit p = false → bi.ConvPage p) (run : s.FreeRun q n)
    (acc : Accounted bi s) : Accounted bi (s.allocated q n) := by
  have e : usedSet bi (s.allocated q n) = usedSet bi s ∪ Finset.Ico q (q + n) := by
    ext p
    rw [mem_usedSet, Finset.mem_union, mem_usedSet, Pmm.allocated_bit, Finset.mem_Ico]
    change (p < s.totalPages ∧ _) ∧ _ ↔ _
    by_cases m : q ≤ p ∧ p < q + n
    · have lt : p < s.totalPages := by have := run.1; omega
      simp [m, lt, conv p lt (run.2 p m.1 m.2).bit]
    · simp [m]
  have dj : Disjoint (usedSet bi s) (Finset.Ico q (q + n)) := by
    rw [Finset.disjoint_left]
    intro p h1 h2
    rw [Finset.mem_Ico] at h2
    have := (mem_usedSet.mp h1).2
    rw [(run.2 p h2.1 h2.2).bit] at this
    cases this
  have le := (usedSet_card_le bi s).trans (convPages_card_le bi _)
  unfold Accounted at *
  rw [e, Finset.card_union_of_disjoint dj, Nat.card_Ico]
  change u64 (s.usedPages + n) = _
  rw [acc, u64_of_lt]
  · omega
  · have := run.1
    omega

/-- Freeing a page whose own bit is set counts it down. -/
lemma Accounted.freed {bi : BootInfo} {s : Pmm} {p : Nat} (small : s.totalPages < 2 ^ 52)
    (lt : p < s.totalPages) (c : bi.ConvPage p) (b : s.bit p = true) (acc : Accounted bi s) :
    Accounted bi (s.freed p) := by
  have m : p ∈ usedSet bi s := mem_usedSet.mpr ⟨⟨lt, c⟩, b⟩
  have e : usedSet bi (s.freed p) = (usedSet bi s).erase p := by
    ext q
    rw [mem_usedSet, Finset.mem_erase, mem_usedSet, Pmm.freed_bit]
    change (q < s.totalPages ∧ _) ∧ _ ↔ _
    by_cases eq : q = p
    · simp [eq]
    · simp [eq]
  have le := (usedSet_card_le bi s).trans (convPages_card_le bi _)
  have pos := Finset.card_pos.mpr ⟨p, m⟩
  unfold Accounted at *
  rw [e, Finset.card_erase_of_mem m]
  change u64 (s.usedPages + (2 ^ 64 - 1)) = _
  rw [acc, u64]
  omega

/-- Freeing a page whose own bit is clear, but whose test is not 0, miscounts. -/
lemma not_accounted_freed {bi : BootInfo} {s : Pmm} {p : Nat} (b : s.bit p = false)
    (acc : Accounted bi s) : ¬ Accounted bi (s.freed p) := by
  have e : usedSet bi (s.freed p) = usedSet bi s := by
    ext q
    rw [mem_usedSet, mem_usedSet, Pmm.freed_bit]
    change (q < s.totalPages ∧ _) ∧ _ ↔ _
    by_cases eq : q = p
    · simp [eq, b]
    · simp [eq]
  have le := (usedSet_card_le bi s).trans (convPages_card_le bi _)
  unfold Accounted at *
  rw [e]
  change ¬ u64 (s.usedPages + (2 ^ 64 - 1)) = _
  rw [acc, u64]
  omega

/-- What a call promises of the count: it is the number of used pages and at most `usable_pages`,
    and freeing a page whose bit is clear changes neither the bitmap nor the count. -/
def Accounting (bi : BootInfo) (o : Owner) (c : Call) (o' : Owner) : Prop :=
  Accounted bi o'.pmm ∧ o'.pmm.usedPages ≤ o'.pmm.usablePages ∧
    ∀ page, c = .free page → o.pmm.bit (page / pageSize) = false →
      o'.pmm.usedPages = o.pmm.usedPages ∧ ∀ q, o'.pmm.bit q = o.pmm.bit q

/-- Only pages that some earlier allocation returned are freed, held or not. -/
def Owner.FreesGiven (o : Owner) : Call → Prop
  | .alloc _ => True
  | .free page => page / pageSize ∈ o.given

/-- A freed page has its own bit set, or no higher bit of its byte is set. -/
def Owner.FreesCounted (o : Owner) : Call → Prop
  | .alloc _ => True
  | .free page => o.pmm.bit (page / pageSize) = true ∨
      ∀ q, page / pageSize < q → q / 8 = page / pageSize / 8 → o.pmm.bit q = false

instance (o : Owner) : (c : Call) → Decidable (o.FreesGiven c)
  | .alloc _ => .isTrue trivial
  | .free page => Finset.decidableMem (page / pageSize) o.given

instance (o : Owner) : (c : Call) → Decidable (o.FreesCounted c)
  | .alloc _ => .isTrue trivial
  | .free page => decidable_of_iff (o.pmm.bit (page / pageSize) = true ∨
      ∀ q < 8 * (page / pageSize / 8 + 1),
        page / pageSize < q → q / 8 = page / pageSize / 8 → o.pmm.bit q = false)
    (or_congr_right ⟨fun h q gt eq => h q (by omega) gt eq, fun h q _ gt eq => h q gt eq⟩)

/-- A page whose bit is clear is taken for clear exactly if no higher bit of its byte is set. -/
lemma Owner.clear_iff_freesCounted {o : Owner} {page : Nat}
    (own : o.pmm.bit (page / pageSize) = false) :
    o.pmm.Clear (page / pageSize) ↔ o.FreesCounted (.free page) := by
  rw [Pmm.clear_iff]
  constructor
  · exact fun c => .inr fun q gt eq => c q (by omega) eq
  · rintro (b' | c) q le eq
    · rw [own] at b'
      cases b'
    · by_cases eq' : q = page / pageSize
      · rw [eq', own]
      · exact c q (by omega) eq

/-- No more pages are counted as used than are usable. -/
lemma Counting.used_le {bi : BootInfo} {o : Owner} (h : Counting bi o) :
    o.pmm.usedPages ≤ o.pmm.usablePages := by
  rw [h.accounted]
  exact (usedSet_card_le bi _).trans h.usable

/-- The count does not depend on who holds the pages. -/
lemma Counting.reheld {bi : BootInfo} {o : Owner} (h : Counting bi o) (held : Finset Nat) :
    Counting bi ⟨o.pmm, held, o.given⟩ :=
  ⟨h.fits, h.small, h.usable, h.conv, h.given, h.accounted⟩

/-- An allocation keeps the count right. -/
lemma Counting.alloc {bi : BootInfo} {o : Owner} (h : Counting bi o) {q n : Nat}
    (b : o.pmm.bitmap ≠ 0) (run : o.pmm.FreeRun q n) :
    Counting bi ⟨o.pmm.allocated q n, o.held ∪ blockPages (q * pageSize) n,
      o.given ∪ blockPages (q * pageSize) n⟩ where
  fits := (o.pmm.allocated_frame q n).fits h.fits
  small := h.small
  usable := h.usable
  conv := by
    intro p lt nb
    rw [Pmm.allocated_bit, Bool.or_eq_false_iff] at nb
    exact h.conv p lt nb.2
  given := by
    intro p m
    rcases Finset.mem_union.mp m with m | m
    · exact h.given p m
    · by_cases e : q * pageSize = 0
      · simp [blockPages, e] at m
      · rw [blockPages, if_neg e, Finset.mem_Ico, Nat.mul_div_cancel _ (by decide)] at m
        have lt : p < o.pmm.totalPages := by have := run.1; omega
        exact ⟨lt, h.conv p lt (run.2 p m.1 m.2).bit, b⟩
  accounted := h.accounted.allocated h.small h.conv run

/-- So does the free of a page whose bit is set. -/
lemma Counting.free {bi : BootInfo} {o : Owner} (h : Counting bi o) {p : Nat} (m : p ∈ o.given)
    (b : o.pmm.bit p = true) : Counting bi ⟨o.pmm.freed p, o.held.erase p, o.given⟩ where
  fits := (o.pmm.freed_frame p).fits h.fits
  small := h.small
  usable := h.usable
  conv := by
    intro q lt nb
    by_cases e : q = p
    · rw [e]
      exact (h.given p m).2.1
    · exact h.conv q lt (by simpa [e] using nb)
  given := h.given
  accounted := h.accounted.freed h.small (h.given p m).1 (h.given p m).2.1 b

/-- One call counts right exactly if it does not free a clear page below a set bit of its byte. -/
lemma Counting.call {bi : BootInfo} {o : Owner} (h : Counting bi o) {c : Call}
    (g : o.FreesGiven c) :
    ∃ r o', o.call c = .ok (r, o') ∧ (Accounting bi o c o' ↔ o.FreesCounted c) ∧
      (Accounting bi o c o' → Counting bi o') := by
  cases c with
  | alloc n =>
    have done : ∀ o', Counting bi o' → (Accounting bi o (.alloc n) o' ↔ o.FreesCounted (.alloc n)) ∧
        (Accounting bi o (.alloc n) o' → Counting bi o') := by
      intro o' h'
      exact ⟨⟨fun _ => trivial, fun _ => ⟨h'.accounted, h'.used_le, by simp⟩⟩, fun _ => h'⟩
    rcases Pmm.pmmAllocPages_cases h.fits n with ⟨e, _⟩ | ⟨q, run, _, b, _, e⟩
    · refine ⟨0, ⟨o.pmm, o.held ∪ blockPages 0 n, o.given ∪ blockPages 0 n⟩, ?_, done _ ?_⟩
      · rw [Owner.call, e]
        rfl
      · simpa [blockPages] using
          (⟨h.fits, h.small, h.usable, h.conv, h.given, h.accounted⟩ :
            Counting bi ⟨o.pmm, o.held ∪ ∅, o.given⟩)
    · refine ⟨q * pageSize, _, ?_, done _ (h.alloc b run)⟩
      rw [Owner.call, e]
      rfl
  | free page =>
    have m : page / pageSize ∈ o.given := g
    obtain ⟨lt, cv, b⟩ := h.given _ m
    have e := Pmm.pmmFreePage_ok h.fits page
    cases own : o.pmm.bit (page / pageSize) with
    | true =>
      -- a held page: its own bit makes the test see it
      have nc := Pmm.not_clear_of_bit own
      rw [if_pos ⟨b, lt, nc⟩] at e
      have h' := h.free m own
      refine ⟨0, _, by rw [Owner.call, e]; rfl, ⟨fun _ => .inl own, fun _ => ?_⟩, fun _ => h'⟩
      refine ⟨h'.accounted, h'.used_le, fun p eq nb => ?_⟩
      cases eq
      rw [own] at nb
      cases nb
    | false =>
      -- a page freed before: the call is ignored exactly if no higher bit of the byte is set
      have iff := Owner.clear_iff_freesCounted own
      by_cases c : o.pmm.Clear (page / pageSize)
      · rw [if_neg (fun h => h.2.2 c)] at e
        have h' := h.reheld (o.held.erase (page / pageSize))
        refine ⟨0, _, by rw [Owner.call, e]; rfl, ⟨fun _ => iff.mp c, fun _ => ?_⟩, fun _ => h'⟩
        exact ⟨h'.accounted, h'.used_le, fun _ _ _ => ⟨rfl, fun _ => rfl⟩⟩
      · rw [if_pos ⟨b, lt, c⟩] at e
        have no : ¬ Accounting bi o (.free page)
            ⟨o.pmm.freed (page / pageSize), o.held.erase (page / pageSize), o.given⟩ :=
          fun a => not_accounted_freed own h.accounted a.1
        refine ⟨0, _, by rw [Owner.call, e]; rfl, ⟨fun a => absurd a no, fun w => ?_⟩,
          fun a => absurd a no⟩
        exact absurd (iff.mpr w) c

/-- Page accounting over whole runs with double frees: the count is right after every call exactly
    if no call frees a page whose own bit is clear while a higher bit of its byte is set. -/
theorem pmm_accounting_iff (bi : BootInfo) (k : KernelImage) (mem : Mem) (s : Pmm)
    (al : bi.Aligned) (dj : bi.Disjoint) (sp : bi.InSpace) (init : pmmInit bi k mem = .ok s) :
    Accounted bi s ∧ ∀ cs, Guarded Owner.call Owner.FreesGiven (.start s) cs →
      (Along Owner.call (fun o c _ o' => Accounting bi o c o') (.start s) cs ↔
        Guarded Owner.call Owner.FreesCounted (.start s) cs) := by
  obtain ⟨_, cleared, spec⟩ := pmmInit_inv init
  have inv := Counting.start spec al dj sp
  exact ⟨inv.accounted, fun cs g => Along.iff_guarded (fun o c h g => h.call g) inv g⟩

/-- The second page of a block is freed twice. Its bit is clear at the second free, and so are those
    behind it. The free of the other page counts. -/
def harmlessFrees : List Call :=
  [.alloc 2, .free 0x112000, .free 0x112000, .free 0x111000, .alloc 3]

/-- In this run the frees leave a right count, the double one among them. -/
theorem pmm_accounting_iff_small : ∃ s, pmmInit smallMap smallKernel (fun _ => 0#8) = .ok s ∧
    Along Owner.call (fun o c _ o' => Accounting smallMap o c o') (.start s) harmlessFrees ∧
    ∃ o, exec Owner.call (.start s) (harmlessFrees.take 2) = .ok o ∧ o.pmm.bit 0x112 = false := by
  obtain ⟨_, s, e, _⟩ := pmmInit_ok smallKernel (fun _ => 0#8) (show ¬ Panics smallMap by decide)
  have given : Guarded Owner.call Owner.FreesGiven (.start s) harmlessFrees :=
    smallRun_guarded e (by decide +kernel)
  have counted : Guarded Owner.call Owner.FreesCounted (.start s) harmlessFrees :=
    smallRun_guarded e (by decide +kernel)
  have twice : smallRun (harmlessFrees.take 2) (fun o => o.pmm.bit 0x112 = false) = true := by
    decide +kernel
  refine ⟨s, e, ((pmm_accounting_iff smallMap smallKernel (fun _ => 0#8) s ?_ ?_ ?_ e).2 _
    given).mpr counted, ?_⟩
  · unfold BootInfo.Aligned; decide
  · intro i hi j hj ne
    have : smallMap.count = 1 := rfl
    omega
  · unfold BootInfo.InSpace; decide
  · obtain ⟨s', o, e', run, bit⟩ := smallRun_reaches twice
    obtain rfl : s = s' := Except.ok.inj (e.symm.trans e')
    exact ⟨o, run, of_decide_eq_true bit⟩

/-- A block of two pages, its first page freed twice. -/
def doubleFree : List Call := [.alloc 2, .free 0x111000, .free 0x111000]

/-- After the double free `used_pages` is one less than the number of used pages. -/
theorem double_free_miscounts : ∃ s, pmmInit smallMap smallKernel (fun _ => 0#8) = .ok s ∧
    Guarded Owner.call Owner.FreesGiven (.start s) doubleFree ∧
    ¬ Along Owner.call (fun o c _ o' => Accounting smallMap o c o') (.start s) doubleFree := by
  obtain ⟨_, s, e, _⟩ := pmmInit_ok smallKernel (fun _ => 0#8) (show ¬ Panics smallMap by decide)
  have given : Guarded Owner.call Owner.FreesGiven (.start s) doubleFree :=
    smallRun_guarded e (by decide +kernel)
  refine ⟨s, e, given, fun h => ?_⟩
  have h : Along _ _ _ ([Call.alloc 2, Call.free 0x111000] ++ [Call.free 0x111000]) := h
  obtain ⟨t, r, o, _, e', acc, _⟩ := h.last
  have bad := smallRun_spec
    (f := fun o => decide (o.pmm.usedPages + 1 = (usedSet smallMap o.pmm).card))
    (by decide +kernel) e e'
  have := of_decide_eq_true bad
  unfold Accounted at acc
  omega

end TRS.Memory
