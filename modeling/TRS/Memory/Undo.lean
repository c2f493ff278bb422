import TRS.Memory.Accounting

/-!
# Freeing undoes an allocation

A block that is given back page by page, in any order, leaves the bitmap and `used_pages` as they
were before it was handed out. Every page of the block has its own bit set until it is freed, so
that no free is ignored whatever the test says of the other pages of its byte.

* `frees_ok`: the pages of a block are freed one after the other, each with its own bit set.
* `frees_undo`: this undoes the allocation.
* `pmmAllocPages_congr`: states with the same bits hand out the same block.

The headline `alloc_undone_by_free` is over all reachable states (`Sound.of_run`) and all orders.
-/

namespace TRS.Memory
open TRS.Lib

/-- What holds of the allocator after any calls. -/
structure Sound (s : Pmm) : Prop where
  fits : s.Fits
  word : s.usedPages < 2 ^ 64

namespace Pmm

/-- Reservations keep `used_pages` a 64-bit value. -/
lemma Reserves.word {s t : Pmm} (h : Reserves s t) (lt : s.usedPages < 2 ^ 64) :
    t.usedPages < 2 ^ 64 := by
  cases h with
  | refl => exact lt
  | page _ _ _ => exact u64_lt _

/-- A free run is decided by the bits and the number of pages. -/
lemma freeRun_congr {s t : Pmm} (frame : SameFrame s t) (same : ∀ q, t.bit q = s.bit q)
    (q n : Nat) : t.FreeRun q n ↔ s.FreeRun q n := by
  have clear : ∀ p, t.Clear p ↔ s.Clear p := by
    intro p
    rw [clear_iff, clear_iff]
    simp only [same]
  simp only [FreeRun, frame.totalPages, clear]

/-- Two states with the same bits hand out the same block. -/
lemma pmmAllocPages_congr {s t : Pmm} (fits : s.Fits) (frame : SameFrame s t)
    (same : ∀ q, t.bit q = s.bit q) {n r : Nat} {s' : Pmm} (e : s.pmmAllocPages n = .ok (r, s')) :
    ∃ t', t.pmmAllocPages n = .ok (r, t') := by
  have run := freeRun_congr frame same
  rcases pmmAllocPages_cases fits n with ⟨e1, no⟩ | ⟨q, free, least, b, pos, e1⟩
  · rw [e1] at e
    cases e
    rcases pmmAllocPages_cases (frame.fits fits) n with ⟨e2, _⟩ | ⟨q, free, _, b, pos, _⟩
    · exact ⟨t, e2⟩
    · rcases no with b0 | n0 | none
      · exact absurd b0 (frame.bitmap ▸ b)
      · omega
      · exact absurd ((run q n).mp free) (none q)
  · rw [e1] at e
    cases e
    rcases pmmAllocPages_cases (frame.fits fits) n with ⟨_, no⟩ | ⟨q', free', least', _, _, e2⟩
    · rcases no with b0 | n0 | none
      · exact absurd b0 (frame.bitmap.symm ▸ b)
      · omega
      · exact absurd ((run q n).mpr free) (none q)
    · have le : q ≤ q' := Nat.le_of_not_lt fun lt => least q' lt ((run q' n).mp free')
      have ge : q' ≤ q := Nat.le_of_not_lt fun lt => least' q lt ((run q n).mpr free)
      obtain rfl := Nat.le_antisymm le ge
      exact ⟨_, e2⟩

end Pmm

/-- A call keeps the allocator sound. -/
lemma Sound.call {o o' : Owner} {c : Call} {r : Nat} (h : Sound o.pmm)
    (e : o.call c = .ok (r, o')) : Sound o'.pmm := by
  cases c with
  | alloc n =>
    rcases Pmm.pmmAllocPages_cases h.fits n with ⟨e1, _⟩ | ⟨q, _, _, _, _, e1⟩
    · rw [Owner.call, e1] at e
      cases e
      exact h
    · rw [Owner.call, e1] at e
      cases e
      exact ⟨(o.pmm.allocated_frame q n).fits h.fits, u64_lt _⟩
  | free page =>
    rw [Owner.call, Pmm.pmmFreePage_ok h.fits page] at e
    split at e
    · cases e
      exact ⟨(o.pmm.freed_frame _).fits h.fits, u64_lt _⟩
    · cases e
      exact h

/-- Whatever calls are made after a boot, the allocator is sound. -/
lemma Sound.of_run {bi : BootInfo} {k : KernelImage} {mem : Mem} {s : Pmm} {cs : List Call}
    {o : Owner} (init : pmmInit bi k mem = .ok s)
    (run : exec Owner.call (.start s) cs = .ok o) : Sound o.pmm := by
  obtain ⟨_, cleared, spec⟩ := pmmInit_inv init
  have start : Sound (Owner.start s).pmm := by
    refine ⟨spec.fits, spec.reserves.word ?_⟩
    rw [spec.usedPages]
    decide
  exact exec_invariant (I := fun o => Sound o.pmm) (fun _ _ _ _ inv e => inv.call e) start run

/-- Pages whose bits are set are given back one by one, in the order of the list. -/
lemma frees_ok {o : Owner} (sound : Sound o.pmm) (b : o.pmm.bitmap ≠ 0) (ptrs : List Nat)
    (nodup : (ptrs.map (· / pageSize)).Nodup)
    (held : ∀ p ∈ ptrs.map (· / pageSize), p < o.pmm.totalPages ∧ o.pmm.bit p = true) :
    ∃ o', exec Owner.call o (ptrs.map Call.free) = .ok o' ∧ Pmm.SameFrame o.pmm o'.pmm ∧
      (∀ q, o'.pmm.bit q = (!decide (q ∈ ptrs.map (· / pageSize)) && o.pmm.bit q)) ∧
      o'.pmm.usedPages = u64 (o.pmm.usedPages + ptrs.length * (2 ^ 64 - 1)) := by
  induction ptrs generalizing o with
  | nil =>
    refine ⟨o, rfl, ⟨rfl, rfl, rfl, rfl⟩, fun q => by simp, ?_⟩
    exact (u64_of_lt sound.word).symm
  | cons ptr ptrs ih =>
    rw [List.map_cons, List.nodup_cons] at nodup
    obtain ⟨lt, set_⟩ := held _ (.head _)
    -- its own bit is set, so that the free is not ignored
    have call : o.call (.free ptr) =
        .ok (0, ⟨o.pmm.freed (ptr / pageSize), o.held.erase (ptr / pageSize), o.given⟩) := by
      rw [Owner.call, Pmm.pmmFreePage_ok sound.fits, if_pos ⟨b, lt, Pmm.not_clear_of_bit set_⟩]
      rfl
    obtain ⟨o', e, frame, bits, used⟩ := ih (sound.call call) b nodup.2 (by
      intro p m
      obtain ⟨lt, set_⟩ := held p (.tail _ m)
      have ne : p ≠ ptr / pageSize := fun e => nodup.1 (e ▸ m)
      exact ⟨lt, by rw [Pmm.freed_bit]; simp [ne, set_]⟩)
    refine ⟨o', ?_, (o.pmm.freed_frame _).trans frame, fun q => ?_, ?_⟩
    · rw [List.map_cons, exec_cons call, e]
    · rw [bits q, Pmm.freed_bit, List.map_cons]
      by_cases here : q = ptr / pageSize
      · simp [here]
      · simp [here]
    · rw [used, List.length_cons]
      change u64 (u64 (o.pmm.usedPages + (2 ^ 64 - 1)) + _) = _
      simp only [u64]
      omega

/-- The pages of a block that was just handed out, given back in any order, leave the bits and the
    count as they were before. -/
lemma frees_undo {o o1 : Owner} (sound : Sound o.pmm) (b : o.pmm.bitmap ≠ 0) {q n : Nat}
    (free : o.pmm.FreeRun q n) (got : o1.pmm = o.pmm.allocated q n) (ptrs : List Nat)
    (perm : (ptrs.map (· / pageSize)).Perm (List.range' q n)) :
    ∃ o2, exec Owner.call o1 (ptrs.map Call.free) = .ok o2 ∧ Pmm.SameFrame o.pmm o2.pmm ∧
      (∀ p, o2.pmm.bit p = o.pmm.bit p) ∧ o2.pmm.usedPages = o.pmm.usedPages := by
  have mem_ : ∀ p, p ∈ ptrs.map (· / pageSize) ↔ q ≤ p ∧ p < q + n := by
    intro p
    rw [perm.mem_iff, List.mem_range'_1]
  have len : ptrs.length = n := by
    have := perm.length_eq
    rwa [List.length_map, List.length_range'] at this
  have frame1 := o.pmm.allocated_frame q n
  have sound1 : Sound o1.pmm := by
    rw [got]
    exact ⟨frame1.fits sound.fits, u64_lt _⟩
  have held : ∀ p ∈ ptrs.map (· / pageSize), p < o1.pmm.totalPages ∧ o1.pmm.bit p = true := by
    intro p m
    have here := (mem_ p).mp m
    have le := free.1
    rw [got, frame1.totalPages, Pmm.allocated_bit, decide_eq_true here]
    exact ⟨by omega, rfl⟩
  rw [← got] at frame1
  obtain ⟨o2, e, frame, bits, used⟩ := frees_ok sound1 (by rw [frame1.bitmap]; exact b) ptrs
    (perm.nodup_iff.mpr List.nodup_range') held
  refine ⟨o2, e, frame1.trans frame, fun p => ?_, ?_⟩
  · rw [bits p, got, Pmm.allocated_bit]
    by_cases here : q ≤ p ∧ p < q + n
    · -- a page of the block was clear before
      rw [decide_eq_true ((mem_ p).mpr here), (free.2 p here.1 here.2).bit]
      rfl
    · rw [decide_eq_false fun m => here ((mem_ p).mp m), decide_eq_false here]
      simp
  · rw [used, len, got]
    change u64 (u64 (o.pmm.usedPages + n) + _) = _
    have := sound.word
    simp only [u64]
    omega

/-- Freeing undoes an allocation: from every state that calls of the allocator reach after a boot,
    the pages of a block, freed once each in any order, restore the bitmap and `used_pages`, and the
    next request for as many pages gets the block again. -/
theorem alloc_undone_by_free (bi : BootInfo) (k : KernelImage) (mem : Mem) (s : Pmm)
    (init : pmmInit bi k mem = .ok s) (cs : List Call) (o : Owner)
    (run : exec Owner.call (.start s) cs = .ok o) (n r : Nat) (o1 : Owner)
    (alloc : o.call (.alloc n) = .ok (r, o1)) (block : r ≠ 0) (ptrs : List Nat)
    (perm : (ptrs.map (· / pageSize)).Perm (List.range' (r / pageSize) n)) :
    ∃ o2, exec Owner.call o1 (ptrs.map Call.free) = .ok o2 ∧
      (∀ q, o2.pmm.bit q = o.pmm.bit q) ∧ o2.pmm.usedPages = o.pmm.usedPages ∧
      ∃ o3, o2.call (.alloc n) = .ok (r, o3) := by
  have sound := Sound.of_run init run
  rcases Pmm.pmmAllocPages_cases sound.fits n with ⟨e, _⟩ | ⟨q, free, _, b, _, e⟩
  · rw [Owner.call, e] at alloc
    cases alloc
    exact absurd rfl block
  have again := e
  rw [Owner.call, e] at alloc
  cases alloc
  rw [Nat.mul_div_cancel _ (by decide)] at perm
  have got : (⟨o.pmm.allocated q n, o.held ∪ blockPages (q * pageSize) n,
      o.given ∪ blockPages (q * pageSize) n⟩ : Owner).pmm = o.pmm.allocated q n := rfl
  obtain ⟨o2, e2, frame, same, used⟩ := frees_undo sound b free got ptrs perm
  obtain ⟨t, et⟩ := Pmm.pmmAllocPages_congr sound.fits frame same again
  exact ⟨o2, e2, same, used, _, by rw [Owner.call, et]; rfl⟩

/-- A block of two pages, freed from its end on by addresses inside of them. -/
theorem alloc_undone_by_free_small : ∃ s o o1,
    pmmInit smallMap smallKernel (fun _ => 0#8) = .ok s ∧
    exec Owner.call (.start s) [.alloc 1] = .ok o ∧ o.call (.alloc 2) = .ok (0x112000, o1) ∧
    ∃ o2, exec Owner.call o1 [.free 0x113abc, .free 0x112001] = .ok o2 ∧
      (∀ q, o2.pmm.bit q = o.pmm.bit q) ∧ o2.pmm.usedPages = o.pmm.usedPages ∧
      ∃ o3, o2.call (.alloc 2) = .ok (0x112000, o3) := by
  have reached : smallRun [.alloc 1]
      (fun o => (o.call (.alloc 2)).toOption.map Prod.fst = some 0x112000) = true := by
    decide +kernel
  obtain ⟨s, o, e, e', h⟩ := smallRun_reaches reached
  have block := of_decide_eq_true h
  cases alloc : o.call (.alloc 2) with
  | error _ =>
    rw [alloc] at block
    cases block
  | ok a =>
    obtain ⟨r, o1⟩ := a
    rw [alloc] at block
    obtain rfl : r = 0x112000 := Option.some.inj block
    exact ⟨s, o, o1, e, e', alloc, alloc_undone_by_free smallMap smallKernel (fun _ => 0#8) s e
      [.alloc 1] o e' 2 0x112000 o1 alloc (by decide) [0x113abc, 0x112001] (by decide)⟩

end TRS.Memory
