import Mathlib.Order.Interval.Finset.Nat
import TRS.Lib.Run
import TRS.Memory.Init

/-!
# Exclusive page ownership

The allocator together with its caller: `Owner` adds to the state the pages that are held (`held`)
and the pages that were ever handed out (`given`). The bitmap after `pmm_init` and the held pages
determine the bitmap of every later state (`Owned`): a bit is set exactly if `pmm_init` left it set
or the page is held. Since only held pages are freed, a bit that `pmm_init` left set is never
cleared, and it protects every lower page of its byte, whether that page's own bit is set or not.

* `Owned.alloc`, `Owned.free`, `Owned.call`: each call keeps the invariant.
* `Granted.unreserved`, `Granted.exclusive`: what the answer of an allocation promises.

The headline `pmm_exclusive_ownership` is over all guarded runs, by `Along.of_invariant`.
-/

namespace TRS.Memory
open TRS.Lib

/-- A call of the allocator. -/
inductive Call where
  /-- `pmm_alloc_pages(n)` -/
  | alloc (n : Nat)
  /-- `pmm_free_page(page)` -/
  | free (page : Nat)
  deriving DecidableEq, Repr

/-- The allocator, the pages its callers hold, and the pages they ever held. -/
structure Owner where
  pmm : Pmm
  held : Finset Nat
  given : Finset Nat

/-- The pages of a returned block; none for `NULL`. -/
def blockPages (r n : Nat) : Finset Nat :=
  if r = 0 then ∅ else Finset.Ico (r / pageSize) (r / pageSize + n)

namespace Owner

/-- One call; the answer of a free is 0. -/
def call (o : Owner) : Call → Except Stop (Nat × Owner)
  | .alloc n => do
    let (r, s) ← o.pmm.pmmAllocPages n
    return (r, ⟨s, o.held ∪ blockPages r n, o.given ∪ blockPages r n⟩)
  | .free page => do
    let s ← o.pmm.pmmFreePage page
    return (0, ⟨s, o.held.erase (page / pageSize), o.given⟩)

/-- The owner after `pmm_init`. -/
def start (s : Pmm) : Owner := ⟨s, ∅, ∅⟩

/-- Only pages currently held are freed. -/
def FreesHeld (o : Owner) : Call → Prop
  | .alloc _ => True
  | .free page => page / pageSize ∈ o.held

instance (o : Owner) : (c : Call) → Decidable (o.FreesHeld c)
  | .alloc _ => .isTrue trivial
  | .free page => Finset.decidableMem (page / pageSize) o.held

end Owner

/-- Page `p` shares an address with the range `(start, size)`. -/
def Overlaps (r : Nat × Nat) (p : Nat) : Prop :=
  ∃ a, a / pageSize = p ∧ r.1 ≤ a ∧ a < r.1 + r.2

/-- What an answer of the allocator promises its caller: a page-aligned block below `total_pages`,
    inside ConventionalMemory, off every reserved range and off every held page. -/
def Exclusive (bi : BootInfo) (k : KernelImage) (o : Owner) : Call → Nat → Prop
  | .alloc n, r => r ≠ 0 → r % pageSize = 0 ∧ ∀ p ∈ blockPages r n,
      p < o.pmm.totalPages ∧ bi.ConvPage p ∧ p ∉ o.held ∧
      ∀ g ∈ reservations bi k (bitmapOf bi) (bitmapBytesOf bi), ¬ Overlaps g p
  | .free _, _ => True

/-- No address sum that `reserv_range` forms passes 2^64. -/
def SumsFit (bi : BootInfo) (k : KernelImage) : Prop :=
  ∀ r ∈ reservations bi k (bitmapOf bi) (bitmapBytesOf bi), r.1 + r.2 + (pageSize - 1) < 2 ^ 64

/-- The pages that overlap a range are the pages `reserv_range` visits. -/
lemma Overlaps.visited {r : Nat × Nat} {p : Nat} (h : Overlaps r p)
    (fit : r.1 + r.2 + (pageSize - 1) < 2 ^ 64) :
    Pmm.firstPage r.1 ≤ p ∧ p < Pmm.lastPage r.1 r.2 := by
  obtain ⟨a, e, h1, h2⟩ := h
  have lt : r.1 + r.2 < 2 ^ 64 := by omega
  rw [Pmm.firstPage, Pmm.lastPage, u64_of_lt lt, alignUp_page fit]
  simp only [pageSize] at *
  omega

/-- The state of the allocator in terms of the state `s` that `pmm_init` returned. -/
structure Owned (s : Pmm) (o : Owner) : Prop where
  frame : Pmm.SameFrame s o.pmm
  bit : ∀ q, o.pmm.bit q = true ↔ s.bit q = true ∨ q ∈ o.held
  fresh : ∀ q ∈ o.held, s.bit q = false
  inside : ∀ q ∈ o.held, q < s.totalPages ∧ s.bitmap ≠ 0

namespace Owned
variable {s : Pmm} {o : Owner}

/-- Before the first call no page is held. -/
lemma start (s : Pmm) : Owned s (Owner.start s) where
  frame := ⟨rfl, rfl, rfl, rfl⟩
  bit := by simp [Owner.start]
  fresh := by simp [Owner.start]
  inside := by simp [Owner.start]

/-- A page protected after `pmm_init` is protected for ever. -/
lemma not_clear (h : Owned s o) {p : Nat} (nc : ¬ s.Clear p) : ¬ o.pmm.Clear p := by
  rw [Pmm.not_clear_iff] at nc ⊢
  obtain ⟨q, le, e, b⟩ := nc
  exact ⟨q, le, e, (h.bit q).mpr (.inl b)⟩

/-- A page that can be allocated was left clear by `pmm_init` and is not held. -/
lemma of_clear (h : Owned s o) {p : Nat} (c : o.pmm.Clear p) : s.bit p = false ∧ p ∉ o.held := by
  have nb : ¬ (s.bit p = true ∨ p ∈ o.held) := by
    rw [← h.bit p, c.bit]
    simp
  exact ⟨by simpa using fun b => nb (.inl b), fun m => nb (.inr m)⟩

/-- An allocation adds the pages of its block. -/
lemma alloc (h : Owned s o) {q n : Nat} (pos : q ≠ 0) (b : o.pmm.bitmap ≠ 0)
    (run : o.pmm.FreeRun q n) :
    Owned s ⟨o.pmm.allocated q n, o.held ∪ blockPages (q * pageSize) n,
      o.given ∪ blockPages (q * pageSize) n⟩ := by
  have mem : ∀ p, p ∈ blockPages (q * pageSize) n ↔ q ≤ p ∧ p < q + n := by
    intro p
    have ne : q * pageSize ≠ 0 := by simp only [pageSize]; omega
    rw [blockPages, if_neg ne, Finset.mem_Ico, Nat.mul_div_cancel _ (by decide)]
  refine ⟨h.frame.trans (o.pmm.allocated_frame q n), fun p => ?_, fun p m => ?_, fun p m => ?_⟩
  · rw [Pmm.allocated_bit, Bool.or_eq_true, decide_eq_true_iff, h.bit p, Finset.mem_union, mem p]
    tauto
  · rcases Finset.mem_union.mp m with m | m
    · exact h.fresh p m
    · obtain ⟨h1, h2⟩ := (mem p).mp m
      exact (h.of_clear (run.2 p h1 h2)).1
  · rcases Finset.mem_union.mp m with m | m
    · exact h.inside p m
    · obtain ⟨h1, h2⟩ := (mem p).mp m
      have le := run.1
      rw [h.frame.totalPages] at le
      rw [h.frame.bitmap] at b
      exact ⟨by omega, b⟩

/-- A free takes its page away. -/
lemma free (h : Owned s o) {p : Nat} (m : p ∈ o.held) :
    Owned s ⟨o.pmm.freed p, o.held.erase p, o.given⟩ := by
  refine ⟨h.frame.trans (o.pmm.freed_frame p), fun q => ?_, fun q m' => ?_, fun q m' => ?_⟩
  · rw [Pmm.freed_bit, Finset.mem_erase]
    by_cases e : q = p
    · subst e
      simp [h.fresh q m]
    · simp [e, h.bit q]
  · exact h.fresh q (Finset.mem_of_mem_erase m')
  · exact h.inside q (Finset.mem_of_mem_erase m')

end Owned

/-- Page 0 belongs to the low megabyte and is never handed out. -/
lemma InitSpec.not_clear_zero {bi : BootInfo} {k : KernelImage} {cleared s : Pmm}
    (h : InitSpec bi k cleared s) (pos : 0 < s.totalPages) : ¬ s.Clear 0 := by
  have mem : (0, 0x100000) ∈ reservations bi k (bitmapOf bi) (bitmapBytesOf bi) := .head _
  exact h.covered _ mem 0 (by decide) (by decide) (by rw [← h.total]; exact pos)

/-- A returned block is page aligned and consists of pages that could be allocated. -/
def Granted (o : Owner) : Call → Nat → Prop
  | .alloc n, r => r ≠ 0 → r % pageSize = 0 ∧
      ∀ p ∈ blockPages r n, p < o.pmm.totalPages ∧ o.pmm.Clear p
  | .free _, _ => True

/-- One call of the allocator, from any state that a run of guarded calls reaches. -/
lemma Owned.call {bi : BootInfo} {k : KernelImage} {cleared s : Pmm} {o : Owner}
    (spec : InitSpec bi k cleared s) (h : Owned s o) {c : Call} (g : o.FreesHeld c) :
    ∃ r o', o.call c = .ok (r, o') ∧ Granted o c r ∧ Owned s o' := by
  have fits := h.frame.fits spec.fits
  cases c with
  | alloc n =>
    rcases Pmm.pmmAllocPages_cases fits n with ⟨e, _⟩ | ⟨q, run, _, b, pos, e⟩
    · refine ⟨0, ⟨o.pmm, o.held ∪ blockPages 0 n, o.given ∪ blockPages 0 n⟩, ?_, ?_, ?_⟩
      · rw [Owner.call, e]
        rfl
      · exact fun ne => absurd rfl ne
      · simpa [blockPages] using h
    · -- page 0 is reserved, so that a block is never mistaken for `NULL`
      have q0 : q ≠ 0 := by
        rintro rfl
        have lt : 0 < s.totalPages := by
          have := run.1
          rw [h.frame.totalPages] at this
          omega
        exact h.not_clear (spec.not_clear_zero lt) (run.2 0 (Nat.le_refl 0) (by omega))
      refine ⟨q * pageSize, _, ?_, ?_, h.alloc q0 b run⟩
      · rw [Owner.call, e]
        rfl
      · intro ne
        refine ⟨Nat.mul_mod_left q pageSize, fun p m => ?_⟩
        rw [blockPages, if_neg ne, Finset.mem_Ico, Nat.mul_div_cancel _ (by decide)] at m
        have le := run.1
        exact ⟨by omega, run.2 p m.1 m.2⟩
  | free page =>
    have m : page / pageSize ∈ o.held := g
    have live : o.pmm.bitmap ≠ 0 ∧ page / pageSize < o.pmm.totalPages ∧
        ¬ o.pmm.Clear (page / pageSize) := by
      obtain ⟨lt, b⟩ := h.inside _ m
      rw [h.frame.bitmap, h.frame.totalPages]
      exact ⟨b, lt, Pmm.not_clear_of_bit ((h.bit _).mpr (.inr m))⟩
    refine ⟨0, _, ?_, trivial, h.free m⟩
    rw [Owner.call, Pmm.pmmFreePage_ok fits page, if_pos live]
    rfl

/-- No page of a granted block is visited by a reservation of `pmm_init`. -/
lemma Granted.unreserved {bi : BootInfo} {k : KernelImage} {cleared s : Pmm} {o : Owner}
    (spec : InitSpec bi k cleared s) (h : Owned s o) {n r p : Nat} (gr : Granted o (.alloc n) r)
    (m : p ∈ blockPages r n) {g : Nat × Nat}
    (mem : g ∈ reservations bi k (bitmapOf bi) (bitmapBytesOf bi)) :
    ¬ (Pmm.firstPage g.1 ≤ p ∧ p < Pmm.lastPage g.1 g.2) := by
  rintro ⟨v1, v2⟩
  have ne : r ≠ 0 := by rintro rfl; simp [blockPages] at m
  obtain ⟨lt, c⟩ := (gr ne).2 p m
  rw [h.frame.totalPages, spec.total] at lt
  exact h.not_clear (spec.covered g mem p v1 v2 lt) c

/-- A granted block keeps the whole promise. -/
lemma Granted.exclusive {bi : BootInfo} {k : KernelImage} {cleared s : Pmm} {o : Owner}
    (spec : InitSpec bi k cleared s) (al : bi.Aligned) (sums : SumsFit bi k) (h : Owned s o)
    {c : Call} {r : Nat} (gr : Granted o c r) : Exclusive bi k o c r := by
  cases c with
  | alloc n =>
    intro ne
    refine ⟨(gr ne).1, fun p m => ?_⟩
    obtain ⟨lt, c⟩ := (gr ne).2 p m
    obtain ⟨b, nh⟩ := h.of_clear c
    have lt' : p < s.totalPages := by rw [← h.frame.totalPages]; exact lt
    refine ⟨lt, spec.convPage_of_bit al lt' b, nh, fun g mem ov => ?_⟩
    exact gr.unreserved spec h m mem (ov.visited (sums g mem))
  | free _ => trivial

/-- Exclusive page ownership: on every boot that does not panic, no sequence of allocations and
    frees of held pages ever touches a byte outside the bitmap, and every block handed out is
    aligned, below `total_pages`, inside ConventionalMemory, off every reserved range and off every
    held page. -/
theorem pmm_exclusive_ownership (bi : BootInfo) (k : KernelImage) (mem : Mem) (al : bi.Aligned)
    (sums : SumsFit bi k) (returns : ∀ msg, pmmInit bi k mem ≠ .error (.panic msg)) :
    ∃ s, pmmInit bi k mem = .ok s ∧ ∀ cs, Guarded Owner.call Owner.FreesHeld (.start s) cs →
      Along Owner.call (fun o c r _ => Exclusive bi k o c r) (.start s) cs := by
  have np : ¬ Panics bi := fun p =>
    let ⟨msg, e⟩ := pmmInit_panics k mem p
    returns msg e
  obtain ⟨cleared, s, e, spec⟩ := pmmInit_ok k mem np
  refine ⟨s, e, fun cs g => ?_⟩
  refine Along.of_invariant (fun o c h g => ?_) (Owned.start s) g
  obtain ⟨r, o', e, gr, h'⟩ := h.call spec g
  exact ⟨r, o', e, gr.exclusive spec al sums h, h'⟩

/-- A boot with one ConventionalMemory region of eight pages right behind the kernel. -/
def smallMap : BootInfo where
  fb := ⟨0xC0000000, 0x300000, 1024, 768, 4096, 0xFF0000, 0xFF00, 0xFF⟩
  mmapAddr := 0x50000
  mmapSize := 40
  mmapDsize := 40
  stackTop := 0x80000
  desc := fun _ => ⟨conventionalMemory, 0x110000, 8⟩

/-- A kernel image of sixteen pages at 1 MiB. -/
def smallKernel : KernelImage := ⟨0x100000, 0x110000⟩

/-- `pmm_init` does not panic on this map. -/
lemma smallMap_returns (mem : Mem) (msg : String) :
    pmmInit smallMap smallKernel mem ≠ .error (.panic msg) := by
  obtain ⟨_, s, e, _⟩ := pmmInit_ok smallKernel mem (show ¬ Panics smallMap by decide)
  rw [e]
  intro h
  cases h

/-- The state that `calls` leave after `pmm_init` on `smallMap`, looked at with `f`. -/
def smallRun (calls : List Call) (f : Owner → Bool) : Bool :=
  match pmmInit smallMap smallKernel (fun _ => 0#8) with
  | .ok s =>
    match exec Owner.call (.start s) calls with
    | .ok o => f o
    | .error _ => false
  | .error _ => false

/-- What is computed of a run holds of the state it leaves. -/
lemma smallRun_spec {calls : List Call} {f : Owner → Bool} {s : Pmm} {o : Owner}
    (h : smallRun calls f = true) (e : pmmInit smallMap smallKernel (fun _ => 0#8) = .ok s)
    (e' : exec Owner.call (.start s) calls = .ok o) : f o = true := by
  unfold smallRun at h
  generalize pmmInit smallMap smallKernel (fun _ => 0#8) = x at e h
  subst e
  dsimp only at h
  rw [e'] at h
  exact h

/-- A run that passes `f` reaches a state that does. -/
lemma smallRun_reaches {calls : List Call} {f : Owner → Bool} (h : smallRun calls f = true) :
    ∃ s o, pmmInit smallMap smallKernel (fun _ => 0#8) = .ok s ∧
      exec Owner.call (.start s) calls = .ok o ∧ f o = true := by
  unfold smallRun at h
  cases e : pmmInit smallMap smallKernel (fun _ => 0#8) with
  | error _ => rw [e] at h; cases h
  | ok s =>
    rw [e] at h
    dsimp only at h
    cases e' : exec Owner.call (.start s) calls with
    | error _ => rw [e'] at h; cases h
    | ok o =>
      rw [e'] at h
      exact ⟨s, o, rfl, e', h⟩

/-- The calls of a run meet a guard if each does in the state that the calls before it leave. -/
lemma smallRun_guarded {G : Owner → Call → Prop} [∀ o c, Decidable (G o c)] {calls : List Call}
    {s : Pmm} (e : pmmInit smallMap smallKernel (fun _ => 0#8) = .ok s)
    (each : ∀ k (lt : k < calls.length),
      smallRun (calls.take k) (fun o => decide (G o calls[k])) = true) :
    Guarded Owner.call G (.start s) calls :=
  .of_take fun k lt _ run => of_decide_eq_true (smallRun_spec (each k lt) e run)

/-- The second page of a block is freed and handed out again. -/
def handedOutAgain : List Call := [.alloc 2, .free 0x112000, .alloc 1, .alloc 3]

/-- The page that was freed is held again, and no other page twice. -/
theorem pmm_exclusive_ownership_small :
    ∃ s, pmmInit smallMap smallKernel (fun _ => 0#8) = .ok s ∧
      Along Owner.call (fun o c r _ => Exclusive smallMap smallKernel o c r) (.start s)
        handedOutAgain ∧
      ∃ o, exec Owner.call (.start s) handedOutAgain = .ok o ∧
        o.held = {0x111, 0x112, 0x113, 0x114, 0x115} := by
  obtain ⟨s, e, runs⟩ := pmm_exclusive_ownership smallMap smallKernel (fun _ => 0#8)
    (by unfold BootInfo.Aligned; decide) (by unfold SumsFit; decide) (smallMap_returns _)
  have held : smallRun handedOutAgain
      (fun o => o.held = {0x111, 0x112, 0x113, 0x114, 0x115}) = true := by
    decide +kernel
  refine ⟨s, e, runs _ (smallRun_guarded e (by decide +kernel)), ?_⟩
  obtain ⟨s', o, e', run, here⟩ := smallRun_reaches held
  obtain rfl : s = s' := Except.ok.inj (e.symm.trans e')
  exact ⟨o, run, of_decide_eq_true here⟩

end TRS.Memory
