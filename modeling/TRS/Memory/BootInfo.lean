import TRS.Lib.Word

/-!
# Boot information and the memory map

`boot_info_t` as the boot loader leaves it (`bootloader/uefi/inc/bootinfo.h`), and the 64-bit
arithmetic the kernel does on its fields. The descriptors of the UEFI memory map are given as the
values `desc_at` reads: the map's buffer is a `LoaderData` pool of the boot loader, so that no store
of the memory manager reaches it.

* `alignUp_page`: `ALIGN_UP` to a page, modulo 2^64, and `alignUp_of_aligned` where it changes
  nothing.
-/

namespace TRS.Memory
open TRS.Lib

/-- `PAGE_SIZE`. -/
abbrev pageSize : Nat := 4096

/-- The enumerator `ConventionalMemory` of `kern_mem_type`. -/
abbrev conventionalMemory : Nat := 7

/-- `mem_desc_t`, with the fields the kernel reads. -/
structure MemDesc where
  type : Nat
  phys : Nat
  pages : Nat
  deriving DecidableEq, Repr

/-- `framebuf_info_t`, with the fields the kernel reads. -/
structure FramebufInfo where
  base : Nat
  size : Nat
  width : Nat
  height : Nat
  pitch : Nat
  rmask : Nat
  gmask : Nat
  bmask : Nat
  deriving DecidableEq, Repr

/-- `boot_info_t`; `desc i` is the descriptor at `mmap_addr + i * mmap_dsize`. -/
structure BootInfo where
  fb : FramebufInfo
  mmapAddr : Nat
  mmapSize : Nat
  mmapDsize : Nat
  stackTop : Nat
  desc : Nat → MemDesc

/-- The linker symbols `__kernel_start` and `__kernel_end`. -/
structure KernelImage where
  kernelStart : Nat
  kernelEnd : Nat

/-- `align_up(v, a)`: `(v + a - 1) & ~(a - 1)`. -/
def alignUp (v a : Nat) : Nat := u64 (v + a - 1) &&& (2 ^ 64 - 1 - (a - 1))

/-- Masking out the low twelve bits of a 64-bit value. -/
lemma and_pageMask {x : Nat} (lt : x < 2 ^ 64) :
    x &&& (2 ^ 64 - 1 - (pageSize - 1)) = x / pageSize * pageSize := by
  have hm : 2 ^ 64 - 1 - (pageSize - 1) = (2 ^ 52 - 1) <<< 12 := by decide
  have hx : x / pageSize * pageSize = (x >>> 12) <<< 12 := by
    rw [Nat.shiftLeft_eq, Nat.shiftRight_eq_div_pow]
  rw [hm, hx]
  apply Nat.eq_of_testBit_eq
  intro i
  rw [Nat.testBit_and, Nat.testBit_shiftLeft, Nat.testBit_shiftLeft, Nat.testBit_shiftRight,
    Nat.testBit_two_pow_sub_one]
  by_cases h : 12 ≤ i
  · rw [show 12 + (i - 12) = i by omega]
    by_cases hi : i - 12 < 52
    · simp [h, hi]
    · have : x.testBit i = false :=
        Nat.testBit_lt_two_pow (Nat.lt_of_lt_of_le lt (Nat.pow_le_pow_right (by decide) (by omega)))
      simp [this]
  · simp [h]

/-- `align_up` to a page, when the sum does not pass 2^64. -/
lemma alignUp_page {v : Nat} (lt : v + (pageSize - 1) < 2 ^ 64) :
    alignUp v pageSize = (v + (pageSize - 1)) / pageSize * pageSize := by
  have e : u64 (v + pageSize - 1) = v + (pageSize - 1) := by
    rw [Nat.add_sub_assoc (by decide)]
    exact u64_of_lt lt
  rw [alignUp, e, and_pageMask lt]

/-- An aligned address is its own `align_up`. -/
lemma alignUp_of_aligned {v : Nat} (al : v % pageSize = 0) (lt : v < 2 ^ 64) :
    alignUp v pageSize = v := by
  have h : v + (pageSize - 1) < 2 ^ 64 := by simp only [pageSize] at *; omega
  rw [alignUp_page h]
  simp only [pageSize] at *
  omega

/-- The number of descriptors in the map. -/
def BootInfo.count (bi : BootInfo) : Nat := bi.mmapSize / bi.mmapDsize

/-- Descriptor `i` of the map describes ConventionalMemory. -/
def BootInfo.IsConv (bi : BootInfo) (i : Nat) : Prop :=
  i < bi.count ∧ (bi.desc i).type = conventionalMemory

instance (bi : BootInfo) (i : Nat) : Decidable (bi.IsConv i) := by
  unfold BootInfo.IsConv; infer_instance

/-- The address after the last byte of a descriptor's range. -/
def MemDesc.last (d : MemDesc) : Nat := d.phys + d.pages * pageSize

/-- Page `p` lies inside the range of a descriptor. -/
def MemDesc.HasPage (d : MemDesc) (p : Nat) : Prop :=
  d.phys ≤ p * pageSize ∧ (p + 1) * pageSize ≤ d.last

instance (d : MemDesc) (p : Nat) : Decidable (d.HasPage p) := by
  unfold MemDesc.HasPage; infer_instance

/-- Page `p` lies inside ConventionalMemory. -/
def BootInfo.ConvPage (bi : BootInfo) (p : Nat) : Prop :=
  ∃ i < bi.count, (bi.desc i).type = conventionalMemory ∧ (bi.desc i).HasPage p

instance (bi : BootInfo) (p : Nat) : Decidable (bi.ConvPage p) := by
  unfold BootInfo.ConvPage; infer_instance

/-- Every descriptor starts on a page. -/
def BootInfo.Aligned (bi : BootInfo) : Prop :=
  ∀ i < bi.count, (bi.desc i).phys % pageSize = 0

/-- No descriptor runs past the end of the 64-bit address space. -/
def BootInfo.InSpace (bi : BootInfo) : Prop :=
  ∀ i < bi.count, (bi.desc i).last < 2 ^ 64

/-- Address `a` lies in the range of a descriptor. -/
def MemDesc.Has (d : MemDesc) (a : Nat) : Prop := d.phys ≤ a ∧ a < d.last

/-- No two descriptors share an address. -/
def BootInfo.Disjoint (bi : BootInfo) : Prop :=
  ∀ i < bi.count, ∀ j < bi.count, i ≠ j → ∀ a, (bi.desc i).Has a → ¬ (bi.desc j).Has a

end TRS.Memory
