import TRS.Lib.Pixels

/-!
# Memory functions

`memcpy` and `memmove` of `libc/string.c`, on a byte-addressed memory. `memcpy` copies bytes up to
an aligned destination, then blocks and words if the source is aligned too, then bytes; `memmove`
has it copy upwards, and copies downwards itself.

* `Copied`: a part of the copy is the move of as many bytes, and parts compose by `Copied.trans`.
* `loop`: a loop whose rounds are such parts is one.
* `memcpy_eq`, `copyDown_eq`, `memmove_eq`: the functions move the bytes, if the copy is upward or
  the ranges lie the other way.

The headline `copies_exactly` says so of any addresses and lengths.
-/

namespace TRS.Libc
open TRS.Lib

/-- The variables of `memcpy`: the memory, the pointers `d` and `s`, and `len`. -/
structure Copy where
  mem : Mem
  d : Nat
  s : Nat
  len : Nat

namespace Copy

/-- `*d++ = *s++; len--`. -/
def byte (c : Copy) : Copy := ⟨c.mem.write c.d (c.mem c.s), c.d + 1, c.s + 1, c.len - 1⟩

/-- `*d32++ = *s32++; len -= 4`. -/
def word (c : Copy) : Copy :=
  ⟨c.mem.store32 c.d (c.mem.load32 c.s), c.d + 4, c.s + 4, c.len - 4⟩

/-- `d32[0] = s32[0]` to `d32[7] = s32[7]`, then the pointers and `len` by 32 bytes. -/
def block (c : Copy) : Copy :=
  ⟨forRange 0 8 (fun i m => m.store32 (c.d + 4 * i) (m.load32 (c.s + 4 * i))) c.mem,
    c.d + 32, c.s + 32, c.len - 32⟩

/-- A loop of `memcpy`, with at most `n` rounds. -/
def loop (more : Copy → Bool) (round : Copy → Copy) : (n : Nat) → Copy → Copy
  | 0, c => c
  | n + 1, c => if more c then loop more round n (round c) else c

end Copy

/-- `memcpy(dst, src, len)`. Each round takes some of `len`, so that no loop has more than `len`. -/
def memcpy (m : Mem) (dst src len : Nat) : Mem :=
  let c := Copy.loop (fun c => c.len > 0 && c.d &&& 3 != 0) Copy.byte len ⟨m, dst, src, len⟩
  let sIsAligned := c.s &&& 3 == 0
  let c := Copy.loop (fun c => c.len ≥ 32 && sIsAligned) Copy.block len c
  let c := Copy.loop (fun c => c.len ≥ 4 && sIsAligned) Copy.word len c
  let c := Copy.loop (fun c => c.len > 0) Copy.byte len c
  c.mem

/-- The loop of `memmove` that copies downwards, with `len` bytes left. -/
def copyDown (dst src : Nat) : (len : Nat) → Mem → Mem
  | 0, m => m
  | n + 1, m => copyDown dst src n (m.write (dst + n) (m (src + n)))

/-- `memmove(dst, src, len)`. -/
def memmove (m : Mem) (dst src len : Nat) : Mem :=
  if dst > src then copyDown dst src len m
  else if dst < src then memcpy m dst src len
  else m

/-! ## Specifications -/

/-- From `c` on, `c'` has copied some of the bytes that were left. -/
structure Copied (c c' : Copy) (k : Nat) : Prop where
  mem : c'.mem = c.mem.moved c.d c.s k
  d : c'.d = c.d + k
  s : c'.s = c.s + k
  len : c'.len + k = c.len

namespace Copied
variable {c c' c'' : Copy} {j k : Nat}

lemma refl (c : Copy) : Copied c c 0 where
  mem := by
    funext a
    exact (if_neg (by omega)).symm
  d := rfl
  s := rfl
  len := rfl

/-- One part of the copy after the other. -/
lemma trans (up : Mem.Upwards c.d c.s c.len) (h : Copied c c' j) (h' : Copied c' c'' k) :
    Copied c c'' (j + k) where
  mem := by
    have up : Mem.Upwards c.d c.s (j + k + c''.len) := by
      rwa [← h.len, ← h'.len, show c''.len + k + j = j + k + c''.len by omega] at up
    rw [h'.mem, h.mem, h.d, h.s, Mem.moved_moved _ up.take]
  d := by rw [h'.d, h.d, Nat.add_assoc]
  s := by rw [h'.s, h.s, Nat.add_assoc]
  len := by
    have := h.len
    have := h'.len
    omega

/-- What is left is copied upwards as well. -/
lemma upwards (up : Mem.Upwards c.d c.s c.len) (h : Copied c c' k) :
    Mem.Upwards c'.d c'.s c'.len := by
  rw [h.d, h.s]
  rw [← h.len, Nat.add_comm] at up
  exact up.drop

/-- A round of one byte. -/
lemma byte (pos : 1 ≤ c.len) : Copied c c.byte 1 where
  mem := Mem.write_eq_moved ..
  d := rfl
  s := rfl
  len := Nat.sub_add_cancel pos

/-- A round of one word. -/
lemma word (more : 4 ≤ c.len) : Copied c c.word 4 where
  mem := Mem.store32_load32 ..
  d := rfl
  s := rfl
  len := Nat.sub_add_cancel more

/-- A round of eight words. -/
lemma block (up : Mem.Upwards c.d c.s c.len) (more : 32 ≤ c.len) : Copied c c.block 32 where
  mem := by
    refine forRange_induct (fun i m => m = c.mem.moved c.d c.s (4 * i)) (Nat.zero_le 8)
      (refl c).mem fun i m _ lt e => ?_
    have up : Mem.Upwards c.d c.s (4 * i + 4 + (c.len - (4 * i + 4))) := by
      rwa [Nat.add_sub_cancel' (by omega)]
    rw [e, Mem.store32_load32, Mem.moved_moved _ up.take]
    rfl
  d := rfl
  s := rfl
  len := Nat.sub_add_cancel more

/-- A loop whose rounds copy copies. -/
lemma loop (more : Copy → Bool) (round : Copy → Copy)
    (step : ∀ c, Mem.Upwards c.d c.s c.len → more c → ∃ k, Copied c (round c) k) (n : Nat)
    {c : Copy} (up : Mem.Upwards c.d c.s c.len) : ∃ k, Copied c (Copy.loop more round n c) k := by
  induction n generalizing c with
  | zero => exact ⟨0, refl c⟩
  | succ n ih =>
    rw [Copy.loop]
    split
    · obtain ⟨k, first⟩ := step c up ‹_›
      obtain ⟨j, rest⟩ := ih (first.upwards up)
      exact ⟨k + j, first.trans up rest⟩
    · exact ⟨0, refl c⟩

end Copied

/-- The last loop of `memcpy` copies all the bytes that are left. -/
lemma loop_byte_len (n : Nat) {c : Copy} (le : c.len ≤ n) :
    (Copy.loop (fun c => c.len > 0) Copy.byte n c).len = 0 := by
  induction n generalizing c with
  | zero => exact Nat.le_zero.mp le
  | succ n ih =>
    rw [Copy.loop]
    split
    · exact ih (c := c.byte) (by simp only [Copy.byte]; omega)
    · rename_i none
      simpa using none

/-- `memcpy` moves the bytes to a lower address, also where the ranges overlap, and to any address
    where they do not. -/
theorem memcpy_eq (m : Mem) {dst src len : Nat} (up : Mem.Upwards dst src len) :
    memcpy m dst src len = m.moved dst src len := by
  unfold memcpy
  dsimp only
  -- each of the four loops copies some of the bytes, whatever the alignment of the source
  obtain ⟨k1, h1⟩ := Copied.loop (fun c => c.len > 0 && c.d &&& 3 != 0) Copy.byte
    (fun c _ more => ⟨1, .byte (by simp at more; omega)⟩) len (c := ⟨m, dst, src, len⟩) up
  generalize Copy.loop _ Copy.byte len _ = c1 at h1 ⊢
  generalize (c1.s &&& 3 == 0) = aligned
  obtain ⟨k2, h2⟩ := Copied.loop (fun c => c.len ≥ 32 && aligned) Copy.block
    (fun c up more => ⟨32, .block up (by simp at more; omega)⟩) len (h1.upwards up)
  generalize Copy.loop _ Copy.block len _ = c2 at h2 ⊢
  have h12 := h1.trans up h2
  obtain ⟨k3, h3⟩ := Copied.loop (fun c => c.len ≥ 4 && aligned) Copy.word
    (fun c _ more => ⟨4, .word (by simp at more; omega)⟩) len (h12.upwards up)
  generalize Copy.loop _ Copy.word len _ = c3 at h3 ⊢
  have h123 := h12.trans up h3
  obtain ⟨k4, h4⟩ := Copied.loop (fun c => c.len > 0) Copy.byte
    (fun c _ more => ⟨1, .byte (by simp at more; omega)⟩) len (h123.upwards up)
  have all := h123.trans up h4
  -- the last loop leaves none, so that together they have copied all of them
  have ended := loop_byte_len len (c := c3) (by
    have := h123.len
    dsimp only at this
    omega)
  have total := all.len
  rw [ended, Nat.zero_add] at total
  rw [all.mem, total]

/-- The loop that copies downwards moves the bytes to a higher address. -/
lemma copyDown_eq {dst src : Nat} (le : src ≤ dst) (len : Nat) (m : Mem) :
    copyDown dst src len m = m.moved dst src len := by
  induction len generalizing m with
  | zero =>
    funext a
    exact (Mem.moved_kept _ _ (by omega)).symm
  | succ n ih =>
    rw [copyDown, ih]
    funext a
    by_cases out : a < dst ∨ dst + (n + 1) ≤ a
    · rw [Mem.moved_kept _ _ out, Mem.moved_kept _ _ (by omega)]
      exact if_neg (by omega)
    · obtain ⟨i, rfl⟩ := Nat.exists_eq_add_of_le (show dst ≤ a by omega)
      rw [Mem.moved_copied m dst src (show i < n + 1 by omega)]
      -- the last byte has been written, and the bytes below it have not
      by_cases below : i < n
      · rw [Mem.moved_copied _ _ _ below]
        exact if_neg (by omega)
      · obtain rfl : i = n := by omega
        rw [Mem.moved_kept _ _ (by omega)]
        exact if_pos rfl

/-- `memmove` moves the bytes. -/
theorem memmove_eq (m : Mem) (dst src len : Nat) : memmove m dst src len = m.moved dst src len := by
  unfold memmove
  split
  · exact copyDown_eq (by omega) len m
  · split
    · exact memcpy_eq m (.inl (by omega))
    · obtain rfl : dst = src := by omega
      funext a
      by_cases out : a < dst ∨ dst + len ≤ a
      · exact (Mem.moved_kept _ _ out).symm
      · obtain ⟨i, rfl⟩ := Nat.exists_eq_add_of_le (show dst ≤ a by omega)
        exact (Mem.moved_copied _ _ _ (by omega)).symm

/-- `m'` has at `dst` the `len` bytes that `m` has at `src`, and is `m` elsewhere. -/
structure CopyOf (m : Mem) (dst src len : Nat) (m' : Mem) : Prop where
  copied : ∀ i < len, m' (dst + i) = m (src + i)
  kept : ∀ a, ¬ (dst ≤ a ∧ a < dst + len) → m' a = m a

/-- To move the bytes is to copy them. -/
lemma copyOf_moved (m : Mem) (dst src len : Nat) : CopyOf m dst src len (m.moved dst src len) where
  copied _ lt := Mem.moved_copied _ _ _ lt
  kept _ out := if_neg out

/-- `memmove` copies exactly, however the ranges overlap; so does `memcpy` if the ranges are
    disjoint or the destination is the lower one. -/
theorem copies_exactly (m : Mem) (dst src len : Nat) :
    CopyOf m dst src len (memmove m dst src len) ∧
      (dst + len ≤ src ∨ src + len ≤ dst ∨ dst < src →
        CopyOf m dst src len (memcpy m dst src len)) := by
  constructor
  · rw [memmove_eq]
    exact copyOf_moved m dst src len
  · intro ranges
    have up : Mem.Upwards dst src len := by
      rcases ranges with below | above | lower
      · exact .inl (by omega)
      · exact .inr above
      · exact .inl (Nat.le_of_lt lower)
    rw [memcpy_eq m up]
    exact copyOf_moved m dst src len

/-- An upward copy over its own source. -/
theorem copies_exactly_overlapping :
    CopyOf (BitVec.ofNat 8) 1 3 40 (memcpy (BitVec.ofNat 8) 1 3 40) :=
  (copies_exactly (BitVec.ofNat 8) 1 3 40).2 (.inr (.inr (by decide)))

end TRS.Libc
