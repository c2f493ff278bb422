import TRS.Console.Basic
import TRS.Lib.Pixels

/-!
# What the console paints

The loops of `kernel/driver/image.c` over the words of the framebuffer, each as a function on them:
the scroll, the glyph and the clear. The rest of the memory stays.

* `scroll_holds`: the scroll moves the words by one text line and fills the last ones.
* `paint_holds`: the glyph puts its colours into the words of its cell.
* `clear_holds`: the clear fills all words.

Each is by the invariant rule of its loop, over `Holds`, which says what the words are and that no
other byte has changed.
-/

namespace TRS.Console
open TRS.Lib TRS.Libc

/-- A framebuffer with whole words in its lines, at least as many as pixels, and of less than 4 GiB,
    and a font whose glyphs fit on it. -/
structure Display.Framed (d : Display) : Prop where
  words : d.fb.pitch % 4 = 0
  wide : d.fb.width ≤ d.fb.pitch / 4
  small : d.fb.height * d.fb.pitch < 2 ^ 32
  width_pos : 0 < d.font.width
  width_le : d.font.width ≤ d.fb.width
  height_pos : 0 < d.font.height
  height_le : d.font.height ≤ d.fb.height

/-- A framebuffer with lines as long as their pixels, whose words an `unsigned int` numbers. -/
structure Display.Indexed (d : Display) : Prop where
  wide : d.fb.width ≤ d.fb.pitch / 4
  index : d.fb.height * (d.fb.pitch / 4) ≤ 2 ^ 32

/-- A pixel's index gives back its row and its column. -/
lemma index_iff {q x : Nat} (lt : x < q) (y k : Nat) : k = y * q + x ↔ k / q = y ∧ k % q = x := by
  constructor
  · rintro rfl
    rw [Nat.mul_comm, Nat.mul_add_div (Nat.zero_lt_of_lt lt), Nat.div_eq_of_lt lt, Nat.add_zero,
      Nat.mul_add_mod, Nat.mod_eq_of_lt lt]
    exact ⟨rfl, rfl⟩
  · rintro ⟨rfl, rfl⟩
    rw [Nat.mul_comm, Nat.div_add_mod]

namespace Display

section
variable (d : Display)

/-- The number of words in a line of the framebuffer. -/
def stride : Nat := d.fb.pitch / 4

/-- The number of words in the framebuffer. -/
def total : Nat := d.fb.height * d.stride

/-- The colour of a pixel of the screen. -/
def pixel (s : Screen) (y x : Nat) : Pixel := s.mem.load32 (d.fb.base + 4 * (y * d.stride + x))

end

variable {d : Display} {m₀ m : Mem} {w : Nat → Pixel}

namespace Framed
variable (h : d.Framed)
include h

/-- A line has a whole number of words. -/
lemma pitch_eq : d.fb.pitch = 4 * d.stride := by
  have := h.words
  unfold stride
  omega

/-- It has at least one. -/
lemma stride_pos : 0 < d.stride :=
  Nat.lt_of_lt_of_le h.width_pos (Nat.le_trans h.width_le h.wide)

/-- The number of words that a scroll runs over. -/
lemma total_eq : u32 (d.fb.height * d.fb.pitch) / 4 = d.total := by
  rw [u32_of_lt h.small, h.pitch_eq, Nat.mul_left_comm, Nat.mul_div_cancel_left _ (by decide)]
  rfl

/-- The number of words that a scroll moves by. -/
lemma line_eq : u32 (d.font.height * d.fb.pitch) / 4 = d.font.height * d.stride := by
  have small := Nat.lt_of_le_of_lt (Nat.mul_le_mul_right d.fb.pitch h.height_le) h.small
  rw [u32_of_lt small, h.pitch_eq, Nat.mul_left_comm, Nat.mul_div_cancel_left _ (by decide)]

/-- It is no larger than the number of all words. -/
lemma line_le : d.font.height * d.stride ≤ d.total := Nat.mul_le_mul_right _ h.height_le

/-- There are fewer than 2^30 words. -/
lemma total_lt : d.total < 2 ^ 30 := by
  have small := h.small
  rw [h.pitch_eq, Nat.mul_left_comm] at small
  unfold total
  omega

/-- The number of words that `dsp_clear` fills. -/
lemma clear_eq : u32 (d.fb.pitch / 4 * d.fb.height) = d.total := by
  rw [Nat.mul_comm]
  exact u32_of_lt (Nat.lt_trans h.total_lt (by decide))

/-- So the height is below 2^30. -/
lemma height_lt : d.fb.height < 2 ^ 30 :=
  Nat.lt_of_le_of_lt (Nat.le_mul_of_pos_right _ h.stride_pos) h.total_lt

/-- And so is the width. -/
lemma width_lt : d.fb.width < 2 ^ 30 := by
  refine Nat.lt_of_le_of_lt h.wide (Nat.lt_of_le_of_lt ?_ h.total_lt)
  exact Nat.le_mul_of_pos_left _ (Nat.lt_of_lt_of_le h.height_pos h.height_le)

/-- An `unsigned int` numbers the words. -/
lemma indexed : d.Indexed := ⟨h.wide, Nat.le_of_lt (Nat.lt_trans h.total_lt (by decide))⟩

end Framed

/-- The colour of a pixel, over the words of the framebuffer. -/
lemma pixel_eq (wide : d.fb.width ≤ d.stride) {s : Screen}
    (holds : Holds m₀ d.fb.base d.total w s.mem) {y x : Nat} (ly : y < d.fb.height)
    (lx : x < d.fb.width) : d.pixel s y x = w (y * d.stride + x) := by
  have row : (y + 1) * d.stride ≤ d.total := Nat.mul_le_mul_right _ ly
  rw [Nat.succ_mul] at row
  exact holds.words _ (by omega)

/-- The scroll moves the lines up by the height of a glyph and fills the last ones with
    background. -/
lemma scroll_holds (h : d.Framed) (holds : Holds m₀ d.fb.base d.total w m) :
    Holds m₀ d.fb.base d.total
      (fun k =>
        if k + d.font.height * d.stride < d.total then w (k + d.font.height * d.stride) else d.bg)
      (d.scroll m) := by
  have le := h.line_le
  have lt := h.total_lt
  unfold scroll
  rw [h.total_eq, h.line_eq]
  dsimp only
  generalize d.font.height * d.stride = l at le ⊢
  rw [memmove_eq, sub64_of_le le (by omega), u64_of_lt (by omega)]
  refine Holds.congr (forRange_induct
    (fun i m => Holds m₀ d.fb.base d.total
      (fun k => if d.total < k + i then d.bg else if k + l < d.total then w (k + l) else w k) m)
    (Nat.le_add_left 1 l)
    ((holds.moved le).congr fun k lk => (if_neg (by omega)).symm)
    fun i m ge li ih => ?_) fun k lk => ?_
  rotate_left
  · by_cases c : k + l < d.total
    · rw [if_neg (by omega), if_pos c, if_pos c]
    · rw [if_pos (by omega), if_neg c]
  · unfold setPixel
    rw [sub64_of_le (by omega) (by omega)]
    refine (ih.store (p := d.total - i) (by omega) d.bg).congr fun k lk => ?_
    by_cases e : k = d.total - i
    · rw [if_pos e, if_pos (by omega)]
    · rw [if_neg e]
      by_cases c : d.total < k + i
      · rw [if_pos c, if_pos (by omega)]
      · rw [if_neg c, if_neg (show ¬ d.total < k + (i + 1) by omega)]

/-- A pixel that is on the framebuffer is painted. -/
lemma paintPixel_eq (h : d.Indexed) {Y X i j : Nat} (ly : Y + i < d.fb.height)
    (lx : X + j < d.fb.width) (glyph : Byte) (m : Mem) :
    d.paintPixel Y X glyph i j m =
      d.setPixel m ((Y + i) * d.stride + (X + j)) (d.color glyph i j) := by
  have wide : X + j < d.stride := Nat.lt_of_lt_of_le lx h.wide
  have row : (Y + i + 1) * d.stride ≤ 2 ^ 32 :=
    Nat.le_trans (Nat.mul_le_mul_right _ ly) h.index
  have line : Y + i ≤ (Y + i) * d.stride := Nat.le_mul_of_pos_right _ (Nat.zero_lt_of_lt wide)
  rw [Nat.succ_mul] at row
  unfold paintPixel
  rw [show ((X : Int) + (j : Int)) = ((X + j : Nat) : Int) from rfl,
    show ((Y : Int) + (i : Int)) = ((Y + i : Nat) : Int) from rfl, toU32_natCast (by omega),
    toU32_natCast (by omega)]
  dsimp only
  rw [if_pos ⟨lx, ly⟩]
  change d.setPixel m (u32 (u32 ((Y + i) * d.stride) + (X + j))) _ = _
  rw [u32_of_lt (n := (Y + i) * d.stride) (by omega), u32_of_lt (by omega)]

/-- One row of a glyph puts its colours into the pixels of that row of the cell. -/
lemma paintRow_holds (h : d.Indexed) {Y X i : Nat} (ly : Y + i < d.fb.height)
    (lx : X + d.font.width ≤ d.fb.width) (glyph : Byte) (holds : Holds m₀ d.fb.base d.total w m) :
    Holds m₀ d.fb.base d.total
      (fun k => if k / d.stride = Y + i ∧ X ≤ k % d.stride ∧ k % d.stride < X + d.font.width then
        d.color glyph i (k % d.stride - X) else w k)
      (forRange 0 d.font.width (fun j m => d.paintPixel Y X glyph i j m) m) := by
  refine forRange_induct (fun j m => Holds m₀ d.fb.base d.total
    (fun k => if k / d.stride = Y + i ∧ X ≤ k % d.stride ∧ k % d.stride < X + j then
      d.color glyph i (k % d.stride - X) else w k) m) (Nat.zero_le _)
    (holds.congr fun k _ => (if_neg (by omega)).symm) fun j m _ lj ih => ?_
  have lx' : X + j < d.stride := Nat.lt_of_lt_of_le (by omega) h.wide
  have row : (Y + i + 1) * d.stride ≤ d.total := Nat.mul_le_mul_right _ ly
  rw [Nat.succ_mul] at row
  rw [paintPixel_eq h ly (by omega)]
  refine (ih.store (by omega) _).congr fun k lk => ?_
  have place := index_iff lx' (Y + i) k
  by_cases e : k / d.stride = Y + i ∧ k % d.stride = X + j
  · rw [if_pos (place.mpr e), if_pos (by omega), e.2, Nat.add_sub_cancel_left]
  · rw [if_neg fun c => e (place.mp c)]
    by_cases c : k / d.stride = Y + i ∧ X ≤ k % d.stride ∧ k % d.stride < X + j
    · rw [if_pos c, if_pos (by omega)]
    · rw [if_neg c, if_neg (by omega)]

/-- A glyph fills its rectangle. -/
lemma paint_holds (h : d.Indexed) {Y X : Nat} (ly : Y + d.font.height ≤ d.fb.height)
    (lx : X + d.font.width ≤ d.fb.width) (glyph : Byte) (holds : Holds m₀ d.fb.base d.total w m) :
    Holds m₀ d.fb.base d.total
      (fun k => if (Y ≤ k / d.stride ∧ k / d.stride < Y + d.font.height) ∧
          (X ≤ k % d.stride ∧ k % d.stride < X + d.font.width) then
        d.color glyph (k / d.stride - Y) (k % d.stride - X) else w k)
      (d.paint Y X glyph m) := by
  refine forRange_induct (fun i m => Holds m₀ d.fb.base d.total
    (fun k => if (Y ≤ k / d.stride ∧ k / d.stride < Y + i) ∧
        (X ≤ k % d.stride ∧ k % d.stride < X + d.font.width) then
      d.color glyph (k / d.stride - Y) (k % d.stride - X) else w k) m) (Nat.zero_le _)
    (holds.congr fun k _ => (if_neg (by omega)).symm) fun i m _ li ih => ?_
  refine (paintRow_holds h (show Y + i < d.fb.height by omega) lx glyph ih).congr fun k lk => ?_
  by_cases e : k / d.stride = Y + i ∧ X ≤ k % d.stride ∧ k % d.stride < X + d.font.width
  · rw [if_pos e, if_pos (by omega), e.1, Nat.add_sub_cancel_left]
  · rw [if_neg e]
    by_cases c : (Y ≤ k / d.stride ∧ k / d.stride < Y + i) ∧
        (X ≤ k % d.stride ∧ k % d.stride < X + d.font.width)
    · rw [if_pos c, if_pos (by omega)]
    · rw [if_neg c, if_neg (by omega)]

/-- `dsp_clear` fills the framebuffer with background. -/
lemma clear_holds (h : d.Framed) (s : Screen) :
    Holds s.mem d.fb.base d.total (fun _ => d.bg) (d.dspClear s).mem := by
  unfold dspClear
  rw [h.clear_eq]
  refine Holds.congr (forRange_induct
    (fun i m => Holds s.mem d.fb.base d.total
      (fun k => if k < i then d.bg else s.mem.load32 (d.fb.base + 4 * k)) m)
    (Nat.zero_le _)
    ((Holds.self s.mem _ _).congr fun k _ => (if_neg (Nat.not_lt_zero k)).symm)
    fun i m _ li ih => (ih.store li d.bg).congr fun k _ => ?_) fun k lk => if_pos lk
  by_cases e : k = i
  · rw [if_pos e, if_pos (by omega)]
  · rw [if_neg e]
    by_cases c : k < i
    · rw [if_pos c, if_pos (by omega)]
    · rw [if_neg c, if_neg (by omega)]

end Display

end TRS.Console
