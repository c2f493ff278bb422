import Mathlib.Data.Nat.Bitwise
import TRS.Console.Grid
import TRS.Console.Paint

/-!
# The picture of a grid

`Display.picture` is what the pixels of a grid should be: in each cell the bitmap that the font has
for its character, background elsewhere. The bits of a bitmap are those of its rows of two bytes,
the leftmost pixel in the highest bit of the first one (`Display.fontBit`).

`Display.render` is the picture with the bitmaps where `dsp_putchar` looks for them, at an offset of
32 bits. `Display.render_eq_picture` connects the two as far as this offset reaches;
`Display.render_scroll` and `Display.render_show` say what a scroll and one more character make of
the picture, by cases on the row and the cell of a pixel.
-/

namespace TRS.Console
open TRS.Lib TRS.Libc

/-- A framebuffer with whole words in its lines, at least as many as pixels, and of less than 4 GiB,
    and a font of two bytes a row whose glyphs fit on it. -/
structure Display.Fits (d : Display) : Prop where
  words : d.fb.pitch % 4 = 0
  wide : d.fb.width ≤ d.fb.pitch / 4
  small : d.fb.height * d.fb.pitch < 2 ^ 32
  width_pos : 0 < d.font.width
  width_le : d.font.width ≤ d.fb.width
  height_pos : 0 < d.font.height
  height_le : d.font.height ≤ d.fb.height
  twoBytes : d.font.charsize / d.font.height = 2
  bits : d.font.width ≤ 16

namespace Display
variable (d : Display)

/-- The rows and columns of the grid. -/
def rows : Nat := d.fb.height / d.font.height
def cols : Nat := d.fb.width / d.font.width

/-- Whether the bitmap of `c` has a pixel in column `j` of row `i`, in a font with rows of `bytes`
    bytes: columns go from the highest bit of a row's first byte on. -/
def fontBit (bytes : Nat) (c : Byte) (i j : Nat) : Bool :=
  (d.fontBytes (d.font.headersize + c.toNat * d.font.charsize + (i * bytes + j / 8))).getLsbD
    (7 - j % 8)

/-- The character of the font that stands for `c`: `'?'` for those that the font lacks. -/
def shownAs (c : Byte) : Byte := if c.toNat < d.font.length then c else question

/-- The bitmap that is shown for `c` begins less than 2^32 bytes behind the first one. -/
def Reaches (c : Byte) : Prop := (d.shownAs c).toNat * d.font.charsize < 2 ^ 32

/-- A pixel of a cell, by the bitmaps of the font. -/
def bitmapPixel (cell : Cell) (i j : Nat) : Pixel :=
  match cell with
  | none => d.bg
  | some c => if d.fontBit 2 (d.shownAs c) i j then d.fg else d.bg

/-- A pixel of the picture of a grid: of a cell, or else of the background. -/
def picture (g : Grid) (y x : Nat) : Pixel :=
  if y < d.rows * d.font.height ∧ x < d.cols * d.font.width then
    d.bitmapPixel (g.cell (y / d.font.height) (x / d.font.width)) (y % d.font.height)
      (x % d.font.width)
  else d.bg

/-- Whether the code finds a pixel of a glyph in column `j` of row `i`. -/
def glyphBit (glyph : Byte) (i j : Nat) : Bool :=
  (d.glyphData glyph (2 * i + j / 8)).getLsbD (7 - j % 8)

/-- A pixel of a cell, by the bits that the code finds. -/
def cellPixel (cell : Cell) (i j : Nat) : Pixel :=
  match cell with
  | none => d.bg
  | some c => if d.glyphBit (d.glyphOf c) i j then d.fg else d.bg

/-- A pixel of a grid as the code shows it: of a cell, or else of the background. -/
def render (g : Grid) (y x : Nat) : Pixel :=
  if y < d.rows * d.font.height ∧ x < d.cols * d.font.width then
    d.cellPixel (g.cell (y / d.font.height) (x / d.font.width)) (y % d.font.height)
      (x % d.font.width)
  else d.bg

variable {d}

/-- The code finds the bits of a bitmap that its offset reaches. -/
lemma glyphBit_eq {c : Byte} (reach : c.toNat * d.font.charsize < 2 ^ 32) (i j : Nat) :
    d.glyphBit c i j = d.fontBit 2 c i j := by
  unfold glyphBit glyphData fontBit
  rw [u32_of_lt reach, Nat.mul_comm 2 i]

/-- The code shows the character that stands for `c`. -/
lemma glyphOf_eq (c : Byte) : d.glyphOf c = d.shownAs c := by
  unfold glyphOf shownAs
  by_cases lt : c.toNat < d.font.length
  · rw [if_pos lt, if_neg (by omega)]
  · rw [if_neg lt, if_pos (by omega)]

/-- A grid of characters in reach is shown as its picture. -/
lemma render_eq_picture {g : Grid} (reach : ∀ r k c, g.cell r k = some c → d.Reaches c)
    (y x : Nat) : d.render g y x = d.picture g y x := by
  unfold render picture
  cases e : g.cell (y / d.font.height) (x / d.font.width) with
  | none => rfl
  | some c =>
    have bits := glyphBit_eq (reach _ _ c e)
    simp only [cellPixel, bitmapPixel, glyphOf_eq, bits]

/-- Such a display has its framebuffer and its font in order. -/
lemma Fits.framed (h : d.Fits) : d.Framed where
  words := h.words
  wide := h.wide
  small := h.small
  width_pos := h.width_pos
  width_le := h.width_le
  height_pos := h.height_pos
  height_le := h.height_le

lemma Framed.rows_pos (h : d.Framed) : 0 < d.rows := Nat.div_pos h.height_le h.height_pos

lemma Framed.cols_pos (h : d.Framed) : 0 < d.cols := Nat.div_pos h.width_le h.width_pos

/-- The test of a bit of a glyph row is one of a bit of its first or second byte. -/
lemma testBit_row (hi lo : Byte) {j : Nat} (lt : j < 16) :
    (hi.toNat <<< 8 ||| lo.toNat) &&& (0x8000 >>> j) ≠ 0 ↔
      (if j < 8 then hi else lo).getLsbD (7 - j % 8) = true := by
  have mask : ∀ j < 16, 0x8000 >>> j = 2 ^ (15 - j) := by decide
  have bit : ∀ b : Byte, ∀ i, b.toNat.testBit i = b.getLsbD i := fun _ _ => rfl
  rw [mask j lt, Nat.and_two_pow]
  have one : ∀ b : Bool, b.toNat * 2 ^ (15 - j) ≠ 0 ↔ b = true := by
    rintro (_ | _) <;> simp
  rw [one, Nat.testBit_or, Nat.testBit_shiftLeft, bit, bit]
  by_cases c : j < 8
  · rw [if_pos c, show 7 - j % 8 = 15 - j - 8 by omega, BitVec.getLsbD_of_ge lo (15 - j) (by omega)]
    simp [show 15 - j ≥ 8 by omega]
  · rw [if_neg c, show 7 - j % 8 = 15 - j by omega]
    simp [show ¬ 15 - j ≥ 8 by omega]

/-- The colours of a glyph with rows of two bytes are those of its bits. -/
lemma color_eq (two : d.font.charsize / d.font.height = 2) (glyph : Byte) {i j : Nat}
    (li : i < 2 ^ 31) (lj : j < 16) :
    d.color glyph i j = if d.glyphBit glyph i j then d.fg else d.bg := by
  have row : d.glyphLine glyph i =
      (d.glyphData glyph (2 * i)).toNat <<< 8 ||| (d.glyphData glyph (2 * i + 1)).toNat := by
    unfold glyphLine
    rw [two, u32_of_lt (n := i * 2) (by omega), u32_of_lt (by omega), Nat.mul_comm]
    rfl
  have bit := testBit_row (d.glyphData glyph (2 * i)) (d.glyphData glyph (2 * i + 1)) lj
  have byte : d.glyphData glyph (2 * i + j / 8) =
      if j < 8 then d.glyphData glyph (2 * i) else d.glyphData glyph (2 * i + 1) := by
    by_cases c : j < 8
    · rw [if_pos c, show j / 8 = 0 by omega]
      rfl
    · rw [if_neg c, show j / 8 = 1 by omega]
  unfold color glyphBit
  rw [row, byte]
  simp only [bit]

/-- A row of cells lies on the screen. -/
lemma row_fits {r : Nat} (lt : r < d.rows) : r * d.font.height + d.font.height ≤ d.fb.height := by
  rw [← Nat.succ_mul]
  exact Nat.le_trans (Nat.mul_le_mul_right _ lt) (Nat.div_mul_le_self ..)

/-- So does a column of cells. -/
lemma col_fits {c : Nat} (lt : c < d.cols) : c * d.font.width + d.font.width ≤ d.fb.width := by
  rw [← Nat.succ_mul]
  exact Nat.le_trans (Nat.mul_le_mul_right _ lt) (Nat.div_mul_le_self ..)

end Display

/-- A number lies in the `r`-th interval of length `h`. -/
lemma interval_iff {h : Nat} (pos : 0 < h) (r y : Nat) : r * h ≤ y ∧ y < r * h + h ↔ y / h = r := by
  rw [Nat.div_eq_iff pos]
  omega

/-! ## Pictures of changed grids -/

namespace Display
variable {d : Display}

/-- The picture after a scroll: that of the rows below, and background. -/
lemma render_scroll (h : d.Fits) (g : Grid) {y x : Nat} (full : d.rows ≤ g.row) :
    (if y + d.font.height < d.fb.height then d.render g (y + d.font.height) x else d.bg) =
      d.render (g.scroll d.rows) y x := by
  have pos := h.height_pos
  have div : (y + d.font.height) / d.font.height = y / d.font.height + 1 := Nat.add_div_right y pos
  have mod : (y + d.font.height) % d.font.height = y % d.font.height := Nat.add_mod_right ..
  have below : y / d.font.height + 1 < d.rows ↔ y + d.font.height < d.rows * d.font.height := by
    rw [← div, Nat.div_lt_iff_lt_mul pos]
  have onFb : d.rows * d.font.height ≤ d.fb.height := Nat.div_mul_le_self ..
  unfold render Grid.scroll
  rw [if_pos full, div, mod]
  dsimp only
  by_cases b : y + d.font.height < d.rows * d.font.height
  · rw [if_pos (by omega), if_pos (below.mpr b)]
    have y' : y < d.rows * d.font.height := by omega
    simp only [b, y', true_and]
  · rw [if_neg fun c => b (below.mp c)]
    have none_ : ¬ (y + d.font.height < d.rows * d.font.height ∧ x < d.cols * d.font.width) :=
      fun c => b c.1
    rw [if_neg none_, ite_self]
    exact (ite_self _).symm

/-- The picture with one more character: its glyph in the rectangle of the cell. -/
lemma render_show (h : d.Fits) {g : Grid} (inCell : g.InCell d.rows d.cols) (c : Byte) (y x : Nat) :
    d.render (g.show_ c) y x =
      if (g.row * d.font.height ≤ y ∧ y < g.row * d.font.height + d.font.height) ∧
          (g.col * d.font.width ≤ x ∧ x < g.col * d.font.width + d.font.width) then
        d.cellPixel (some c) (y - g.row * d.font.height) (x - g.col * d.font.width)
      else d.render g y x := by
  simp only [interval_iff h.height_pos, interval_iff h.width_pos]
  unfold render Grid.show_
  dsimp only
  by_cases here : y / d.font.height = g.row ∧ x / d.font.width = g.col
  · have ry : y < d.rows * d.font.height := by
      rw [← Nat.div_lt_iff_lt_mul h.height_pos, here.1]
      exact inCell.1
    have cx : x < d.cols * d.font.width := by
      rw [← Nat.div_lt_iff_lt_mul h.width_pos, here.2]
      exact inCell.2
    rw [if_pos ⟨ry, cx⟩, if_pos here, if_pos here, ← here.1, ← here.2]
    rw [Nat.mod_eq_sub_div_mul, Nat.mod_eq_sub_div_mul]
  · rw [if_neg here, if_neg here]

end Display

end TRS.Console
