import TRS.Console.Visible

/-!
# The bitmaps of the font

What `dsp_putchar` shows of a glyph of the font, for fonts with rows of one or two bytes. The mask
of a column is that of a row of two bytes, and a row of one byte is not moved to where it looks.

* `putchar_pixel`: the pixels of the cell after `dsp_putchar`, and `putchar_rest` the others.
* `colors_iff`: the colours are those of the bitmap exactly if the bits are, or if all are one.
* `glyphBit_mod`: the bit that the code tests, at an offset of 32 bits.

The headline `glyph_drawn_iff` reduces the picture to the bits of the font (`Display.Legible`);
`narrow_glyph_blank` is a glyph with rows of one byte, of which nothing is shown.
-/

namespace TRS.Console
open TRS.Lib

namespace Display
variable (d : Display)

/-- The next character first wraps or scrolls. -/
def Pending (s : Screen) : Prop :=
  s.dspX + d.font.width > d.fb.width ∨ s.dspY + d.font.height > d.fb.height

/-- The byte at `a` belongs to a pixel of the cell at the cursor. -/
def InCell (s : Screen) (a : Nat) : Prop :=
  ∃ y x : Nat, (s.dspY ≤ y ∧ y < s.dspY + d.font.height) ∧
    (s.dspX ≤ x ∧ x < s.dspX + d.font.width) ∧
    d.fb.base + 4 * (y * d.stride + x) ≤ a ∧ a < d.fb.base + 4 * (y * d.stride + x) + 4

/-- `dsp_putchar(c)` draws the bitmap of `c` in the cell where it finds the cursor after the wrap
    and the scroll. With none of these, no other byte changes. -/
structure Draws (bytes : Nat) (s : Screen) (c : Byte) : Prop where
  cell : ∀ i < d.font.height, ∀ j < d.font.width,
    d.pixel (d.dspPutchar s c) ((d.checkScrollOrNewLine s).dspY.toNat + i)
      ((d.checkScrollOrNewLine s).dspX.toNat + j) = if d.fontBit bytes c i j then d.fg else d.bg
  rest : ¬ d.Pending s → ∀ a, ¬ d.InCell s a → (d.dspPutchar s c).mem a = s.mem a

/-- The bitmap of `c` is one that is shown right: with rows of one byte it is blank, with rows of
    two bytes the font has the same bits at its offset modulo 2^32. -/
def Legible (bytes : Nat) (c : Byte) : Prop :=
  d.fg = d.bg ∨
    (bytes = 1 ∧ ∀ i < d.font.height, ∀ j < d.font.width, d.fontBit 1 c i j = false) ∨
    (bytes = 2 ∧ ∀ i < d.font.height, ∀ j < d.font.width, d.fontBit 2 c i j =
      (d.fontBytes (d.font.headersize + c.toNat * d.font.charsize % 2 ^ 32 +
        (i * 2 + j / 8))).getLsbD (7 - j % 8))

variable {d} {s : Screen} {c : Byte}

/-- With no new line and no scroll pending, the check does nothing. -/
lemma check_of_not_pending (still : ¬ d.Pending s) : d.checkScrollOrNewLine s = s := by
  unfold Pending at still
  unfold checkScrollOrNewLine
  dsimp only
  rw [if_neg fun wrap => still (.inl wrap), if_neg fun scroll => still (.inr scroll)]

/-- The character goes to the cell where the wrap and the scroll leave the cursor. -/
lemma putchar_mem (printable : Printable c) :
    (d.dspPutchar s c).mem = d.paint (d.checkScrollOrNewLine s).dspY (d.checkScrollOrNewLine s).dspX
      (d.glyphOf c) (d.checkScrollOrNewLine s).mem := by
  obtain ⟨c1, c2, c3, c4⟩ := printable
  unfold dspPutchar
  dsimp only
  rw [if_neg c1, if_neg c2, if_neg c3, if_neg c4]

section
variable (idx : d.Indexed) (printable : Printable c) (glyph : c.toNat < d.font.length)
  (cell : Unclipped d s)
include idx printable glyph cell

/-- The words of the framebuffer after a character. -/
lemma putchar_holds : ∃ Y X : Nat,
    (d.checkScrollOrNewLine s).dspY = Y ∧ Y + d.font.height ≤ d.fb.height ∧
    (d.checkScrollOrNewLine s).dspX = X ∧ X + d.font.width ≤ d.fb.width ∧
    Holds (d.checkScrollOrNewLine s).mem d.fb.base d.total
      (fun k => if (Y ≤ k / d.stride ∧ k / d.stride < Y + d.font.height) ∧
          (X ≤ k % d.stride ∧ k % d.stride < X + d.font.width) then
        d.color c (k / d.stride - Y) (k % d.stride - X)
      else (d.checkScrollOrNewLine s).mem.load32 (d.fb.base + 4 * k)) (d.dspPutchar s c).mem := by
  have own : d.glyphOf c = c := if_neg (Nat.not_le.mpr glyph)
  rw [putchar_mem printable, own]
  unfold Unclipped at cell
  dsimp only at cell
  generalize d.checkScrollOrNewLine s = t at cell ⊢
  obtain ⟨y0, y1, x0, x1⟩ := cell
  obtain ⟨Y, ey⟩ := Int.eq_ofNat_of_zero_le y0
  obtain ⟨X, ex⟩ := Int.eq_ofNat_of_zero_le x0
  rw [ey] at y1
  rw [ex] at x1
  refine ⟨Y, X, ey, by omega, ex, by omega, ?_⟩
  rw [ey, ex]
  exact paint_holds idx (by omega) (by omega) c (Holds.self t.mem _ _)

/-- A pixel of the cell has the colour that the loops compute. -/
lemma putchar_pixel {i j : Nat} (li : i < d.font.height) (lj : j < d.font.width) :
    d.pixel (d.dspPutchar s c) ((d.checkScrollOrNewLine s).dspY.toNat + i)
      ((d.checkScrollOrNewLine s).dspX.toNat + j) = d.color c i j := by
  obtain ⟨Y, X, ey, y1, ex, x1, holds⟩ := putchar_holds idx printable glyph cell
  rw [ey, ex, Int.toNat_natCast, Int.toNat_natCast]
  have wide : X + j < d.stride := Nat.lt_of_lt_of_le (by omega) idx.wide
  obtain ⟨div, mod⟩ := (index_iff wide (Y + i) _).mp rfl
  rw [pixel_eq idx.wide holds (by omega) (by omega), div, mod, if_pos (by omega),
    Nat.add_sub_cancel_left, Nat.add_sub_cancel_left]

/-- Outside of the character cell `dsp_putchar` changes no byte. -/
lemma putchar_rest (still : ¬ d.Pending s) {a : Nat} (out : ¬ d.InCell s a) :
    (d.dspPutchar s c).mem a = s.mem a := by
  obtain ⟨Y, X, ey, y1, ex, x1, holds⟩ := putchar_holds idx printable glyph cell
  rw [check_of_not_pending still] at ey ex holds
  refine holds.unchanged fun k lk ge lt => if_neg fun here => out ?_
  have place : k = k / d.stride * d.stride + k % d.stride := by
    rw [Nat.mul_comm, Nat.div_add_mod]
  refine ⟨k / d.stride, k % d.stride, ?_, ?_, ?_⟩
  · rw [ey]
    omega
  · rw [ex]
    omega
  · rw [← place]
    exact ⟨ge, lt⟩

end

/-- In a font with rows of one byte every pixel gets the background. -/
lemma color_one (one : d.font.charsize / d.font.height = 1) (c : Byte) (i : Nat) {j : Nat}
    (lj : j < 8) : d.color c i j = d.bg := by
  have row : d.glyphLine c i = (0#8).toNat <<< 8 ||| (d.glyphData c i).toNat := by
    unfold glyphLine
    rw [one, BitVec.toNat_ofNat, Nat.zero_mod, Nat.zero_shiftLeft, Nat.zero_or]
    rfl
  have bit := testBit_row 0#8 (d.glyphData c i) (show j < 16 by omega)
  unfold color
  rw [row]
  refine if_neg fun set => ?_
  have high := bit.mp set
  rw [if_pos lj, BitVec.getLsbD_zero] at high
  cases high

/-- A glyph whose colours are those of the bits `read` has the colours of the bitmap exactly if the
    bits are those of the bitmap, or the two colours are one. -/
lemma colors_iff {bytes : Nat} {c : Byte} {read : Nat → Nat → Bool}
    (colors : ∀ i < d.font.height, ∀ j < d.font.width,
      d.color c i j = if read i j then d.fg else d.bg) :
    (∀ i < d.font.height, ∀ j < d.font.width,
        d.color c i j = if d.fontBit bytes c i j then d.fg else d.bg) ↔
      d.fg = d.bg ∨ ∀ i < d.font.height, ∀ j < d.font.width, d.fontBit bytes c i j = read i j := by
  by_cases same : d.fg = d.bg
  · refine iff_of_true (fun i li j lj => ?_) (.inl same)
    rw [colors i li j lj, same, ite_self, ite_self]
  · have two : ∀ a b : Bool,
        (if a then d.fg else d.bg) = (if b then d.fg else d.bg) ↔ b = a := by
      intro a b
      cases a <;> cases b <;> simp [same, Ne.symm same]
    constructor
    · intro h
      right
      intro i li j lj
      have here := h i li j lj
      rw [colors i li j lj] at here
      exact (two _ _).mp here
    · intro h i li j lj
      rw [colors i li j lj]
      exact (two _ _).mpr ((h.resolve_left same) i li j lj)

/-- The code finds the bits of a glyph at its offset modulo 2^32. -/
lemma glyphBit_mod (c : Byte) (i j : Nat) : d.glyphBit c i j =
    (d.fontBytes (d.font.headersize + c.toNat * d.font.charsize % 2 ^ 32 + (i * 2 + j / 8))).getLsbD
      (7 - j % 8) := by
  rw [glyphBit, glyphData, Nat.mul_comm 2 i]
  rfl

end Display

/-- A printable character of a font with rows of one or two bytes is drawn by its bitmap exactly if
    that bitmap is legible. -/
theorem glyph_drawn_iff {d : Display} (idx : d.Indexed) {bytes : Nat} (rows : bytes = 1 ∨ bytes = 2)
    (height : 0 < d.font.height) (size : d.font.charsize = d.font.height * bytes)
    (word : d.font.charsize < 2 ^ 32) (width : d.font.width ≤ 8 * bytes) {c : Byte}
    (printable : Printable c) (glyph : c.toNat < d.font.length) {s : Screen}
    (cell : Unclipped d s) :
    d.Draws bytes s c ↔ d.Legible bytes c := by
  have perRow : d.font.charsize / d.font.height = bytes := by
    rw [size, Nat.mul_div_cancel_left _ height]
  have drawn : d.Draws bytes s c ↔ ∀ i < d.font.height, ∀ j < d.font.width,
      d.color c i j = if d.fontBit bytes c i j then d.fg else d.bg := by
    constructor
    · intro h i li j lj
      rw [← Display.putchar_pixel idx printable glyph cell li lj]
      exact h.cell i li j lj
    · intro h
      have rest := Display.putchar_rest idx printable glyph cell
      refine ⟨fun i li j lj => ?_, fun still a => rest still⟩
      rw [Display.putchar_pixel idx printable glyph cell li lj]
      exact h i li j lj
  rw [drawn]
  unfold Display.Legible
  rcases rows with rfl | rfl
  · have blank : ∀ i < d.font.height, ∀ j < d.font.width,
        d.color c i j = if false then d.fg else d.bg :=
      fun i _ j lj => Display.color_one perRow c i (by omega)
    rw [Display.colors_iff blank]
    simp
  · have bits : ∀ i < d.font.height, ∀ j < d.font.width,
        d.color c i j = if d.glyphBit c i j then d.fg else d.bg :=
      fun i li j lj => Display.color_eq perRow c (by omega) (by omega)
    rw [Display.colors_iff bits]
    simp [Display.glyphBit_mod]

/-- The offset of the glyph fits 32 bits. -/
lemma Display.legible_two {d : Display} {c : Byte} (small : c.toNat * d.font.charsize < 2 ^ 32) :
    d.Legible 2 c := by
  refine .inr (.inr ⟨rfl, fun i _ j _ => ?_⟩)
  rw [fontBit, Nat.mod_eq_of_lt small]

/-- The first cell of the small display is not clipped. -/
lemma smallDisplay_unclipped : Unclipped smallDisplay ⟨fun _ => 0#8, 0, 0⟩ := by
  refine ⟨?_, ?_, ?_, ?_⟩ <;> decide

/-- A letter on the small display, whose font has rows of two bytes. -/
theorem glyph_drawn_iff_letter : smallDisplay.Draws 2 ⟨fun _ => 0#8, 0, 0⟩ 0x61#8 :=
  (glyph_drawn_iff ⟨by decide, by decide⟩ (.inr rfl) (by decide) rfl (by decide) (by decide)
    ⟨by decide, by decide, by decide, by decide⟩ (by decide) smallDisplay_unclipped).mpr
    (Display.legible_two (by decide))

/-- The same screen with a font of 8 by 4 pixels: its rows take one byte, and all bits are set. -/
def narrowDisplay : Display where
  fb := smallDisplay.fb
  font := ⟨32, 256, 4, 4, 8⟩
  fontBytes := fun _ => 0xFF#8
  fg := smallDisplay.fg
  bg := smallDisplay.bg

/-- A full block is drawn as an empty one. -/
theorem narrow_glyph_blank :
    Printable 0x61#8 ∧ Unclipped narrowDisplay ⟨fun _ => 0#8, 0, 0⟩ ∧
      narrowDisplay.fontBit 1 0x61#8 0 0 = true ∧
      ¬ narrowDisplay.Draws 1 ⟨fun _ => 0#8, 0, 0⟩ 0x61#8 := by
  have printable : Printable 0x61#8 := ⟨by decide, by decide, by decide, by decide⟩
  have cell : Unclipped narrowDisplay ⟨fun _ => 0#8, 0, 0⟩ := by
    refine ⟨?_, ?_, ?_, ?_⟩ <;> decide
  refine ⟨printable, cell, rfl, fun draws => ?_⟩
  have shown := draws.cell 0 (by decide) 0 (by decide)
  rw [Display.putchar_pixel ⟨by decide, by decide⟩ printable (by decide) cell (by decide)
    (by decide), Display.color_one rfl _ _ (by decide)] at shown
  exact absurd shown (by decide)

end TRS.Console
