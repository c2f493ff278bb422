import TRS.Console.Visible

/-!
# The row that a scroll opens

A scroll fills a band of one font height at the bottom of the framebuffer, but the row that it
leaves the cursor on ends where the last whole row does. The strip below that row moves into it,
with the background of the fill before.

* `check_cell`: where the scroll leaves the cursor, and `scroll_pixel` what it leaves on the screen.
* `opensBlankRow_iff`: the new row is blank exactly if the strip below it was.
* `putchar_strip`: a character draws nothing into the strip.

The headline `scroll_blank_iff` carries the colour of the strip through a session (`Session.Inv`,
`step_blank`); `strip_scrolls_into_row` is a session that changes the background.
-/

namespace TRS.Console
open TRS.Lib

namespace Display
variable (d : Display)

/-- The next character scrolls. -/
def Scrolls (s : Screen) : Prop := d.wrappedY s + d.font.height > d.fb.height

instance (s : Screen) : Decidable (d.Scrolls s) := by
  unfold Scrolls; infer_instance

/-- The lines move up by the height of the font, and the row of the cursor is blank. -/
structure OpensBlankRow (s : Screen) : Prop where
  moved : ∀ y x, y + d.font.height < d.fb.height → x < d.fb.width →
    d.pixel (d.checkScrollOrNewLine s) y x = d.pixel s (y + d.font.height) x
  blank : ∀ y x : Nat, (d.checkScrollOrNewLine s).dspY ≤ y →
    y < (d.checkScrollOrNewLine s).dspY + d.font.height → x < d.fb.width →
    d.pixel (d.checkScrollOrNewLine s) y x = d.bg

/-- The cursor is at the top of a row, or at the left edge below the last one. -/
def Aligned (s : Screen) : Prop :=
  0 ≤ s.dspX ∧
    ∃ r : Nat, s.dspY = (r * d.font.height : Nat) ∧ (r < d.rows ∨ r = d.rows ∧ s.dspX = 0)

/-- The strip below the last row has the colour. -/
def StripIs (s : Screen) (fill : Pixel) : Prop :=
  ∀ y x, d.rows * d.font.height ≤ y → y < d.fb.height → x < d.fb.width → d.pixel s y x = fill

variable {d} {s t : Screen} {fill : Pixel}

/-! ## The wrap and the scroll -/

/-- The rows of cells and the strip below them make up the screen. -/
lemma rows_add_mod (d : Display) :
    d.rows * d.font.height + d.fb.height % d.font.height = d.fb.height := by
  rw [Nat.mul_comm]
  exact Nat.div_add_mod ..

/-- The pixels depend on nothing but the memory. -/
lemma pixel_congr (same : s.mem = t.mem) (y x : Nat) : d.pixel s y x = d.pixel t y x := by
  unfold pixel
  rw [same]

/-- The check changes the memory by a scroll, or not at all. -/
lemma check_mem (d : Display) (s : Screen) : (d.checkScrollOrNewLine s).mem =
    if d.Scrolls s then d.scroll s.mem else s.mem := by
  rw [check_eq]
  split
  · next scrolls => exact (if_pos scrolls).symm
  · next still => exact (if_neg still).symm

/-- The wrap goes to the row below the last one at most, and from there the console scrolls. -/
lemma wrapped_row (h : d.Framed) (aligned : d.Aligned s) :
    ∃ r ≤ d.rows, d.wrappedY s = (r * d.font.height : Nat) ∧ (d.Scrolls s ↔ r = d.rows) := by
  have scrolls : ∀ r : Nat, ((r * d.font.height : Nat) : Int) + d.font.height > d.fb.height ↔
      d.rows ≤ r := by
    intro r
    have lt := Nat.div_lt_iff_lt_mul (x := d.fb.height) (y := r + 1) h.height_pos
    rw [Nat.succ_mul] at lt
    unfold rows
    omega
  obtain ⟨x0, r, y, le⟩ := aligned
  have width := h.width_le
  unfold Scrolls wrappedY
  by_cases wrap : s.dspX + d.font.width > d.fb.width
  · have inside : r < d.rows := by omega
    refine ⟨r + 1, inside, ?_, ?_⟩
    · rw [if_pos wrap, y, Nat.succ_mul]
      rfl
    · have next := scrolls (r + 1)
      rw [Nat.succ_mul, Int.natCast_add] at next
      rw [if_pos wrap, y, next]
      omega
  · refine ⟨r, by omega, ?_, ?_⟩
    · rw [if_neg wrap, y]
    · rw [if_neg wrap, y, scrolls r]
      omega

/-- Then the cursor stands in a cell, after a scroll in one of the last row. -/
lemma check_cell (h : d.Framed) (aligned : d.Aligned s) :
    ∃ r < d.rows, (d.checkScrollOrNewLine s).dspY = (r * d.font.height : Nat) ∧
      0 ≤ (d.checkScrollOrNewLine s).dspX ∧
      (d.checkScrollOrNewLine s).dspX + d.font.width ≤ d.fb.width ∧
      (d.Scrolls s → r + 1 = d.rows) := by
  have width := h.width_le
  have pos := h.rows_pos
  have x := check_x d s
  have x0 := aligned.1
  obtain ⟨r, le, row, scrolls⟩ := wrapped_row h aligned
  have y := check_y d s
  change _ = if d.Scrolls s then _ else _ at y
  by_cases scroll : d.Scrolls s
  · rw [if_pos scroll, row] at y
    obtain ⟨k, above⟩ : ∃ k, r = k + 1 := ⟨r - 1, by have := scrolls.mp scroll; omega⟩
    have last := scrolls.mp scroll
    refine ⟨k, by omega, ?_, by omega, by omega, fun _ => by omega⟩
    rw [y, above, Nat.succ_mul, Int.natCast_add]
    omega
  · rw [if_neg scroll, row] at y
    have inside : r < d.rows := Nat.lt_of_le_of_ne le fun e => scroll (scrolls.mpr e)
    exact ⟨r, inside, y, by omega, by omega, fun c => absurd c scroll⟩

/-- The pixels after a scroll. -/
lemma scroll_pixel (h : d.Framed) (moved : t.mem = d.scroll s.mem) {y x : Nat}
    (ly : y < d.fb.height) (lx : x < d.fb.width) :
    d.pixel t y x = if y + d.font.height < d.fb.height then d.pixel s (y + d.font.height) x
      else d.bg := by
  have wide : x < d.stride := Nat.lt_of_lt_of_le lx h.wide
  have q0 := h.stride_pos
  have holds := scroll_holds h (Holds.self s.mem d.fb.base d.total)
  rw [← moved] at holds
  have below : y * d.stride + x + d.font.height * d.stride < d.total ↔
      y + d.font.height < d.fb.height := by
    unfold total
    rw [← Nat.div_lt_iff_lt_mul q0, Nat.add_mul_div_right _ _ q0, ((index_iff wide y _).mp rfl).1]
  rw [pixel_eq h.wide holds ly lx]
  by_cases c : y + d.font.height < d.fb.height
  · rw [if_pos c, if_pos (below.mpr c)]
    unfold pixel
    congr 2
    rw [Nat.add_mul]
    omega
  · rw [if_neg c, if_neg fun c' => c (below.mp c')]

/-- The row that a scroll opens is blank exactly if there is no strip, or one in the current
    background. -/
lemma opensBlankRow_iff (h : d.Framed) (aligned : d.Aligned s) (strip : d.StripIs s fill)
    (scrolls : d.Scrolls s) :
    d.OpensBlankRow s ↔ d.fb.height % d.font.height = 0 ∨ d.bg = fill := by
  have moved := check_mem d s
  rw [if_pos scrolls] at moved
  obtain ⟨r, lt, row, _, _, last⟩ := check_cell h aligned
  have last := last scrolls
  have height := d.rows_add_mod
  have next : d.rows * d.font.height = r * d.font.height + d.font.height := by
    rw [← last, Nat.succ_mul]
  constructor
  · intro opens
    by_cases whole : d.fb.height % d.font.height = 0
    · exact .inl whole
    · right
      -- the first line of the row comes from the first one of the strip
      have pos := h.height_pos
      have x0 : 0 < d.fb.width := Nat.lt_of_lt_of_le h.width_pos h.width_le
      have blank := opens.blank (r * d.font.height) 0 (by omega) (by omega) x0
      rw [scroll_pixel h moved (by omega) x0, if_pos (by omega),
        strip _ _ (by omega) (by omega) x0] at blank
      exact blank.symm
  · intro same
    refine ⟨fun y x below lx => ?_, fun y x ge lt' lx => ?_⟩
    · rw [scroll_pixel h moved (by omega) lx, if_pos below]
    · rw [row] at ge lt'
      rw [scroll_pixel h moved (by omega) lx]
      split
      · rw [strip _ _ (by omega) (by omega) lx]
        exact (same.resolve_left (by omega)).symm
      · rfl

/-- The strip after the wrap and the scroll. -/
lemma check_strip (h : d.Framed) (strip : d.StripIs s fill) :
    d.StripIs (d.checkScrollOrNewLine s) (if d.Scrolls s then d.bg else fill) := by
  intro y x ge lt lx
  have mem := check_mem d s
  have height := d.rows_add_mod
  have small := Nat.mod_lt d.fb.height h.height_pos
  by_cases scrolls : d.Scrolls s
  · rw [if_pos scrolls] at mem ⊢
    rw [scroll_pixel h mem lt lx, if_neg (by omega)]
  · rw [if_neg scrolls] at mem ⊢
    rw [pixel_congr mem]
    exact strip y x ge lt lx

/-! ## A character -/

/-- A glyph in a row leaves the strip alone. -/
lemma paint_strip (h : d.Framed) (strip : d.StripIs s fill) {r : Nat} (row : r < d.rows) {X : Int}
    (x0 : 0 ≤ X) (x1 : X + d.font.width ≤ d.fb.width) (glyph : Byte)
    (painted : t.mem = d.paint (r * d.font.height : Nat) X glyph s.mem) : d.StripIs t fill := by
  intro y x ge lt lx
  obtain ⟨X, rfl⟩ := Int.eq_ofNat_of_zero_le x0
  have fits := row_fits row
  have upto : r * d.font.height + d.font.height ≤ d.rows * d.font.height := by
    rw [← Nat.succ_mul]
    exact Nat.mul_le_mul_right _ row
  have wide : x < d.stride := Nat.lt_of_lt_of_le lx h.wide
  have holds := paint_holds h.indexed fits (X := X) (by omega) glyph
    (Holds.self s.mem d.fb.base d.total)
  rw [← painted] at holds
  have place := ((index_iff wide y _).mp rfl).1
  rw [pixel_eq h.wide holds lt lx, place, if_neg (by omega)]
  exact strip y x ge lt lx

/-- Every character leaves the cursor aligned and the strip in the background of the last fill. -/
lemma putchar_strip (h : d.Framed) (aligned : d.Aligned s) (strip : d.StripIs s fill) (c : Byte) :
    d.Aligned (d.dspPutchar s c) ∧
      d.StripIs (d.dspPutchar s c) (if d.Scrolls s then d.bg else fill) := by
  obtain ⟨r, row, y, x0, x1, _⟩ := check_cell h aligned
  have strip := check_strip h strip
  unfold dspPutchar
  generalize d.checkScrollOrNewLine s = s' at y x0 x1 strip ⊢
  dsimp only
  split
  · refine ⟨⟨Int.le_refl 0, r + 1, ?_, ?_⟩, strip⟩
    · dsimp only
      rw [y, Nat.succ_mul]
      rfl
    · exact (Nat.lt_or_eq_of_le row).imp id fun e => ⟨e, rfl⟩
  split
  · exact ⟨⟨Int.add_nonneg x0 (Int.natCast_nonneg _), r, y, .inl row⟩, strip⟩
  split
  · have back : 0 ≤ (if s'.dspX ≥ d.font.width then s'.dspX - d.font.width else s'.dspX) ∧
        (if s'.dspX ≥ d.font.width then s'.dspX - d.font.width else s'.dspX) + d.font.width ≤
          d.fb.width := by
      split <;> omega
    refine ⟨⟨back.1, r, y, .inl row⟩, paint_strip h strip row back.1 back.2 (d.glyphOf space) ?_⟩
    dsimp only
    rw [y]
  split
  · exact ⟨⟨Int.le_refl 0, r, y, .inl row⟩, strip⟩
  · refine ⟨⟨Int.add_nonneg x0 (Int.natCast_nonneg _), r, y, .inl row⟩,
      paint_strip h strip row x0 x1 (d.glyphOf c) ?_⟩
    dsimp only
    rw [y]

end Display

/-! ## Runs -/

/-- A call that prints, or that sets the colours. -/
inductive Writing where
  | putchar (c : Byte)
  | setColor (fg bg : Pixel)

/-- The console, and the background of its last fill: that of the last scroll, or of `dsp_clear`. -/
structure Session where
  state : State
  fill : Pixel

namespace Session

/-- One call. -/
def step (masks : Masks) (t : Session) : Writing → Except Empty (Unit × Session)
  | .putchar c =>
    let d := t.state.display
    .ok ((), ⟨t.state.call masks (.putchar c), if d.Scrolls t.state.screen then d.bg else t.fill⟩)
  | .setColor fg bg => .ok ((), ⟨t.state.call masks (.setColor fg bg), t.fill⟩)

/-- After `dsp_clear`. -/
def start (d : Display) (s : Screen) : Session := ⟨⟨d, d.dspClear s⟩, d.bg⟩

/-- If the call scrolls, it opens a blank row. -/
def ScrollsBlank (t : Session) (w : Writing) (_ : Unit) (_ : Session) : Prop :=
  ∀ c, w = .putchar c → t.state.display.Scrolls t.state.screen →
    t.state.display.OpensBlankRow t.state.screen

/-- If the call scrolls, there are whole rows only, or the background is that of the last fill. -/
def SameFill (t : Session) (w : Writing) : Prop :=
  ∀ c, w = .putchar c → t.state.display.Scrolls t.state.screen →
    t.state.display.fb.height % t.state.display.font.height = 0 ∨ t.state.display.bg = t.fill

/-- What every call keeps. -/
structure Inv (t : Session) : Prop where
  framed : t.state.display.Framed
  aligned : t.state.display.Aligned t.state.screen
  strip : t.state.display.StripIs t.state.screen t.fill

/-- A cleared screen has its cursor on the grid, and the strip in the colour of the fill. -/
lemma start_inv {d : Display} (h : d.Framed) (s : Screen) : (start d s).Inv where
  framed := h
  aligned := ⟨Int.le_refl 0, 0, by rw [Nat.zero_mul]; rfl, .inl h.rows_pos⟩
  strip := fun _ _ _ ly lx => Display.pixel_eq h.wide (Display.clear_holds h s) ly lx

/-- One call opens a blank row exactly if it scrolls in the background of the last fill, or with no
    strip. -/
lemma step_blank (masks : Masks) (t : Session) (w : Writing) (inv : t.Inv) (_ : True) :
    ∃ o t', t.step masks w = .ok (o, t') ∧ (t.ScrollsBlank w o t' ↔ t.SameFill w) ∧
      (t.ScrollsBlank w o t' → t'.Inv) := by
  cases w with
  | putchar c =>
    obtain ⟨aligned, strip⟩ := Display.putchar_strip inv.framed inv.aligned inv.strip c
    refine ⟨(), _, rfl, ?_, fun _ => ⟨inv.framed, aligned, strip⟩⟩
    have iff := Display.opensBlankRow_iff inv.framed inv.aligned inv.strip
    constructor
    · exact fun blank c e scrolls => (iff scrolls).mp (blank c e scrolls)
    · exact fun same c e scrolls => (iff scrolls).mpr (same c e scrolls)
  | setColor fg bg =>
    refine ⟨(), _, rfl, iff_of_true (fun c e => by cases e) (fun c e => by cases e), fun _ => ?_⟩
    exact ⟨inv.framed.congr rfl rfl, inv.aligned, inv.strip⟩

/-- In every run after `dsp_clear`, all scrolls open a blank row if and only if each of them is made
    in the background of the last fill, or on a screen of whole rows. -/
theorem scroll_blank_iff (masks : Masks) {d : Display} (h : d.Framed) (s : Screen)
    (calls : List Writing) :
    Along (step masks) ScrollsBlank (start d s) calls ↔
      Guarded (step masks) SameFill (start d s) calls :=
  Along.iff_guarded (G := fun _ _ => True) (step_blank masks) (start_inv h s) .of_true

/-- Text that scrolls a screen of two rows, and the colours set before. -/
def recolored : List Writing :=
  [.putchar newline, .setColor 0xFFFFFF#32 0x1E1E2E#32, .putchar newline, .putchar 0x61#8]

/-- Text on a small display whose background is changed halfway. -/
theorem scroll_blank_iff_small :
    Along (step ⟨0xFF0000#32, 0xFF00#32, 0xFF#32⟩) ScrollsBlank
        (start smallDisplay ⟨fun _ => 0#8, 7, 7⟩) recolored ↔
      Guarded (step ⟨0xFF0000#32, 0xFF00#32, 0xFF#32⟩) SameFill
        (start smallDisplay ⟨fun _ => 0#8, 7, 7⟩) recolored :=
  scroll_blank_iff _ smallDisplay_fits.framed _ recolored

/-- On a screen of ten lines with rows of four, the new row begins with two lines in the background
    of the time before. -/
theorem strip_scrolls_into_row :
    smallDisplay.Framed ∧
      ¬ Along (step ⟨0xFF0000#32, 0xFF00#32, 0xFF#32⟩) ScrollsBlank
        (start smallDisplay ⟨fun _ => 0#8, 7, 7⟩) recolored := by
  have framed := smallDisplay_fits.framed
  refine ⟨framed, ?_⟩
  intro blank
  have same := (Along.iff_guarded (G := fun _ _ => True) (step_blank _) (start_inv framed _)
    .of_true).mp blank
  have last := (((same.2 _ _ rfl).2 _ _ rfl).2 _ _ rfl).1 0x61#8 rfl (by decide)
  exact absurd last (by decide)

end Session

end TRS.Console
