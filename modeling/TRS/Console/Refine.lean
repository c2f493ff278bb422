import TRS.Console.Render

/-!
# The console shows the grid

Each character keeps the framebuffer what the code shows of the grid (`Shows.putchar`), so that any
text does (`Shows.text`, by induction on the text).

* `Shows.check`: the wrap and the scroll of the next character are those of the grid.
* `Display.paint_render`: a glyph makes what is shown that of the grid with one more character.
* `Shows.unclipped`: the cursor that a text leaves has room for the next glyph.

The headline `console_shows_grid` gives the picture by the bitmaps of the font, for texts whose
bitmaps the offset of 32 bits reaches; `tall_font_wraps` is a text that is shown otherwise.
-/

namespace TRS.Console
open TRS.Lib TRS.Libc

namespace Display
variable {d : Display} {m₀ m : Mem} {w : Nat → Pixel}

/-- The glyph of a character in a cell makes the picture that of the grid with it. -/
lemma paint_render (h : d.Fits) {g : Grid} (inCell : g.InCell d.rows d.cols) (c : Byte)
    (holds : Holds m₀ d.fb.base d.total (fun k => d.render g (k / d.stride) (k % d.stride)) m) :
    Holds m₀ d.fb.base d.total (fun k => d.render (g.show_ c) (k / d.stride) (k % d.stride))
      (d.paint (g.row * d.font.height : Nat) (g.col * d.font.width : Nat) (d.glyphOf c) m) := by
  refine (paint_holds h.framed.indexed (row_fits inCell.1) (col_fits inCell.2) (d.glyphOf c)
    holds).congr fun k _ => ?_
  rw [render_show h inCell]
  by_cases here : (g.row * d.font.height ≤ k / d.stride ∧
        k / d.stride < g.row * d.font.height + d.font.height) ∧
      (g.col * d.font.width ≤ k % d.stride ∧ k % d.stride < g.col * d.font.width + d.font.width)
  · have hl := h.framed.height_lt
    have le := h.height_le
    have bits := h.bits
    rw [if_pos here, if_pos here, color_eq h.twoBytes _ (by omega) (by omega)]
    rfl
  · rw [if_neg here, if_neg here]

end Display

/-- The framebuffer is what the code shows of the grid, with the cursor in its place, and the memory
    around it is `m₀`. -/
structure Shows (d : Display) (m₀ : Mem) (s : Screen) (g : Grid) : Prop where
  y : s.dspY = (g.row * d.font.height : Nat)
  x : s.dspX = (g.col * d.font.width : Nat)
  picture : Holds m₀ d.fb.base d.total (fun k => d.render g (k / d.stride) (k % d.stride)) s.mem

namespace Shows
variable {d : Display} {m₀ : Mem} {s : Screen} {g : Grid}

/-- The cursor runs over the right edge exactly when its column is past the last one. -/
lemma wraps (h : d.Fits) (shows : Shows d m₀ s g) :
    s.dspX + d.font.width > d.fb.width ↔ d.cols ≤ g.col := by
  rw [shows.x, ← Int.natCast_add, ← Nat.succ_mul]
  have := Nat.div_lt_iff_lt_mul (x := d.fb.width) (y := g.col.succ) h.width_pos
  unfold Display.cols
  omega

/-- It runs over the lower edge exactly when its row is past the last one. -/
lemma scrolls (h : d.Fits) (shows : Shows d m₀ s g) :
    s.dspY + d.font.height > d.fb.height ↔ d.rows ≤ g.row := by
  rw [shows.y, ← Int.natCast_add, ← Nat.succ_mul]
  have := Nat.div_lt_iff_lt_mul (x := d.fb.height) (y := g.row.succ) h.height_pos
  unfold Display.rows
  omega

/-- A new line of the screen is one of the grid. -/
lemma wrap (h : d.Fits) (shows : Shows d m₀ s g) :
    Shows d m₀
      (if s.dspX + d.font.width > d.fb.width then
        { s with dspY := s.dspY + d.font.height, dspX := 0 }
      else s) (g.wrap d.cols) := by
  unfold Grid.wrap
  by_cases c : d.cols ≤ g.col
  · rw [if_pos ((shows.wraps h).mpr c), if_pos c]
    refine ⟨?_, ?_, shows.picture⟩
    · dsimp only
      rw [shows.y, Nat.succ_mul]
      rfl
    · dsimp only
      rw [Nat.zero_mul]
      rfl
  · rw [if_neg fun c' => c ((shows.wraps h).mp c'), if_neg c]
    exact shows

/-- So is a scroll. -/
lemma scroll (h : d.Fits) (shows : Shows d m₀ s g) :
    Shows d m₀
      (if s.dspY + d.font.height > d.fb.height then
        { mem := d.scroll s.mem, dspY := s.dspY - d.font.height, dspX := 0 }
      else s) (g.scroll d.rows) := by
  by_cases c : d.rows ≤ g.row
  · rw [if_pos ((shows.scrolls h).mpr c)]
    have up : g.scroll d.rows =
        ⟨fun r c => if r + 1 < d.rows then g.cell (r + 1) c else none, g.row - 1, 0⟩ := if_pos c
    obtain ⟨r, above⟩ : ∃ r, g.row = r + 1 := ⟨g.row - 1, by have := h.framed.rows_pos; omega⟩
    refine ⟨?_, ?_, ?_⟩
    · dsimp only
      rw [shows.y, up, above, Nat.succ_mul]
      dsimp only
      rw [Nat.add_sub_cancel, Int.natCast_add]
      omega
    · rw [up, Nat.zero_mul]
      rfl
    · refine (Display.scroll_holds h.framed shows.picture).congr fun k _ => ?_
      have q0 := h.framed.stride_pos
      have inside : k + d.font.height * d.stride < d.total ↔
          k / d.stride + d.font.height < d.fb.height := by
        unfold Display.total
        rw [← Nat.div_lt_iff_lt_mul q0, Nat.add_mul_div_right _ _ q0]
      rw [← Display.render_scroll h g c, Nat.add_mul_div_right _ _ q0, Nat.add_mul_mod_self_right]
      simp only [inside]
  · have same : g.scroll d.rows = g := if_neg c
    rw [if_neg fun c' => c ((shows.scrolls h).mp c'), same]
    exact shows

/-- `check_scroll_or_new_line` takes the cursor back as the grid does. -/
lemma check (h : d.Fits) (shows : Shows d m₀ s g) :
    Shows d m₀ (d.checkScrollOrNewLine s) ((g.wrap d.cols).scroll d.rows) :=
  (shows.wrap h).scroll h

/-- A step back of the cursor is one column, and none in column 0. -/
lemma backspace_x (h : d.Fits) (shows : Shows d m₀ s g) :
    (if s.dspX ≥ d.font.width then s.dspX - d.font.width else s.dspX) =
      ((g.col - 1) * d.font.width : Nat) := by
  have pos := h.width_pos
  rw [shows.x]
  cases g.col with
  | zero =>
    rw [Nat.zero_sub, Nat.zero_mul, if_neg (by omega)]
  | succ k =>
    rw [Nat.add_sub_cancel, Nat.succ_mul, if_pos (by omega)]
    omega

/-- Each character is that of the grid. -/
theorem putchar (h : d.Fits) (shows : Shows d m₀ s g) (ok : g.CursorOk d.rows) (c : Byte) :
    Shows d m₀ (d.dspPutchar s c) (g.put d.rows d.cols c) := by
  have checked := shows.check h
  have inCell := ok.inCell h.framed.rows_pos h.framed.cols_pos
  unfold Display.dspPutchar Grid.put
  generalize d.checkScrollOrNewLine s = s' at checked ⊢
  generalize (g.wrap d.cols).scroll d.rows = g' at checked inCell ⊢
  dsimp only
  by_cases c1 : c = newline
  · rw [if_pos c1, if_pos c1]
    refine ⟨?_, ?_, checked.picture⟩
    · dsimp only
      rw [checked.y, Nat.succ_mul]
      rfl
    · dsimp only
      rw [Nat.zero_mul]
      rfl
  rw [if_neg c1, if_neg c1]
  by_cases c2 : c = tab
  · rw [if_pos c2, if_pos c2]
    refine ⟨checked.y, ?_, checked.picture⟩
    have le := h.width_le
    have lt := h.framed.width_lt
    dsimp only
    rw [checked.x, u32_of_lt (by omega), Nat.add_mul, Nat.mul_comm d.font.width 4]
    rfl
  rw [if_neg c2, if_neg c2]
  by_cases c3 : c = backspace
  · rw [if_pos c3, if_pos c3]
    have left := backspace_x h checked
    refine ⟨checked.y, left, ?_⟩
    dsimp only
    rw [checked.y, left]
    exact Display.paint_render h (g := { g' with col := g'.col - 1 })
      ⟨inCell.1, Nat.lt_of_le_of_lt (Nat.sub_le ..) inCell.2⟩ space checked.picture
  rw [if_neg c3, if_neg c3]
  by_cases c4 : c = return_
  · rw [if_pos c4, if_pos c4]
    refine ⟨checked.y, ?_, checked.picture⟩
    dsimp only
    rw [Nat.zero_mul]
    rfl
  · rw [if_neg c4, if_neg c4]
    refine ⟨checked.y, ?_, ?_⟩
    · dsimp only
      rw [checked.x, Nat.succ_mul]
      rfl
    · dsimp only
      rw [checked.y, checked.x]
      exact Display.paint_render h inCell c checked.picture

end Shows

/-- A cleared screen shows the empty grid. -/
lemma Shows.clear {d : Display} (h : d.Fits) (s : Screen) :
    Shows d s.mem (d.dspClear s) .empty where
  y := by rw [Grid.empty, Nat.zero_mul]; rfl
  x := by rw [Grid.empty, Nat.zero_mul]; rfl
  picture := by
    refine (Display.clear_holds h.framed s).congr fun k _ => ?_
    unfold Display.render
    split <;> rfl

/-- The next character finds the cursor where a whole glyph fits on the framebuffer. -/
def Unclipped (d : Display) (s : Screen) : Prop :=
  let s := d.checkScrollOrNewLine s
  0 ≤ s.dspY ∧ s.dspY + d.font.height ≤ d.fb.height ∧ 0 ≤ s.dspX ∧
    s.dspX + d.font.width ≤ d.fb.width

/-- The next character of a screen that shows a grid is not clipped. -/
lemma Shows.unclipped {d : Display} (h : d.Fits) {m₀ : Mem} {s : Screen} {g : Grid}
    (shows : Shows d m₀ s g) (ok : g.CursorOk d.rows) : Unclipped d s := by
  have checked := shows.check h
  obtain ⟨row, col⟩ := ok.inCell h.framed.rows_pos h.framed.cols_pos
  have fy := Display.row_fits row
  have fx := Display.col_fits col
  unfold Unclipped
  dsimp only
  rw [checked.y, checked.x]
  omega

/-- After `dsp_clear` and any text the framebuffer is the picture of the grid after the same
    text. -/
lemma Shows.text {d : Display} (h : d.Fits) (s : Screen) (str : List Byte) :
    Shows d s.mem (str.foldl d.dspPutchar (d.dspClear s))
        (str.foldl (Grid.put d.rows d.cols) .empty) ∧
      (str.foldl (Grid.put d.rows d.cols) .empty).CursorOk d.rows :=
  List.foldl_rel (r := fun s' g => Shows d s.mem s' g ∧ g.CursorOk d.rows)
    ⟨.clear h s, .inl h.framed.rows_pos⟩
    fun c _ _ _ ok => ⟨ok.1.putchar h ok.2 c, ok.2.put h.framed.rows_pos h.framed.cols_pos c⟩

/-- The framebuffer is the picture of the grid, with the cursor in its place, and the memory around
    it is `m₀`. -/
structure Depicts (d : Display) (m₀ : Mem) (s : Screen) (g : Grid) : Prop where
  y : s.dspY = (g.row * d.font.height : Nat)
  x : s.dspX = (g.col * d.font.width : Nat)
  picture : Holds m₀ d.fb.base d.total (fun k => d.picture g (k / d.stride) (k % d.stride)) s.mem

/-- What is shown of a grid of characters in reach is its picture. -/
lemma Shows.depicts {d : Display} {m₀ : Mem} {s : Screen} {g : Grid} (shows : Shows d m₀ s g)
    (reach : ∀ r k c, g.cell r k = some c → d.Reaches c) : Depicts d m₀ s g where
  y := shows.y
  x := shows.x
  picture := shows.picture.congr fun _ _ => Display.render_eq_picture reach _ _

/-- The console is a terminal of character cells: after `dsp_clear` and any text whose characters
    leave bitmaps in reach, the framebuffer is the picture of the grid after the same text, the
    pixels outside the cells being background, the memory around it is as it was, and the next glyph
    is not clipped. -/
theorem console_shows_grid (d : Display) (h : d.Fits) (s : Screen) (str : List Byte)
    (reach : ∀ c ∈ str, d.Reaches (Grid.drawn c)) :
    Depicts d s.mem (str.foldl d.dspPutchar (d.dspClear s))
        (str.foldl (Grid.put d.rows d.cols) .empty) ∧
    Unclipped d (str.foldl d.dspPutchar (d.dspClear s)) := by
  obtain ⟨shows, ok⟩ := Shows.text h s str
  refine ⟨shows.depicts fun r k c here => ?_, shows.unclipped h ok⟩
  obtain ⟨c', mem, rfl⟩ := Grid.text_cell str r k c here
  exact reach c' mem

/-- A framebuffer of two rows and two columns of a font of 9 by 4 pixels, with pixels to spare at
    the right edge, in the padding of its lines and at the bottom. The bitmap of a space is
    blank. -/
def smallDisplay : Display where
  fb := ⟨0xC0000000, 20, 10, 96⟩
  font := ⟨32, 256, 8, 4, 9⟩
  fontBytes := fun a => if a / 8 = 4 + 0x20 then 0#8 else BitVec.ofNat 8 a
  fg := 0xffffff#32
  bg := 0x11111b#32

/-- The small display meets what is asked of one. -/
lemma smallDisplay_fits : smallDisplay.Fits := by
  refine ⟨?_, ?_, ?_, ?_, ?_, ?_, ?_, ?_, ?_⟩ <;> decide

/-- Text that wraps, goes back, tabs beyond the edge and scrolls. -/
def smallText : List Byte :=
  [0x61#8, 0x62#8, 0x63#8, backspace, tab, 0x64#8, newline, 0x65#8, return_, 0x66#8]

/-- A text that wraps and scrolls, shown by the bitmaps of its letters. -/
theorem console_shows_grid_small :
    Depicts smallDisplay (fun _ => 0#8)
        (smallText.foldl smallDisplay.dspPutchar (smallDisplay.dspClear ⟨fun _ => 0#8, 7, 7⟩))
        (smallText.foldl (Grid.put smallDisplay.rows smallDisplay.cols) .empty) ∧
      Unclipped smallDisplay
        (smallText.foldl smallDisplay.dspPutchar (smallDisplay.dspClear ⟨fun _ => 0#8, 7, 7⟩)) :=
  console_shows_grid smallDisplay smallDisplay_fits ⟨fun _ => 0#8, 7, 7⟩ smallText
    (by unfold Display.Reaches; decide)

/-- A framebuffer for one line of a font of 16 by 2^24 pixels, with bits from its bitmap 128 on. -/
def tallDisplay : Display where
  fb := ⟨0xC0000000, 16, 2 ^ 24, 64⟩
  font := ⟨32, 256, 2 ^ 25, 2 ^ 24, 16⟩
  fontBytes := fun a => if a < 32 + 2 ^ 32 then 0#8 else 0xFF#8
  fg := 0xffffff#32
  bg := 0x11111b#32

/-- The bitmap 128 begins 2^32 bytes behind the first one, and the first one is shown for it. -/
theorem tall_font_wraps : tallDisplay.Fits ∧
    ¬ Depicts tallDisplay (fun _ => 0#8)
      ([0x80#8].foldl tallDisplay.dspPutchar (tallDisplay.dspClear ⟨fun _ => 0#8, 0, 0⟩))
      ([0x80#8].foldl (Grid.put tallDisplay.rows tallDisplay.cols) .empty) := by
  have fits : tallDisplay.Fits := by
    refine ⟨?_, ?_, ?_, ?_, ?_, ?_, ?_, ?_, ?_⟩ <;> decide
  refine ⟨fits, fun depicts => ?_⟩
  have shows := (Shows.text fits ⟨fun _ => 0#8, 0, 0⟩ [0x80#8]).1
  have first : 0 < tallDisplay.total := by decide
  have same := (shows.picture.words 0 first).symm.trans (depicts.picture.words 0 first)
  have here : ([0x80#8].foldl (Grid.put tallDisplay.rows tallDisplay.cols) .empty).cell
      (0 / tallDisplay.stride / tallDisplay.font.height)
      (0 % tallDisplay.stride / tallDisplay.font.width) = some 0x80#8 := by decide
  unfold Display.render Display.picture at same
  rw [here, if_pos (by decide), if_pos (by decide)] at same
  revert same
  decide +kernel

end TRS.Console
