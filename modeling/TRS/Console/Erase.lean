import TRS.Console.Visible

/-!
# A character and its backspace

`SYS_READ` echoes the characters that it stores, and a backspace for each that it takes back. The
backspace moves one cell to the left and shows a space there, but it first makes the wrap and the
scroll that the character has left behind. So it erases the character unless that was a tab or went
into the last column.

* `show_show`: the space takes the place of the character before it.
* `erased`: if the screen then shows the space at the cursor, the character is erased.
* `erased_iff`: it does so exactly if the backspace comes back to the cell of the character.

The headline `backspace_erases_iff` works on the grid that the screen shows; `tab_not_erased` is a
tab, which moves by several cells and is taken back by one.
-/

namespace TRS.Console
open TRS.Lib

/-! ## On the grid -/

namespace Grid
variable {rows cols : Nat} {g : Grid}

/-- Before the last column nothing wraps. -/
lemma wrap_of_lt (lt : g.col < cols) : g.wrap cols = g := if_neg (Nat.not_le.mpr lt)

/-- Above the last row nothing scrolls. -/
lemma scroll_of_lt (lt : g.row < rows) : g.scroll rows = g := if_neg (Nat.not_le.mpr lt)

/-- A backspace in a cell. -/
lemma put_backspace (row : g.row < rows) (col : g.col < cols) :
    g.put rows cols backspace = { g with col := g.col - 1 }.show_ space := by
  unfold put
  rw [wrap_of_lt col, scroll_of_lt row]
  rfl

/-- The space takes the place of the character before it. -/
lemma show_show (g : Grid) (b c : Byte) : (g.show_ b).show_ c = g.show_ c := by
  unfold show_
  dsimp only
  congr 1
  funext r k
  split <;> rfl

end Grid

/-! ## On the screen -/

namespace Display
variable (d : Display)

/-- How far the next character scrolls the text up. -/
def scrolledBy (s : Screen) : Int :=
  if d.wrappedY s + d.font.height > d.fb.height then d.font.height else 0

/-- `c` and a backspace, printed from `s` on, have erased `c`: the cursor is where the cell of `c`
    is, which shows a space, and the rest of the screen is as it was when `c` was printed. -/
structure Erased (s : Screen) (c : Byte) : Prop where
  x : (d.dspPutchar (d.dspPutchar s c) backspace).dspX = (d.checkScrollOrNewLine s).dspX
  y : (d.dspPutchar (d.dspPutchar s c) backspace).dspY =
    (d.checkScrollOrNewLine s).dspY - d.scrolledBy (d.dspPutchar s c)
  blank : ∀ i < d.font.height, ∀ j < d.font.width,
    d.pixel (d.dspPutchar (d.dspPutchar s c) backspace)
        ((d.dspPutchar (d.dspPutchar s c) backspace).dspY.toNat + i)
        ((d.dspPutchar (d.dspPutchar s c) backspace).dspX.toNat + j) =
      d.cellPixel (some space) i j
  rest : ∀ y x, y < d.fb.height → x < d.fb.width →
    ¬ (((d.checkScrollOrNewLine s).dspY ≤ y ∧
          y < (d.checkScrollOrNewLine s).dspY + d.font.height) ∧
        ((d.checkScrollOrNewLine s).dspX ≤ x ∧
          x < (d.checkScrollOrNewLine s).dspX + d.font.width)) →
    d.pixel (d.dspPutchar (d.dspPutchar s c) backspace) y x =
      d.pixel (d.checkScrollOrNewLine s) y x

/-- `c` is erasable from `s` on: it is no tab, it is a carriage return only in the first column, and
    its cell is not in the last column. -/
def Erasable (s : Screen) (c : Byte) : Prop :=
  let x : Int := if s.dspX + d.font.width > d.fb.width then 0 else s.dspX
  c ≠ tab ∧ (c = return_ → x = 0) ∧ (c ≠ return_ → x + 2 * d.font.width ≤ d.fb.width)

end Display

namespace Shows
variable {d : Display} {m₀ : Mem} {s t u : Screen} {g : Grid}

/-- A pixel of a screen that shows a grid is that of the rendered grid. -/
lemma pixel (h : d.Fits) (shows : Shows d m₀ s g) {y x : Nat} (ly : y < d.fb.height)
    (lx : x < d.fb.width) : d.pixel s y x = d.render g y x := by
  have wide : x < d.stride := Nat.lt_of_lt_of_le lx h.wide
  obtain ⟨div, mod⟩ := (index_iff wide y _).mp rfl
  rw [Display.pixel_eq h.wide shows.picture ly lx, div, mod]

/-- The row of pixels that the next character is put in is that of its row of cells. -/
lemma wrappedY (h : d.Fits) (shows : Shows d m₀ s g) :
    d.wrappedY s = ((g.wrap d.cols).row * d.font.height : Nat) := by
  rw [← (shows.wrap h).y]
  unfold Display.wrappedY
  split <;> rfl

/-- The backspace leaves the cursor in the line to which the text has been scrolled. -/
lemma backspace_y (s : Screen) :
    (d.dspPutchar s backspace).dspY = d.wrappedY s - d.scrolledBy s := by
  change (d.checkScrollOrNewLine s).dspY = _
  rw [check_y]
  unfold Display.scrolledBy
  split
  · rfl
  · exact (Int.sub_zero _).symm

/-- If the screen then shows the grid with a space at the cursor, the character is erased. -/
lemma erased (h : d.Fits) (inCell : g.InCell d.rows d.cols)
    {c : Byte} (before : Shows d m₀ (d.checkScrollOrNewLine s) g)
    (after : Shows d m₀ (d.dspPutchar (d.dspPutchar s c) backspace) (g.show_ space))
    (still : d.scrolledBy (d.dspPutchar s c) = 0) : d.Erased s c := by
  have fy := Display.row_fits inCell.1
  have fx := Display.col_fits inCell.2
  constructor
  · exact after.x.trans before.x.symm
  · rw [still, Int.sub_zero]
    exact after.y.trans before.y.symm
  · intro i li j lj
    have top : (d.dspPutchar (d.dspPutchar s c) backspace).dspY.toNat = g.row * d.font.height := by
      rw [after.y]
      rfl
    have left : (d.dspPutchar (d.dspPutchar s c) backspace).dspX.toNat = g.col * d.font.width := by
      rw [after.x]
      rfl
    rw [top, left, after.pixel h (by omega) (by omega), Display.render_show h inCell,
      if_pos (by omega), Nat.add_sub_cancel_left, Nat.add_sub_cancel_left]
  · intro y x ly lx out
    rw [before.y, before.x] at out
    rw [after.pixel h ly lx, before.pixel h ly lx, Display.render_show h inCell,
      if_neg (by omega)]

/-- The column to which the character goes. -/
lemma check_col (h : d.Fits) (shows : Shows d m₀ s g) (ok : g.CursorOk d.rows) :
    (if s.dspX + d.font.width > d.fb.width then 0 else s.dspX) =
      (((g.wrap d.cols).scroll d.rows).col * d.font.width : Nat) := by
  have same : ((g.wrap d.cols).scroll d.rows).col = (g.wrap d.cols).col := by
    unfold Grid.scroll
    split
    · rename_i below
      -- the cursor comes to stand below the last row only in the first column
      unfold Grid.CursorOk at ok
      unfold Grid.wrap at below ⊢
      split
      · rfl
      · rename_i inside
        rw [if_neg inside] at below
        dsimp only
        omega
    · rfl
  rw [same, ← (shows.wrap h).x]
  split <;> rfl

/-- With the cell of `c` in `g`, and the cursor in column `col` after it: the backspace erases `c`
    if it finds that column on the screen and comes back to the cell. -/
lemma erased_iff (h : d.Fits) (inCell : g.InCell d.rows d.cols) {c : Byte}
    (before : Shows d m₀ (d.checkScrollOrNewLine s) g) {p : Grid}
    (printed : Shows d m₀ (d.dspPutchar s c) p) (row : p.row = g.row)
    (kept : { p with col := g.col }.show_ space = g.show_ space) :
    d.Erased s c ↔ p.col < d.cols ∧ p.col - 1 = g.col := by
  have okRow : p.row < d.rows := row ▸ inCell.1
  have after := printed.putchar h (.inl okRow) backspace
  constructor
  · intro erased
    have y := erased.y
    rw [backspace_y, printed.wrappedY h, before.y] at y
    have sameRow : (p.wrap d.cols).row = g.row := by
      have pos := h.height_pos
      exact Nat.eq_of_mul_eq_mul_right pos (by omega)
    have lt : p.col < d.cols := by
      by_contra beyond
      have next : (p.wrap d.cols).row = p.row + 1 := by
        unfold Grid.wrap
        rw [if_pos (Nat.le_of_not_lt beyond)]
      omega
    refine ⟨lt, ?_⟩
    rw [Grid.put_backspace okRow lt] at after
    have x := after.x.symm.trans (erased.x.trans before.x)
    exact Nat.eq_of_mul_eq_mul_right h.width_pos (Int.ofNat_inj.mp x)
  · rintro ⟨lt, back⟩
    rw [Grid.put_backspace okRow lt, back, kept] at after
    refine erased h inCell before after ?_
    have room := Display.row_fits okRow
    unfold Display.scrolledBy
    rw [printed.wrappedY h, Grid.wrap_of_lt lt]
    exact if_neg (by omega)

end Shows

/-- For every character that `SYS_READ` stores, after any text: a backspace erases it if and only if
    it is no tab, no carriage return but in the first column, and not in the last column. -/
theorem backspace_erases_iff {d : Display} (h : d.Fits) (s : Screen) (str : List Byte) {c : Byte}
    (c1 : c ≠ newline) (c2 : c ≠ backspace) :
    d.Erased (str.foldl d.dspPutchar (d.dspClear s)) c ↔
      d.Erasable (str.foldl d.dspPutchar (d.dspClear s)) c := by
  obtain ⟨shows, ok⟩ := Shows.text h s str
  generalize str.foldl d.dspPutchar (d.dspClear s) = t at shows ⊢
  generalize str.foldl (Grid.put d.rows d.cols) .empty = g at shows ok
  have inCell := ok.inCell h.framed.rows_pos h.framed.cols_pos
  have before := shows.check h
  have column := shows.check_col h ok
  have printed := shows.putchar h ok c
  unfold Grid.put at printed
  rw [if_neg c1] at printed
  unfold Display.Erasable
  dsimp only
  rw [column]
  generalize (g.wrap d.cols).scroll d.rows = g' at inCell before printed column ⊢
  by_cases c3 : c = tab
  · rw [if_pos c3] at printed
    rw [Shows.erased_iff h inCell before printed rfl rfl]
    dsimp only
    constructor
    · omega
    · exact fun erasable => absurd c3 erasable.1
  rw [if_neg c3, if_neg c2] at printed
  by_cases c4 : c = return_
  · rw [if_pos c4] at printed
    rw [Shows.erased_iff h inCell before printed rfl rfl]
    have pos := h.width_pos
    have cols := h.framed.cols_pos
    constructor
    · rintro ⟨_, zero⟩
      refine ⟨c3, fun _ => ?_, fun ne => absurd c4 ne⟩
      rw [← zero]
      exact congrArg Nat.cast (Nat.zero_mul _)
    · rintro ⟨_, first, _⟩
      refine ⟨cols, ?_⟩
      have zero : g'.col * d.font.width = 0 := Int.ofNat_inj.mp (first c4)
      rcases Nat.mul_eq_zero.mp zero with col | width
      · exact col.symm
      · omega
  · rw [if_neg c4] at printed
    rw [Shows.erased_iff h inCell before printed rfl (Grid.show_show g' c space)]
    have last := Nat.le_div_iff_mul_le h.width_pos (x := g'.col + 2) (y := d.fb.width)
    rw [Nat.add_mul] at last
    change g'.col + 1 < d.cols ∧ g'.col + 1 - 1 = g'.col ↔ _
    unfold Display.cols
    constructor
    · rintro ⟨lt, _⟩
      have room := last.mp lt
      exact ⟨c3, fun e => absurd e c4, fun _ => by omega⟩
    · rintro ⟨_, _, room⟩
      have := room c4
      exact ⟨last.mpr (by omega), rfl⟩

/-- A letter in the first of two columns. -/
theorem backspace_erases_iff_letter :
    smallDisplay.Erased ([newline].foldl smallDisplay.dspPutchar
        (smallDisplay.dspClear ⟨fun _ => 0#8, 7, 7⟩)) 0x61#8 ↔
      smallDisplay.Erasable ([newline].foldl smallDisplay.dspPutchar
        (smallDisplay.dspClear ⟨fun _ => 0#8, 7, 7⟩)) 0x61#8 :=
  backspace_erases_iff smallDisplay_fits ⟨fun _ => 0#8, 7, 7⟩ [newline] (by decide) (by decide)

/-- The backspace after a tab comes back to the next row of two columns, and so does the one after a
    letter in the last column. -/
theorem tab_not_erased :
    ¬ smallDisplay.Erased (smallDisplay.dspClear ⟨fun _ => 0#8, 7, 7⟩) tab ∧
      ¬ smallDisplay.Erased ([0x61#8].foldl smallDisplay.dspPutchar
        (smallDisplay.dspClear ⟨fun _ => 0#8, 7, 7⟩)) 0x62#8 := by
  constructor
  · intro erased
    exact absurd erased.y (by decide)
  · intro erased
    exact absurd erased.y (by decide)

end TRS.Console
