import TRS.Console.Bounds
import TRS.Console.Refine
import TRS.Lib.Run

/-!
# Visible characters

Before a character is drawn, `check_scroll_or_new_line` wraps once and scrolls once. Wherever
`dsp_set_cursor` has put the cursor, the wrap brings it back from the right edge; one scroll brings
it back from the bottom edge if it is at most one line too far down.

* `unclipped_iff`: a character is drawn inside the framebuffer exactly if its line is in reach.
* `call_each`, `calls_each`: a call does what its characters do one by one.
* `State.OnRight.call`: no call moves the cursor to the left of the screen.

The headline `printed_visible_iff` is over all runs; `cells_visible` says that calls which set the
cursor to cells only hide no character, and `far_cursor_hides` is a cursor too far down.
-/

namespace TRS.Console
open TRS.Lib

/-- The characters that `dsp_putchar` draws and moves past. -/
def Printable (c : Byte) : Prop := c ≠ newline ∧ c ≠ tab ∧ c ≠ backspace ∧ c ≠ return_

/-- The calls of `dsp_putchar` that a `dsp_print` makes; any other call is itself. -/
def Call.each : Call → List Call
  | .print str => (str.takeWhile (· ≠ 0#8)).map .putchar
  | c => [c]

/-- One call, as a step of a machine. -/
def State.step (masks : Masks) (s : State) (c : Call) : Except Unit (Unit × State) :=
  .ok ((), s.call masks c)

/-- A printable character is drawn with its whole cell on the screen. -/
def VisibleCall (s : State) (c : Call) : Prop :=
  ∀ b, c = .putchar b → Printable b → Unclipped s.display s.screen

/-- The cursor's line after the wrap. -/
def Display.wrappedY (d : Display) (s : Screen) : Int :=
  if s.dspX + d.font.width > d.fb.width then s.dspY + d.font.height else s.dspY

/-- A line with its top at `y` is on the screen, or a scroll brings it there. -/
def Display.InReach (d : Display) (y : Int) : Prop :=
  0 ≤ y ∧ y ≤ d.fb.height ∧ (y + d.font.height ≤ d.fb.height ∨ d.font.height ≤ y)

/-- A printable character finds the cursor, after the wrap, in a line in reach. -/
def ReachableCall (s : State) (c : Call) : Prop :=
  ∀ b, c = .putchar b → Printable b → s.display.InReach (s.display.wrappedY s.screen)

/-- At least one cell fits on the framebuffer, and it has a row: `dsp_putchar` divides by the height
    of the font. -/
structure Display.OneCell (d : Display) : Prop where
  rows : 0 < d.font.height
  width : d.font.width ≤ d.fb.width
  height : d.font.height ≤ d.fb.height

/-! ## One character -/

section Character
variable {d : Display} {s : Screen}

/-- The wrap and the scroll of a character. -/
lemma check_eq (d : Display) (s : Screen) : d.checkScrollOrNewLine s =
    if d.wrappedY s + d.font.height > d.fb.height then
      ⟨d.scroll s.mem, d.wrappedY s - d.font.height, 0⟩
    else ⟨s.mem, d.wrappedY s, if s.dspX + d.font.width > d.fb.width then 0 else s.dspX⟩ := by
  unfold Display.checkScrollOrNewLine Display.wrappedY
  by_cases wrap : s.dspX + d.font.width > d.fb.width
  · simp only [if_pos wrap]
  · simp only [if_neg wrap]

/-- The row that the check leaves: the next one, moved up by a line where that is too low. -/
lemma check_y (d : Display) (s : Screen) :
    (d.checkScrollOrNewLine s).dspY =
      if d.wrappedY s + d.font.height > d.fb.height then d.wrappedY s - d.font.height
      else d.wrappedY s := by
  rw [check_eq]
  split <;> rfl

/-- The next character finds the cursor at the left edge, or where it was with room for a cell. -/
lemma check_x (d : Display) (s : Screen) :
    (d.checkScrollOrNewLine s).dspX = 0 ∨
      (d.checkScrollOrNewLine s).dspX = s.dspX ∧ s.dspX + d.font.width ≤ d.fb.width := by
  rw [check_eq]
  split
  · exact .inl rfl
  dsimp only
  split
  · exact .inl rfl
  · next inside => exact .inr ⟨rfl, Int.not_lt.mp inside⟩

/-- With the cursor not left of the screen, the next glyph is whole exactly if its line is in
    reach. -/
lemma unclipped_iff (h : d.OneCell) (x0 : 0 ≤ s.dspX) :
    Unclipped d s ↔ d.InReach (d.wrappedY s) := by
  have width := h.width
  have height := h.height
  have x := check_x d s
  unfold Unclipped Display.InReach
  dsimp only
  rw [check_y]
  by_cases scroll : d.wrappedY s + d.font.height > d.fb.height
  · rw [if_pos scroll]
    omega
  · rw [if_neg scroll]
    omega

/-- The check keeps the column from becoming negative. -/
lemma check_x_nonneg (x0 : 0 ≤ s.dspX) : 0 ≤ (d.checkScrollOrNewLine s).dspX := by
  rcases check_x d s with zero | ⟨same, _⟩
  · exact Int.le_of_eq zero.symm
  · rwa [same]

/-- So does `dsp_putchar`. -/
lemma putchar_x_nonneg (x0 : 0 ≤ s.dspX) (c : Byte) : 0 ≤ (d.dspPutchar s c).dspX := by
  have checked := check_x_nonneg (d := d) x0
  unfold Display.dspPutchar
  generalize d.checkScrollOrNewLine s = s' at checked ⊢
  dsimp only
  split
  · exact Int.le_refl 0
  split
  · exact Int.add_nonneg checked (Int.natCast_nonneg _)
  split
  · dsimp only
    split
    · omega
    · exact checked
  split
  · exact Int.le_refl 0
  · exact Int.add_nonneg checked (Int.natCast_nonneg _)

/-- So does `dsp_print`. -/
lemma print_x_nonneg (x0 : 0 ≤ s.dspX) (str : List Byte) : 0 ≤ (d.dspPrint s str).dspX := by
  induction str generalizing s with
  | nil => exact x0
  | cons c cs ih =>
    rw [Display.dspPrint]
    split
    · exact x0
    · exact ih (putchar_x_nonneg x0 c)

end Character

/-! ## Any calls -/

/-- A `dsp_print` is its calls of `dsp_putchar`. -/
lemma print_each (masks : Masks) (s : State) (str : List Byte) :
    ((str.takeWhile (· ≠ 0#8)).map Call.putchar).foldl (State.call masks) s =
      { s with screen := s.display.dspPrint s.screen str } := by
  induction str generalizing s with
  | nil => rfl
  | cons b bs ih =>
    rw [Display.dspPrint]
    by_cases last : b = 0#8
    · rw [if_pos last, List.takeWhile_cons_of_neg (by simp [last])]
      rfl
    · rw [if_neg last, List.takeWhile_cons_of_pos (by simp [last])]
      exact ih _

/-- A call does what its characters do one by one. -/
lemma call_each (masks : Masks) (s : State) (c : Call) :
    c.each.foldl (State.call masks) s = s.call masks c := by
  cases c with
  | print str => exact print_each masks s str
  | putchar c => rfl
  | setCursor x y => rfl
  | setColor fg bg => rfl
  | clear => rfl

/-- A run of calls does what all of their characters do. -/
lemma calls_each (masks : Masks) (s : State) (calls : List Call) :
    (calls.flatMap Call.each).foldl (State.call masks) s = calls.foldl (State.call masks) s := by
  induction calls generalizing s with
  | nil => rfl
  | cons c cs ih =>
    rw [List.flatMap_cons, List.foldl_append, call_each, ih]
    rfl

/-- What every call keeps: the sizes, and that the cursor is not left of the screen. -/
structure State.OnRight (s : State) : Prop where
  cell : s.display.OneCell
  x : 0 ≤ s.screen.dspX

/-- No call moves the cursor to the left of the screen. -/
lemma State.OnRight.call {s : State} (h : s.OnRight) (masks : Masks) (c : Call) :
    (s.call masks c).OnRight := by
  cases c with
  | putchar c => exact ⟨h.cell, putchar_x_nonneg h.x c⟩
  | print str => exact ⟨h.cell, print_x_nonneg h.x str⟩
  | setCursor x y =>
    refine ⟨h.cell, ?_⟩
    change 0 ≤ if x ≠ 0 then ((u32 (x * s.display.font.width) : Nat) : Int) else s.screen.dspX
    split
    · exact Int.natCast_nonneg _
    · exact h.x
  | setColor fg bg => exact ⟨⟨h.cell.rows, h.cell.width, h.cell.height⟩, h.x⟩
  | clear => exact ⟨h.cell, Int.le_refl 0⟩

/-- From `dsp_init` on, every printable character of any calls is drawn with its whole cell on the
    screen if and only if each of them finds the cursor in reach. The calls are taken apart into
    single characters, which leaves the same console. -/
theorem printed_visible_iff (masks : Masks) {d : Display} (h : d.OneCell) (s : Screen)
    (calls : List Call) :
    (calls.flatMap Call.each).foldl (State.call masks) ⟨d, d.dspClear s⟩ =
        calls.foldl (State.call masks) ⟨d, d.dspClear s⟩ ∧
      (Along (State.step masks) (fun s c _ _ => VisibleCall s c) ⟨d, d.dspClear s⟩
          (calls.flatMap Call.each) ↔
        Guarded (State.step masks) ReachableCall ⟨d, d.dspClear s⟩ (calls.flatMap Call.each)) := by
  refine ⟨calls_each masks _ calls, ?_⟩
  refine Along.iff_guarded (I := State.OnRight) (G := fun _ _ => True) (fun s c right _ => ?_)
    ⟨h, Int.le_refl 0⟩ .of_true
  refine ⟨(), s.call masks c, rfl, ?_, fun _ => right.call masks c⟩
  have iff := unclipped_iff right.cell right.x
  constructor
  · intro visible b e printable
    exact iff.mp (visible b e printable)
  · intro reachable b e printable
    exact iff.mpr (reachable b e printable)

/-- The call does not set the cursor, or only to a cell on the screen. -/
def Call.SetsCell (d : Display) : Call → Prop
  | .setCursor x y => u32 (x * d.font.width) + d.font.width ≤ d.fb.width ∧
      u32 (y * d.font.height) + d.font.height ≤ d.fb.height
  | _ => True

/-- The cursor's line is on the screen, or the next one, and then the cursor is not beyond the right
    edge. -/
structure State.Near (d : Display) (s : State) : Prop where
  fb : s.display.fb = d.fb
  font : s.display.font = d.font
  x : 0 ≤ s.screen.dspX
  line : 0 ≤ s.screen.dspY ∧ s.screen.dspY + d.font.height ≤ d.fb.height ∨
    d.font.height ≤ s.screen.dspY ∧ s.screen.dspY ≤ d.fb.height ∧
      s.screen.dspX + d.font.width ≤ d.fb.width

/-- The next character is put within reach of the screen. -/
lemma State.Near.inReach {d : Display} {s : State} (near : s.Near d) :
    s.display.InReach (s.display.wrappedY s.screen) := by
  have line := near.line
  unfold Display.InReach Display.wrappedY
  rw [near.fb, near.font]
  split
  · omega
  · omega

/-- The display keeps room for a cell. -/
lemma State.Near.oneCell {d : Display} (h : d.OneCell) {s : State} (near : s.Near d) :
    s.display.OneCell := by
  refine ⟨?_, ?_, ?_⟩
  · rw [near.font]
    exact h.rows
  · rw [near.fb, near.font]
    exact h.width
  · rw [near.fb, near.font]
    exact h.height

/-- A character leaves the cursor near the screen. -/
lemma State.Near.putchar {d : Display} (h : d.OneCell) {s : State} (near : s.Near d) (c : Byte) :
    State.Near d { s with screen := s.display.dspPutchar s.screen c } where
  fb := near.fb
  font := near.font
  x := putchar_x_nonneg near.x c
  line := by
    obtain ⟨y0, y1, x0, x1⟩ := (unclipped_iff (near.oneCell h) near.x).mpr near.inReach
    have width := h.width
    rw [near.fb, near.font] at y1 x1
    unfold Display.dspPutchar
    generalize s.display.checkScrollOrNewLine s.screen = s' at y0 y1 x0 x1 ⊢
    rw [near.font]
    dsimp only
    split
    · dsimp only
      omega
    split
    · exact .inl ⟨y0, y1⟩
    split
    · exact .inl ⟨y0, y1⟩
    split
    · exact .inl ⟨y0, y1⟩
    · exact .inl ⟨y0, y1⟩

/-- So does a text. -/
lemma State.Near.print {d : Display} (h : d.OneCell) {s : State} (near : s.Near d)
    (str : List Byte) : State.Near d { s with screen := s.display.dspPrint s.screen str } := by
  induction str generalizing s with
  | nil => exact near
  | cons c cs ih =>
    rw [Display.dspPrint]
    split
    · exact near
    · exact ih (near.putchar h c)

/-- So does any call that sets the cursor to a cell, if it sets it at all. -/
lemma State.Near.call {d : Display} (h : d.OneCell) {s : State} (near : s.Near d) (masks : Masks)
    {c : Call} (cell : c.SetsCell d) : (s.call masks c).Near d := by
  cases c with
  | putchar c => exact near.putchar h c
  | print str => exact near.print h str
  | setCursor x y =>
    obtain ⟨column, row⟩ := cell
    have line := near.line
    have x0 := near.x
    refine ⟨near.fb, near.font, ?_, ?_⟩
    · dsimp only [State.call, Display.dspSetCursor]
      split <;> omega
    · dsimp only [State.call, Display.dspSetCursor]
      rw [near.font]
      split <;> split <;> omega
  | setColor fg bg => exact ⟨near.fb, near.font, near.x, near.line⟩
  | clear =>
    exact ⟨near.fb, near.font, Int.le_refl 0,
      .inl ⟨Int.le_refl 0, Int.zero_add _ ▸ Int.ofNat_le.mpr h.height⟩⟩

/-- As long as the cursor is set to cells on the screen, every printable character is visible. -/
theorem cells_visible (masks : Masks) {d : Display} (h : d.OneCell) (s : Screen) (calls : List Call)
    (cells : ∀ c ∈ calls, c.SetsCell d) :
    Along (State.step masks) (fun s c _ _ => VisibleCall s c) ⟨d, d.dspClear s⟩
      (calls.flatMap Call.each) := by
  have each : ∀ c ∈ calls.flatMap Call.each, c.SetsCell d := by
    intro c mem
    obtain ⟨call, mem, here⟩ := List.mem_flatMap.mp mem
    cases call with
    | print str =>
      obtain ⟨b, _, rfl⟩ := List.mem_map.mp here
      trivial
    | putchar b => exact List.eq_of_mem_singleton here ▸ cells _ mem
    | setCursor x y => exact List.eq_of_mem_singleton here ▸ cells _ mem
    | setColor fg bg => exact List.eq_of_mem_singleton here ▸ cells _ mem
    | clear => exact List.eq_of_mem_singleton here ▸ cells _ mem
  refine Along.of_invariant (I := State.Near d) (G := fun _ c => c.SetsCell d)
    (fun s c near cell => ?_)
    ⟨rfl, rfl, Int.le_refl 0, .inl ⟨Int.le_refl 0, Int.zero_add _ ▸ Int.ofNat_le.mpr h.height⟩⟩
    (.of_forall each)
  refine ⟨(), s.call masks c, rfl, fun b e printable => ?_, near.call h masks cell⟩
  exact (unclipped_iff (near.oneCell h) near.x).mpr near.inReach

/-- A cursor set beyond both edges of a small screen, with a tab after it. -/
theorem printed_visible_iff_small :
    ([.setCursor 9 2, .putchar tab, .print [0x41#8]].flatMap Call.each).foldl
          (State.call ⟨0#32, 0#32, 0#32⟩)
          ⟨smallDisplay, smallDisplay.dspClear ⟨fun _ => 0#8, 7, 7⟩⟩ =
        [Call.setCursor 9 2, .putchar tab, .print [0x41#8]].foldl
          (State.call ⟨0#32, 0#32, 0#32⟩)
          ⟨smallDisplay, smallDisplay.dspClear ⟨fun _ => 0#8, 7, 7⟩⟩ ∧
      (Along (State.step ⟨0#32, 0#32, 0#32⟩) (fun s c _ _ => VisibleCall s c)
          ⟨smallDisplay, smallDisplay.dspClear ⟨fun _ => 0#8, 7, 7⟩⟩
          ([.setCursor 9 2, .putchar tab, .print [0x41#8]].flatMap Call.each) ↔
        Guarded (State.step ⟨0#32, 0#32, 0#32⟩) ReachableCall
          ⟨smallDisplay, smallDisplay.dspClear ⟨fun _ => 0#8, 7, 7⟩⟩
          ([.setCursor 9 2, .putchar tab, .print [0x41#8]].flatMap Call.each)) :=
  printed_visible_iff ⟨0#32, 0#32, 0#32⟩ ⟨by decide, by decide, by decide⟩ ⟨fun _ => 0#8, 7, 7⟩
    [.setCursor 9 2, .putchar tab, .print [0x41#8]]

/-- After `dsp_set_cursor(0, 9)` a character is drawn below a screen of two rows. -/
theorem far_cursor_hides :
    ¬ Along (State.step ⟨0#32, 0#32, 0#32⟩) (fun s c _ _ => VisibleCall s c)
      ⟨smallDisplay, smallDisplay.dspClear ⟨fun _ => 0#8, 7, 7⟩⟩
      ([.setCursor 0 9, .putchar 0x41#8].flatMap Call.each) := by
  rintro ⟨_, s1, e1, _, _, s2, e2, visible, _⟩
  cases e1
  have cell := (visible 0x41#8 rfl ⟨by decide, by decide, by decide, by decide⟩).2.1
  rw [check_y] at cell
  exact absurd cell (by decide)

end TRS.Console
