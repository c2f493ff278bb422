import TRS.Console.Basic

/-!
# A terminal of character cells

A grid of `rows` by `cols` cells with a cursor that may stand beyond the right edge or below the
last row; the next character first takes it back, to the next row or onto a new last row.

* `put_cell`, `text_cell`: every character on the grid is one of the text.
* `CursorOk.put`: a character leaves the cursor in a row, or before the first cell below the last.
-/

namespace TRS.Console
open TRS.Lib

/-- What a cell shows: nothing yet, or a character. -/
abbrev Cell := Option Byte

/-- The cells, and the cursor. -/
structure Grid where
  cell : Nat → Nat → Cell
  row : Nat
  col : Nat

namespace Grid
variable (rows cols : Nat)

/-- A terminal without text. -/
def empty : Grid := ⟨fun _ _ => none, 0, 0⟩

/-- From beyond the right edge the cursor goes to the next row. -/
def wrap (g : Grid) : Grid := if cols ≤ g.col then { g with row := g.row + 1, col := 0 } else g

/-- From below the last row the cursor goes onto a new last row; the others move up by one. -/
def scroll (g : Grid) : Grid :=
  if rows ≤ g.row then
    { cell := fun r c => if r + 1 < rows then g.cell (r + 1) c else none
      row := g.row - 1
      col := 0 }
  else g

/-- Show a character in the cell at the cursor. -/
def show_ (g : Grid) (c : Byte) : Grid :=
  { g with cell := fun r k => if r = g.row ∧ k = g.col then some c else g.cell r k }

/-- One character. -/
def put (g : Grid) (c : Byte) : Grid :=
  let g := (g.wrap cols).scroll rows
  if c = newline then { g with row := g.row + 1, col := 0 }
  else if c = tab then { g with col := g.col + 4 }
  else if c = backspace then { g with col := g.col - 1 }.show_ space
  else if c = return_ then { g with col := 0 }
  else { g.show_ c with col := g.col + 1 }

/-- What a character leaves in its cell: a backspace leaves a space. -/
def drawn (c : Byte) : Byte := if c = backspace then space else c

/-- The cursor stands in a row, or before the first cell below the last row. -/
def CursorOk (g : Grid) : Prop := g.row < rows ∨ g.row = rows ∧ g.col = 0

/-- The cursor stands in a cell. -/
def InCell (g : Grid) : Prop := g.row < rows ∧ g.col < cols

variable {rows cols}

/-- After the wrap and the scroll the cursor stands in a cell. -/
lemma CursorOk.inCell {g : Grid} (h : g.CursorOk rows) (r0 : 0 < rows) (c0 : 0 < cols) :
    ((g.wrap cols).scroll rows).InCell rows cols := by
  have wrapped : (g.wrap cols).row ≤ rows ∧ (g.wrap cols).col < cols := by
    unfold CursorOk at h
    unfold wrap
    split
    · dsimp only
      omega
    · omega
  generalize g.wrap cols = g' at wrapped
  unfold scroll
  split
  · exact ⟨show g'.row - 1 < rows by omega, c0⟩
  · exact ⟨by omega, wrapped.2⟩

/-- Every character leaves a good cursor. -/
lemma CursorOk.put {g : Grid} (h : g.CursorOk rows) (r0 : 0 < rows) (c0 : 0 < cols) (c : Byte) :
    (g.put rows cols c).CursorOk rows := by
  obtain ⟨hr, _⟩ := h.inCell r0 c0
  unfold Grid.put
  generalize (g.wrap cols).scroll rows = g' at hr ⊢
  dsimp only
  split
  · exact (Nat.lt_or_eq_of_le hr).imp id fun e => ⟨e, rfl⟩
  split
  · exact .inl hr
  split
  · exact .inl hr
  split
  · exact .inl hr
  · exact .inl hr

/-- A cell shows what the character has left in it, or what a cell showed before. -/
lemma put_cell {g : Grid} {c b : Byte} {r k : Nat} (shown : (g.put rows cols c).cell r k = some b) :
    b = drawn c ∨ ∃ r', g.cell r' k = some b := by
  have wrapped : (g.wrap cols).cell = g.cell := by
    unfold wrap
    split <;> rfl
  have moved : ∀ r k, ((g.wrap cols).scroll rows).cell r k = some b →
      ∃ r', g.cell r' k = some b := by
    intro r k here
    unfold scroll at here
    split at here
    · dsimp only at here
      split at here
      · exact ⟨r + 1, wrapped ▸ here⟩
      · cases here
    · exact ⟨r, wrapped ▸ here⟩
  unfold put at shown
  generalize (g.wrap cols).scroll rows = g' at shown moved
  dsimp only at shown
  split at shown
  · exact .inr (moved r k shown)
  split at shown
  · exact .inr (moved r k shown)
  split at shown
  · next isBackspace =>
    unfold show_ at shown
    dsimp only at shown
    split at shown
    · exact .inl ((Option.some.inj shown).symm.trans (if_pos isBackspace).symm)
    · exact .inr (moved r k shown)
  · next notBackspace =>
    split at shown
    · exact .inr (moved r k shown)
    · unfold show_ at shown
      dsimp only at shown
      split at shown
      · exact .inl ((Option.some.inj shown).symm.trans (if_neg notBackspace).symm)
      · exact .inr (moved r k shown)

/-- The cells of a text show what its characters leave. -/
lemma text_cell (str : List Byte) :
    ∀ r k b, (str.foldl (put rows cols) empty).cell r k = some b → ∃ c ∈ str, b = drawn c := by
  refine List.foldlRecOn str (put rows cols)
    (motive := fun g => ∀ r k b, g.cell r k = some b → ∃ c ∈ str, b = drawn c) ?_ ?_
  · intro r k b shown
    cases shown
  · intro g before c mem r k b shown
    rcases put_cell shown with here | ⟨r', old⟩
    · exact ⟨c, mem, here⟩
    · exact before r' k b old

end Grid

end TRS.Console
