import TRS.Lib.Word
import TRS.Libc.Memory

/-!
# The console

`kernel/driver/image.c`: text on the framebuffer. The cursor `dsp_y`, `dsp_x` is in pixels; the
wrap at the right edge and the scrolling wait for the next character.

The functions keep the order and the conditions of the source. Their specifications are in
`TRS.Console.Paint` (the loops) and `TRS.Console.Visible` (the cursor).
-/

namespace TRS.Console
open TRS.Lib TRS.Libc

/-- The fields of `framebuf_info_t` that the console reads. -/
structure FramebufInfo where
  base : Nat
  width : Nat
  height : Nat
  pitch : Nat
  deriving DecidableEq, Repr

/-- The fields of `psf_header` that the console reads. -/
structure PsfHeader where
  headersize : Nat
  length : Nat
  charsize : Nat
  height : Nat
  width : Nat
  deriving DecidableEq, Repr

/-- The variables that printing does not change: `fb`, `font` with the bytes from it on, `fg` and
    `bg`. -/
structure Display where
  fb : FramebufInfo
  font : PsfHeader
  fontBytes : Nat → Byte
  fg : Pixel
  bg : Pixel

/-- Memory, and the cursor. -/
structure Screen where
  mem : Mem
  dspY : Int
  dspX : Int

/-- The characters `'\n'`, `'\t'`, `'\b'`, `'\r'`, `' '` and `'?'`. -/
abbrev newline : Byte := 0x0A#8
abbrev tab : Byte := 0x09#8
abbrev backspace : Byte := 0x08#8
abbrev return_ : Byte := 0x0D#8
abbrev space : Byte := 0x20#8
abbrev question : Byte := 0x3F#8

namespace Display
variable (d : Display)

/-- `dst[i] = color`. -/
def setPixel (m : Mem) (i : Nat) (color : Pixel) : Mem := m.store32 (d.fb.base + 4 * i) color

/-- The scrolling in `check_scroll_or_new_line`. -/
def scroll (m : Mem) : Mem :=
  let totalFb := u32 (d.fb.height * d.fb.pitch) / 4
  let line := u32 (d.font.height * d.fb.pitch) / 4
  let m := memmove m d.fb.base (d.fb.base + 4 * line) (u64 (sub64 totalFb line * 4))
  forRange 1 (line + 1) (fun i m => d.setPixel m (sub64 totalFb i) d.bg) m

/-- `check_scroll_or_new_line()`. -/
def checkScrollOrNewLine (s : Screen) : Screen :=
  let s :=
    if s.dspX + d.font.width > d.fb.width then
      { s with dspY := s.dspY + d.font.height, dspX := 0 }
    else s
  if s.dspY + d.font.height > d.fb.height then
    { mem := d.scroll s.mem, dspY := s.dspY - d.font.height, dspX := 0 }
  else s

/-- `dsp_clear()`. -/
def dspClear (s : Screen) : Screen :=
  let total := u32 (d.fb.pitch / 4 * d.fb.height)
  { mem := forRange 0 total (fun i m => d.setPixel m i d.bg) s.mem, dspY := 0, dspX := 0 }

/-- The glyph that stands for a character. -/
def glyphOf (c : Byte) : Byte := if c.toNat ≥ d.font.length then question else c

/-- Byte `k` of `glyph_data`. -/
def glyphData (glyph : Byte) (k : Nat) : Byte :=
  d.fontBytes (d.font.headersize + u32 (glyph.toNat * d.font.charsize) + k)

/-- `line`, in round `i` of the loop over the rows of a glyph. -/
def glyphLine (glyph : Byte) (i : Nat) : Nat :=
  let bytesPerLine := d.font.charsize / d.font.height
  if bytesPerLine = 1 then (d.glyphData glyph i).toNat
  else if bytesPerLine = 2 then
    (d.glyphData glyph (u32 (i * 2))).toNat <<< 8 |||
      (d.glyphData glyph (u32 (u32 (i * 2) + 1))).toNat
  else 0

/-- The colour of column `j` of row `i` of a glyph. -/
def color (glyph : Byte) (i j : Nat) : Pixel :=
  if d.glyphLine glyph i &&& (0x8000 >>> j) ≠ 0 then d.fg else d.bg

/-- Round `j` of the loop over the columns in round `i` of the loop over the rows. -/
def paintPixel (dspY dspX : Int) (glyph : Byte) (i j : Nat) (m : Mem) : Mem :=
  let screenX := toU32 (dspX + j)
  let screenY := toU32 (dspY + i)
  if screenX < d.fb.width ∧ screenY < d.fb.height then
    d.setPixel m (u32 (u32 (screenY * (d.fb.pitch / 4)) + screenX)) (d.color glyph i j)
  else m

/-- The loops over the rows and columns of a glyph. -/
def paint (dspY dspX : Int) (glyph : Byte) (m : Mem) : Mem :=
  forRange 0 d.font.height
    (fun i m => forRange 0 d.font.width (fun j m => d.paintPixel dspY dspX glyph i j m) m) m

/-- `dsp_putchar(c)`. -/
def dspPutchar (s : Screen) (c : Byte) : Screen :=
  let s := d.checkScrollOrNewLine s
  if c = newline then { s with dspY := s.dspY + d.font.height, dspX := 0 }
  else if c = tab then { s with dspX := s.dspX + u32 (d.font.width * 4) }
  else if c = backspace then
    let dspX := if s.dspX ≥ d.font.width then s.dspX - d.font.width else s.dspX
    { s with mem := d.paint s.dspY dspX (d.glyphOf space) s.mem, dspX }
  else if c = return_ then { s with dspX := 0 }
  else
    { s with
      mem := d.paint s.dspY s.dspX (d.glyphOf c) s.mem
      dspX := s.dspX + d.font.width }

end Display

end TRS.Console
