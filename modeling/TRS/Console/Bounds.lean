import TRS.Console.Paint
import TRS.Libc.Access

/-!
# The console stays in the framebuffer

The console with the accesses that it makes to memory, but for those to the font and to the strings
it prints, and its remaining functions `dsp_print`, `dsp_set_cursor` and `dsp_set_color`. Wherever
the cursor is, every access lies in the framebuffer.

* `callLog_val`: the logged console does what the console does.
* `Framed.keeps`: each store to a word of the framebuffer, and the move of a scroll, stays inside.
* `scrollLog_keeps`, `paintLog_keeps`, `dspPutcharLog_keeps`: so does every function built of them.

The headline `console_in_framebuffer` is by induction on the calls. What is kept is any property
of memory and log that the stores and the moves keep (`Display.Keeps`).
-/

namespace TRS.Console
open TRS.Lib TRS.Libc

/-- The masks of `framebuf_info_t`. -/
structure Masks where
  rmask : Pixel
  gmask : Pixel
  bmask : Pixel

namespace Display
variable (d : Display)

/-- `dsp_print(str)` on the bytes from `str` on. -/
def dspPrint (s : Screen) : List Byte → Screen
  | [] => s
  | c :: cs => if c = 0#8 then s else dspPrint (d.dspPutchar s c) cs

/-- `dsp_set_color(col_fg, col_bg)`. -/
def dspSetColor (masks : Masks) (colFg colBg : Pixel) : Display :=
  { d with
    fg := colFg &&& masks.rmask ||| colFg &&& masks.gmask ||| colFg &&& masks.bmask
    bg := colBg &&& masks.rmask ||| colBg &&& masks.gmask ||| colBg &&& masks.bmask }

/-- `dsp_set_cursor(x, y)`. -/
def dspSetCursor (s : Screen) (x y : Nat) : Screen :=
  { s with
    dspX := if x ≠ 0 then u32 (x * d.font.width) else s.dspX
    dspY := if y ≠ 0 then u32 (y * d.font.height) else s.dspY }

end Display

/-- A call of the console. -/
inductive Call where
  | putchar (c : Byte)
  | print (str : List Byte)
  | setCursor (x y : Nat)
  | setColor (fg bg : Pixel)
  | clear

/-- The variables of the console. -/
structure State where
  display : Display
  screen : Screen

/-- One call. -/
def State.call (masks : Masks) (s : State) : Call → State
  | .putchar c => { s with screen := s.display.dspPutchar s.screen c }
  | .print str => { s with screen := s.display.dspPrint s.screen str }
  | .setCursor x y => { s with screen := s.display.dspSetCursor s.screen x y }
  | .setColor fg bg => { s with display := s.display.dspSetColor masks fg bg }
  | .clear => { s with screen := s.display.dspClear s.screen }

/-! ## The accesses -/

/-- Part of a screen's memory, with its accesses. -/
def onMem (f : Logged Mem Access → Logged Mem Access) (t : Logged Screen Access) :
    Logged Screen Access :=
  (f (t.map Screen.mem)).map fun mem => { t.val with mem }

namespace Display
variable (d : Display)

/-- `dst[i] = color`, with its access. -/
def setPixelLog (i : Nat) (color : Pixel) (t : Logged Mem Access) : Logged Mem Access :=
  t.step (fun m => d.setPixel m i color) fun _ => [.write (d.fb.base + 4 * i) 4]

/-- The scrolling, with its accesses. -/
def scrollLog (t : Logged Mem Access) : Logged Mem Access :=
  let totalFb := u32 (d.fb.height * d.fb.pitch) / 4
  let line := u32 (d.font.height * d.fb.pitch) / 4
  let t := memmoveLog d.fb.base (d.fb.base + 4 * line) (u64 (sub64 totalFb line * 4)) t
  forRange 1 (line + 1) (fun i t => d.setPixelLog (sub64 totalFb i) d.bg t) t

/-- `check_scroll_or_new_line()`, with its accesses. -/
def checkScrollOrNewLineLog (t : Logged Screen Access) : Logged Screen Access :=
  let t := t.map fun s : Screen =>
    if s.dspX + d.font.width > d.fb.width then
      { s with dspY := s.dspY + d.font.height, dspX := 0 }
    else s
  if t.val.dspY + d.font.height > d.fb.height then
    (onMem d.scrollLog t).map fun s => { s with dspY := s.dspY - d.font.height, dspX := 0 }
  else t

/-- `dsp_clear()`, with its accesses. -/
def dspClearLog (t : Logged Screen Access) : Logged Screen Access :=
  let total := u32 (d.fb.pitch / 4 * d.fb.height)
  (onMem (forRange 0 total fun i t => d.setPixelLog i d.bg t) t).map fun s =>
    { s with dspY := 0, dspX := 0 }

/-- A pixel of a glyph, with its access. -/
def paintPixelLog (dspY dspX : Int) (glyph : Byte) (i j : Nat) (t : Logged Mem Access) :
    Logged Mem Access :=
  let screenX := toU32 (dspX + j)
  let screenY := toU32 (dspY + i)
  if screenX < d.fb.width ∧ screenY < d.fb.height then
    d.setPixelLog (u32 (u32 (screenY * (d.fb.pitch / 4)) + screenX)) (d.color glyph i j) t
  else t

/-- The loops over the rows and columns of a glyph, with their accesses. -/
def paintLog (dspY dspX : Int) (glyph : Byte) (t : Logged Mem Access) : Logged Mem Access :=
  forRange 0 d.font.height
    (fun i t => forRange 0 d.font.width (fun j t => d.paintPixelLog dspY dspX glyph i j t) t) t

/-- `dsp_putchar(c)`, with its accesses. -/
def dspPutcharLog (t : Logged Screen Access) (c : Byte) : Logged Screen Access :=
  let t := d.checkScrollOrNewLineLog t
  if c = newline then t.map fun s => { s with dspY := s.dspY + d.font.height, dspX := 0 }
  else if c = tab then t.map fun s => { s with dspX := s.dspX + u32 (d.font.width * 4) }
  else if c = backspace then
    let dspX := if t.val.dspX ≥ d.font.width then t.val.dspX - d.font.width else t.val.dspX
    (onMem (d.paintLog t.val.dspY dspX (d.glyphOf space)) t).map fun s => { s with dspX }
  else if c = return_ then t.map fun s => { s with dspX := 0 }
  else
    (onMem (d.paintLog t.val.dspY t.val.dspX (d.glyphOf c)) t).map fun s =>
      { s with dspX := s.dspX + d.font.width }

/-- `dsp_print(str)`, with its accesses. -/
def dspPrintLog (t : Logged Screen Access) : List Byte → Logged Screen Access
  | [] => t
  | c :: cs => if c = 0#8 then t else dspPrintLog (d.dspPutcharLog t c) cs

end Display

/-- One call, with its accesses. -/
def callLog (masks : Masks) (t : Logged State Access) (c : Call) : Logged State Access :=
  let d := t.val.display
  let s := t.map State.screen
  match c with
  | .putchar c => (d.dspPutcharLog s c).map (State.mk d)
  | .print str => (d.dspPrintLog s str).map (State.mk d)
  | .setCursor x y => s.map fun s => ⟨d, d.dspSetCursor s x y⟩
  | .setColor fg bg => s.map (State.mk (d.dspSetColor masks fg bg))
  | .clear => (d.dspClearLog s).map (State.mk d)

/-! ## The same console -/

namespace Display
variable (d : Display)

/-- A logged change of the memory is the change of the screen's memory. -/
lemma onMem_val {f : Logged Mem Access → Logged Mem Access} {g : Mem → Mem}
    (same : ∀ t, (f t).val = g t.val) (t : Logged Screen Access) :
    (onMem f t).val = { t.val with mem := g t.val.mem } := by
  unfold onMem
  rw [Logged.map_val, same, Logged.map_val]

/-- The logged scroll is the scroll. -/
lemma scrollLog_val (t : Logged Mem Access) : (d.scrollLog t).val = d.scroll t.val := by
  unfold scrollLog scroll
  dsimp only
  rw [forRange_val (fun i m => d.setPixel m (sub64 (u32 (d.fb.height * d.fb.pitch) / 4) i) d.bg)
    fun _ _ => rfl, memmoveLog_val]

/-- The logged check is the check. -/
lemma checkScrollOrNewLineLog_val (t : Logged Screen Access) :
    (d.checkScrollOrNewLineLog t).val = d.checkScrollOrNewLine t.val := by
  unfold checkScrollOrNewLineLog checkScrollOrNewLine
  dsimp only
  by_cases wrap : t.val.dspX + d.font.width > d.fb.width
  · simp only [Logged.map_val, if_pos wrap]
    split
    · rw [Logged.map_val, onMem_val d.scrollLog_val, Logged.map_val, if_pos wrap]
    · rw [Logged.map_val, if_pos wrap]
  · simp only [Logged.map_val, if_neg wrap]
    split
    · rw [Logged.map_val, onMem_val d.scrollLog_val, Logged.map_val, if_neg wrap]
    · rw [Logged.map_val, if_neg wrap]

/-- The logged store of a pixel is the store. -/
lemma paintPixelLog_val (dspY dspX : Int) (glyph : Byte) (i j : Nat) (t : Logged Mem Access) :
    (d.paintPixelLog dspY dspX glyph i j t).val = d.paintPixel dspY dspX glyph i j t.val := by
  unfold paintPixelLog paintPixel
  dsimp only
  split <;> rfl

/-- The logged painting of a glyph is the painting. -/
lemma paintLog_val (dspY dspX : Int) (glyph : Byte) (t : Logged Mem Access) :
    (d.paintLog dspY dspX glyph t).val = d.paint dspY dspX glyph t.val := by
  unfold paintLog paint
  rw [forRange_val (fun i m => forRange 0 d.font.width (d.paintPixel dspY dspX glyph i) m)
    fun i t => forRange_val _ (d.paintPixelLog_val dspY dspX glyph i) 0 d.font.width t]

/-- The logged `dsp_putchar` is `dsp_putchar`. -/
lemma dspPutcharLog_val (t : Logged Screen Access) (c : Byte) :
    (d.dspPutcharLog t c).val = d.dspPutchar t.val c := by
  unfold dspPutcharLog dspPutchar
  dsimp only
  rw [← d.checkScrollOrNewLineLog_val t]
  generalize d.checkScrollOrNewLineLog t = t
  split
  · rfl
  split
  · rfl
  split
  · rw [Logged.map_val, onMem_val (d.paintLog_val _ _ _)]
  split
  · rfl
  · rw [Logged.map_val, onMem_val (d.paintLog_val _ _ _)]

/-- The logged `dsp_print` is `dsp_print`. -/
lemma dspPrintLog_val (t : Logged Screen Access) (str : List Byte) :
    (d.dspPrintLog t str).val = d.dspPrint t.val str := by
  induction str generalizing t with
  | nil => rfl
  | cons c cs ih =>
    rw [dspPrintLog, dspPrint]
    split
    · rfl
    · rw [ih, d.dspPutcharLog_val]

/-- The logged `dsp_clear` is `dsp_clear`. -/
lemma dspClearLog_val (t : Logged Screen Access) : (d.dspClearLog t).val = d.dspClear t.val := by
  unfold dspClearLog dspClear
  dsimp only
  rw [Logged.map_val, onMem_val fun t =>
    forRange_val (fun i m => d.setPixel m i d.bg) (fun _ _ => rfl) 0 _ t]

end Display

/-- A logged call is the call. -/
lemma callLog_val (masks : Masks) (t : Logged State Access) (c : Call) :
    (callLog masks t c).val = t.val.call masks c := by
  cases c with
  | putchar c =>
    unfold callLog State.call
    dsimp only
    rw [Logged.map_val, Display.dspPutcharLog_val]
    rfl
  | print str =>
    unfold callLog State.call
    dsimp only
    rw [Logged.map_val, Display.dspPrintLog_val]
    rfl
  | setCursor x y => rfl
  | setColor fg bg => rfl
  | clear =>
    unfold callLog State.call
    dsimp only
    rw [Logged.map_val, Display.dspClearLog_val]
    rfl

/-! ## The bounds -/

/-- The access is one to words of the framebuffer. -/
def FramebufInfo.Covers (fb : FramebufInfo) : Access → Prop :=
  Access.Within fb.base (4 * (fb.height * fb.pitch / 4))

namespace Display
variable {d : Display} {t : Logged Mem Access}

/-- The number of words of the framebuffer, as `check_scroll_or_new_line` computes it. -/
lemma Framed.total (h : d.Framed) :
    u32 (d.fb.height * d.fb.pitch) / 4 = d.fb.height * (d.fb.pitch / 4) ∧
      d.fb.height * d.fb.pitch / 4 = d.fb.height * (d.fb.pitch / 4) ∧
      d.fb.height * (d.fb.pitch / 4) < 2 ^ 30 := by
  have size := h.total_eq
  refine ⟨size, ?_, h.total_lt⟩
  rwa [u32_of_lt h.small] at size

/-- The number of words that a scroll moves by is no larger. -/
lemma Framed.line (h : d.Framed) :
    u32 (d.font.height * d.fb.pitch) / 4 ≤ d.fb.height * (d.fb.pitch / 4) := by
  rw [h.line_eq]
  exact h.line_le

/-- What holds of the memory and its log through every store to a word of the framebuffer, and
    through the move of the scroll. -/
structure Keeps (d : Display) (I : Logged Mem Access → Prop) : Prop where
  pixel : ∀ t i color, i < d.fb.height * (d.fb.pitch / 4) → I t → I (d.setPixelLog i color t)
  move : ∀ t line, line ≤ d.fb.height * (d.fb.pitch / 4) → I t →
    I (memmoveLog d.fb.base (d.fb.base + 4 * line)
      ((d.fb.height * (d.fb.pitch / 4) - line) * 4) t)

/-- The accesses stay in the framebuffer, and account for what has changed since `m₀`. -/
def Confined (d : Display) (m₀ : Mem) (t : Logged Mem Access) : Prop :=
  AllLogged d.fb.Covers t ∧ Accounts m₀ t

/-- The stores and the moves of the console are so confined. -/
lemma Framed.keeps (h : d.Framed) (m₀ : Mem) : d.Keeps (d.Confined m₀) where
  pixel := by
    rintro t i color lt ⟨log, acc⟩
    have total := h.total
    constructor
    · refine log.step fun a m => ?_
      obtain rfl := List.mem_singleton.mp m
      exact ⟨by omega, by omega⟩
    · refine acc.more rfl fun b none_ => ?_
      have no : ¬ (d.fb.base + 4 * i ≤ b ∧ b < d.fb.base + 4 * i + 4) :=
        none_ _ (List.mem_singleton_self _)
      exact (Mem.store32_apply ..).trans (if_neg no)
  move := by
    rintro t line le ⟨log, acc⟩
    have total := h.total
    refine ⟨fun a m => ?_, memmoveLog_accounts _ _ _ acc⟩
    -- the move reads up to the last word and writes below
    rcases memmoveLog_accesses _ _ _ log a m with old | own
    · exact old
    · cases a with
      | read a k =>
        have inside : Access.Within (d.fb.base + 4 * line)
          ((d.fb.height * (d.fb.pitch / 4) - line) * 4) (.read a k) := own
        exact inside.mono (by omega) (by omega)
      | write a k =>
        have inside : Access.Within d.fb.base
          ((d.fb.height * (d.fb.pitch / 4) - line) * 4) (.write a k) := own
        exact inside.mono (Nat.le_refl _) (by omega)

section
variable {I : Logged Mem Access → Prop} (h : d.Framed) (k : d.Keeps I)
include h k

/-- A scroll keeps what each of its accesses keeps. -/
lemma scrollLog_keeps (it : I t) : I (d.scrollLog t) := by
  have total := h.total
  have line := h.line
  unfold scrollLog
  dsimp only
  rw [total.1]
  generalize u32 (d.font.height * d.fb.pitch) / 4 = l at line ⊢
  rw [sub64_of_le line (by omega), u64_of_lt (by omega)]
  refine forRange_induct (fun _ t => I t) (by omega) (k.move t l line it) fun i t h1 h2 it => ?_
  refine k.pixel t _ d.bg ?_ it
  rw [sub64_of_le (by omega) (by omega)]
  omega

/-- So does the painting of a glyph, wherever the cursor is. -/
lemma paintLog_keeps (it : I t) (dspY dspX : Int) (glyph : Byte) :
    I (d.paintLog dspY dspX glyph t) := by
  unfold paintLog
  refine forRange_induct (fun _ t => I t) (Nat.zero_le _) it fun i t _ _ it => ?_
  refine forRange_induct (fun _ t => I t) (Nat.zero_le _) it fun j t _ _ it => ?_
  unfold paintPixelLog
  dsimp only
  split
  · next inside =>
    -- the test of the source bounds both coordinates, whatever the cursor was
    have wide := h.wide
    have total := h.total
    have row : toU32 (dspY + i) * (d.fb.pitch / 4) + d.fb.pitch / 4 ≤
        d.fb.height * (d.fb.pitch / 4) := by
      rw [← Nat.succ_mul]
      exact Nat.mul_le_mul_right _ inside.2
    have lt := inside.1
    refine k.pixel t _ _ ?_ it
    rw [u32_of_lt (n := toU32 (dspY + i) * (d.fb.pitch / 4)) (by omega), u32_of_lt (by omega)]
    omega
  · exact it

/-! ## The calls -/

variable {s : Logged Screen Access}

/-- So does `dsp_putchar`. -/
lemma dspPutcharLog_keeps (is : I (s.map Screen.mem)) (c : Byte) :
    I ((d.dspPutcharLog s c).map Screen.mem) := by
  have checked : I ((d.checkScrollOrNewLineLog s).map Screen.mem) := by
    -- the wrap of the line leaves the memory alone
    have wrapped : ∀ s' : Screen, s'.mem = s.val.mem → I ⟨s'.mem, s.log⟩ := by
      intro s' same
      rw [same]
      exact is
    have moved : ∀ s' : Screen, s'.mem = s.val.mem → I (d.scrollLog ⟨s'.mem, s.log⟩) :=
      fun s' same => scrollLog_keeps h k (wrapped s' same)
    unfold checkScrollOrNewLineLog
    dsimp only
    split
    · apply moved
      dsimp only [Logged.map_val]
      split <;> rfl
    · apply wrapped
      dsimp only [Logged.map_val]
      split <;> rfl
  unfold dspPutcharLog
  dsimp only
  generalize d.checkScrollOrNewLineLog s = s at checked ⊢
  have painted : ∀ y x g, I (d.paintLog y x g (s.map Screen.mem)) := paintLog_keeps h k checked
  split
  · exact checked
  split
  · exact checked
  split
  · exact painted _ _ _
  split
  · exact checked
  · exact painted _ _ _

/-- So does `dsp_print`. -/
lemma dspPrintLog_keeps (is : I (s.map Screen.mem)) (str : List Byte) :
    I ((d.dspPrintLog s str).map Screen.mem) := by
  induction str generalizing s with
  | nil => exact is
  | cons c cs ih =>
    rw [dspPrintLog]
    split
    · exact is
    · exact ih (dspPutcharLog_keeps h k is c)

/-- So does `dsp_clear`. -/
lemma dspClearLog_keeps (is : I (s.map Screen.mem)) : I ((d.dspClearLog s).map Screen.mem) := by
  unfold dspClearLog
  dsimp only
  rw [h.clear_eq]
  exact forRange_induct (fun _ t => I t) (Nat.zero_le _) is
    fun i t _ lt it => k.pixel t i d.bg lt it

end

end Display

/-- The memory under the console. -/
def State.mem (s : State) : Mem := s.screen.mem

/-- A call keeps what the framebuffer's stores keep, and the framebuffer and the font stay. -/
lemma callLog_keeps {I : Logged Mem Access → Prop} (masks : Masks) {t : Logged State Access}
    (h : t.val.display.Framed) (k : t.val.display.Keeps I) (it : I (t.map State.mem)) (c : Call) :
    I ((callLog masks t c).map State.mem) ∧
      (callLog masks t c).val.display.fb = t.val.display.fb ∧
      (callLog masks t c).val.display.font = t.val.display.font := by
  cases c with
  | putchar c => exact ⟨Display.dspPutcharLog_keeps (s := t.map State.screen) h k it c, rfl, rfl⟩
  | print str => exact ⟨Display.dspPrintLog_keeps (s := t.map State.screen) h k it str, rfl, rfl⟩
  | setCursor x y => exact ⟨it, rfl, rfl⟩
  | setColor fg bg => exact ⟨it, rfl, rfl⟩
  | clear => exact ⟨Display.dspClearLog_keeps h k it, rfl, rfl⟩

/-- Only the framebuffer and the font decide whether a display is framed. -/
lemma Display.Framed.congr {d d' : Display} (h : d.Framed) (fb : d'.fb = d.fb)
    (font : d'.font = d.font) : d'.Framed := by
  obtain ⟨words, wide, small, w0, w1, h0, h1⟩ := h
  rw [← fb] at words wide small w1 h1
  rw [← font] at w0 w1 h0 h1
  exact ⟨words, wide, small, w0, w1, h0, h1⟩

/-- The console never leaves the framebuffer: from any screen and any cursor on, every access of any
    sequence of calls is one to words of the framebuffer. The logged calls are the calls, and no
    byte changes but those that the log stores to. -/
theorem console_in_framebuffer (masks : Masks) {s : State} (h : s.display.Framed)
    (calls : List Call) :
    (calls.foldl (callLog masks) ⟨s, []⟩).val = calls.foldl (State.call masks) s ∧
      (∀ a ∈ (calls.foldl (callLog masks) ⟨s, []⟩).log, s.display.fb.Covers a) ∧
      Accounts s.mem ((calls.foldl (callLog masks) ⟨s, []⟩).map State.mem) := by
  have run : ∀ t : Logged State Access, t.val.display.Framed →
      t.val.display.Confined s.mem (t.map State.mem) →
      (calls.foldl (callLog masks) t).val = calls.foldl (State.call masks) t.val ∧
        t.val.display.Confined s.mem ((calls.foldl (callLog masks) t).map State.mem) := by
    induction calls with
    | nil => exact fun t _ conf => ⟨rfl, conf⟩
    | cons c cs ih =>
      intro t h conf
      obtain ⟨conf', fb, font⟩ := callLog_keeps masks h (h.keeps s.mem) conf c
      unfold Display.Confined at conf' ⊢
      rw [← fb] at conf'
      obtain ⟨same, all⟩ := ih _ (h.congr fb font) conf'
      unfold Display.Confined at all
      rw [fb] at all
      rw [callLog_val] at same
      exact ⟨same, all⟩
  exact run ⟨s, []⟩ h ⟨fun a m => absurd m List.not_mem_nil, fun _ _ => rfl⟩

/-- A screen of 40 by 20 pixels and a font of 8 by 16, with the cursor far outside. -/
def farState : State where
  display :=
    { fb := ⟨0x1000, 40, 20, 192⟩, font := ⟨32, 256, 16, 16, 8⟩, fontBytes := fun _ => 0#8
      fg := 0xFFFFFF#32, bg := 0#32 }
  screen := ⟨fun _ => 0#8, 2 ^ 40, -7⟩

/-- Its framebuffer and its font are as the boot loader and the linker leave them. -/
lemma farState_framed : farState.display.Framed := by
  refine ⟨?_, ?_, ?_, ?_, ?_, ?_, ?_⟩ <;> decide

/-- Calls that scroll, wrap the cursor's product and clear. -/
def farCalls : List Call :=
  [.putchar 0x41#8, .setCursor 0xFFFFFFFF 3, .print [tab, newline, 0x42#8], .setColor 1#32 2#32,
    .clear]

/-- A cursor far outside of the screen, and every call of the console. -/
theorem console_in_framebuffer_far :
    (farCalls.foldl (callLog ⟨0#32, 0#32, 0#32⟩) ⟨farState, []⟩).val =
        farCalls.foldl (State.call ⟨0#32, 0#32, 0#32⟩) farState ∧
      (∀ a ∈ (farCalls.foldl (callLog ⟨0#32, 0#32, 0#32⟩) ⟨farState, []⟩).log,
        farState.display.fb.Covers a) ∧
      Accounts farState.mem
        ((farCalls.foldl (callLog ⟨0#32, 0#32, 0#32⟩) ⟨farState, []⟩).map State.mem) :=
  console_in_framebuffer _ farState_framed farCalls

end TRS.Console
