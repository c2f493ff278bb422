import TRS.Lib.Logged
import TRS.Stream.Fifo

/-!
# The keyboard driver

`driver/keyboard.c`: the interrupt handler, over the scan code that it reads from the data port, and
the stream that it fills.

* `kbIrqHandlerLog_val`: the handler with the answers to its puts is the handler.
* `kbPut_spec`: a put appends its byte if there is room, and leaves the contents alone otherwise.
-/

namespace TRS.Keyboard
open TRS.Lib TRS.Stream

/-- The code of a character. -/
def chr (c : Char) : Byte := BitVec.ofNat 8 c.toNat

/-- `scancode_map`: the two characters of a key, both 0 where the key has none. -/
def scancodeMap : (code : Nat) → Byte × Byte
  | 0x02 => (chr '1', chr '!') | 0x03 => (chr '2', chr '@') | 0x04 => (chr '3', chr '#')
  | 0x05 => (chr '4', chr '$') | 0x06 => (chr '5', chr '%') | 0x07 => (chr '6', chr '^')
  | 0x08 => (chr '7', chr '&') | 0x09 => (chr '8', chr '*') | 0x0A => (chr '9', chr '(')
  | 0x0B => (chr '0', chr ')') | 0x0C => (chr '-', chr '_') | 0x0D => (chr '=', chr '+')
  | 0x0F => (0x09#8, 0x09#8) | 0x0E => (0x08#8, 0x08#8)
  | 0x10 => (chr 'q', chr 'Q') | 0x11 => (chr 'w', chr 'W') | 0x12 => (chr 'e', chr 'E')
  | 0x13 => (chr 'r', chr 'R') | 0x14 => (chr 't', chr 'T') | 0x15 => (chr 'y', chr 'Y')
  | 0x16 => (chr 'u', chr 'U') | 0x17 => (chr 'i', chr 'I') | 0x18 => (chr 'o', chr 'O')
  | 0x19 => (chr 'p', chr 'P') | 0x1A => (chr '[', 0x7B#8) | 0x1B => (chr ']', 0x7D#8)
  | 0x1C => (0x0A#8, 0x0A#8)
  | 0x1E => (chr 'a', chr 'A') | 0x1F => (chr 's', chr 'S') | 0x20 => (chr 'd', chr 'D')
  | 0x21 => (chr 'f', chr 'F') | 0x22 => (chr 'g', chr 'G') | 0x23 => (chr 'h', chr 'H')
  | 0x24 => (chr 'j', chr 'J') | 0x25 => (chr 'k', chr 'K') | 0x26 => (chr 'l', chr 'L')
  | 0x27 => (chr ';', chr ':') | 0x28 => (0x27#8, 0x22#8) | 0x29 => (0x60#8, chr '~')
  | 0x2B => (0x5C#8, chr '|')
  | 0x2C => (chr 'z', chr 'Z') | 0x2D => (chr 'x', chr 'X') | 0x2E => (chr 'c', chr 'C')
  | 0x2F => (chr 'v', chr 'V') | 0x30 => (chr 'b', chr 'B') | 0x31 => (chr 'n', chr 'N')
  | 0x32 => (chr 'm', chr 'M') | 0x33 => (chr ',', chr '<') | 0x34 => (chr '.', chr '>')
  | 0x35 => (chr '/', chr '?') | 0x39 => (chr ' ', chr ' ')
  | _ => (0#8, 0#8)

/-- `scancode_map[code][up ? 1 : 0]`. -/
def column (code : Nat) (up : Bool) : Byte :=
  if up then (scancodeMap code).2 else (scancodeMap code).1

/-- `kb_stream`, `shift_down` and `caps_down`. -/
structure Kb where
  stream : StreamT
  shiftDown : Bool
  capsDown : Bool

/-- The state that `kb_init` leaves, over the bytes of the buffer as they are. -/
def kbInit (s : StreamT) : Kb := ⟨streamInit s stRead, false, false⟩

/-- A stream whose buffer is zero. -/
def emptyStream : StreamT := ⟨⟨fun _ => 0#8, 0, 0⟩, 0, 0⟩

/-- A put of the handler, which counts the bytes that find no room. -/
def kbPut (s : StreamT) (c : Byte) : StreamT :=
  let (rc, rb) := ringbufPut s.rb c
  if rc ≠ 0 then { s with rb, overflow := u32 (s.overflow + 1) } else { s with rb }

/-- `c - '0' >= 0 && c - '0' <= 9`, over a signed `char`. -/
def isDigit (c : Byte) : Bool := 0 ≤ c.toInt - 0x30 && c.toInt - 0x30 ≤ 9

/-- The character that the handler picks for a key with the given columns. -/
def pick (code : Nat) (shiftDown capsDown : Bool) : Byte :=
  let c := column code shiftDown
  if isDigit c then c else column code (shiftDown ^^ capsDown)

/-- `kb_irq_handler` on the scan code `sc`. -/
def kbIrqHandler (kb : Kb) (sc : Byte) : Kb :=
  if sc = 0xE0#8 then kb
  else
    let release := decide (sc &&& 0x80#8 ≠ 0#8)
    let code := (sc &&& 0x7F#8).toNat
    if code = 0x2A ∨ code = 0x36 then { kb with shiftDown := !release }
    else if code = 0x3A ∧ !release then { kb with capsDown := !kb.capsDown }
    else if code = 0x0E ∧ !release then
      { kb with stream := { kb.stream with rb := (ringbufPut kb.stream.rb 0x08#8).2 } }
    else if !release ∧ code < 58 ∧ (scancodeMap code).1 ≠ 0#8 then
      { kb with stream := kbPut kb.stream (pick code kb.shiftDown kb.capsDown) }
    else kb

/-- `kb_irq_handler`, with what its call of `ringbuf_put` returns, if it makes one. -/
def kbIrqHandlerLog (kb : Kb) (sc : Byte) : Logged Kb Int :=
  if sc = 0xE0#8 then ⟨kb, []⟩
  else
    let release := decide (sc &&& 0x80#8 ≠ 0#8)
    let code := (sc &&& 0x7F#8).toNat
    if code = 0x2A ∨ code = 0x36 then ⟨{ kb with shiftDown := !release }, []⟩
    else if code = 0x3A ∧ !release then ⟨{ kb with capsDown := !kb.capsDown }, []⟩
    else if code = 0x0E ∧ !release then
      let (rc, rb) := ringbufPut kb.stream.rb 0x08#8
      ⟨{ kb with stream := { kb.stream with rb } }, [rc]⟩
    else if !release ∧ code < 58 ∧ (scancodeMap code).1 ≠ 0#8 then
      let c := pick code kb.shiftDown kb.capsDown
      ⟨{ kb with stream := kbPut kb.stream c }, [(ringbufPut kb.stream.rb c).1]⟩
    else ⟨kb, []⟩

/-- The logged handler is the handler. -/
lemma kbIrqHandlerLog_val (kb : Kb) (sc : Byte) :
    (kbIrqHandlerLog kb sc).val = kbIrqHandler kb sc := by
  unfold kbIrqHandlerLog kbIrqHandler
  dsimp only
  repeat' split
  all_goals rfl

/-! ## What an interrupt does to the stream -/

/-- A put appends its byte if there is room, and leaves the contents alone otherwise. -/
lemma kbPut_spec {s : StreamT} (h : s.rb.InBounds) (c : Byte) :
    (kbPut s c).rb.InBounds ∧ (kbPut s c).flag = s.flag ∧ (kbPut s c).rb.contents =
      s.rb.contents ++ if s.rb.stored < capacity then [c] else [] := by
  unfold kbPut
  rcases RingBuf.put_spec h c with ⟨room, rb', e, h', more⟩ | ⟨full, e⟩
  · rw [e, if_pos room]
    exact ⟨h', rfl, more⟩
  · rw [e, if_neg full, List.append_nil]
    exact ⟨h, rfl, rfl⟩

/-- The put of the backspace key does the same to the ring. -/
lemma kbPut_rb (s : StreamT) (c : Byte) : (kbPut s c).rb = (ringbufPut s.rb c).2 := by
  unfold kbPut
  dsimp only
  split <;> rfl

end TRS.Keyboard
