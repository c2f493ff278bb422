import TRS.Lib.Mem
import TRS.Lib.Word

/-!
# Streams

`kernel/stream.c`: the ring buffer, and `stream_try_read`, which takes bytes out of it with
interrupts off, so that it is one atomic step of the kernel.

The ring keeps one place free; `stream_try_read` masks interrupts around its loop.
-/

namespace TRS.Stream
open TRS.Lib

/-- `STREAM_BUFFER_SIZE`. -/
abbrev streamBufferSize : Nat := 4096

/-- `ringbuf_t`. -/
structure RingBuf where
  buf : Mem
  head : Nat
  tail : Nat

/-- `stream_t`, without its two function pointers. -/
structure StreamT where
  rb : RingBuf
  flag : Nat
  overflow : Nat

/-- `ringbuf_put(rb, c)`. -/
def ringbufPut (rb : RingBuf) (c : Byte) : Int × RingBuf :=
  let next := u32 (rb.head + 1) &&& (streamBufferSize - 1)
  if next = rb.tail then (-1, rb)
  else (0, { rb with buf := rb.buf.write rb.head c, head := next })

/-- `ringbuf_get(rb, out)`, with the byte it stores to `*out`. -/
def ringbufGet (rb : RingBuf) : Int × Option Byte × RingBuf :=
  if rb.tail = rb.head then (-1, none, rb)
  else
    (0, some (rb.buf rb.tail), { rb with tail := u32 (rb.tail + 1) &&& (streamBufferSize - 1) })

/-- `stream_init(s, flags)`; it leaves the bytes of the buffer as they are. -/
def streamInit (s : StreamT) (flags : Nat) : StreamT :=
  { s with rb := { s.rb with head := 0, tail := 0 }, overflow := 0, flag := flags }

/-- The loop of `stream_try_read` with `n` bytes of the destination left: the bytes it stores. -/
def tryRead : (n : Nat) → RingBuf → List Byte × RingBuf
  | 0, rb => ([], rb)
  | n + 1, rb =>
    let (rc, out, rb) := ringbufGet rb
    if rc = 0 then
      let (bs, rb) := tryRead n rb
      (out.toList ++ bs, rb)
    else ([], rb)

/-- The flag `ST_READ`. -/
abbrev stRead : Nat := 1

/-- `stream_try_read(s, dst, len)`: its return value and the bytes it stores from `dst` on. -/
def streamTryRead (s : StreamT) (dst len : Nat) : Int × List Byte × StreamT :=
  if s.flag &&& stRead = 0 ∨ dst = 0 then (-1, [], s)
  else
    let (bs, rb) := tryRead len s.rb
    (i32 (u32 bs.length), bs, { s with rb })

/-- One pass of the loop of `stream_read(s, dst, len)` that has read `got` bytes so far: how many it
    has read then, and the bytes it stores. A pass that gets nothing waits for the next
    interrupt. -/
def streamReadPass (s : StreamT) (dst len got : Nat) : Nat × List Byte × StreamT :=
  let (n, bs, s) := streamTryRead s (dst + got) (len - got)
  if 0 < n then (u32 (got + n.toNat), bs, s) else (got, bs, s)

end TRS.Stream
