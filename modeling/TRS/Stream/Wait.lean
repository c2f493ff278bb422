import TRS.Lib.While
import TRS.Stream.Pipe

/-!
# A read that waits

The loop of `stream_read` over time: between its passes other parts of the kernel change the ring.
The loop takes the error of `stream_try_read` for an empty ring.

* `streamReadPass_unreadable`: a pass on a stream that cannot be read takes nothing.
* `streamRead_unreadable`: so no number of passes ends the loop.

The headline `stream_read_hangs` is by the rule `loop_none`, whatever arrives between the passes.
-/

namespace TRS.Stream
open TRS.Lib

/-- The loop of `stream_read(s, dst, len)`: the stream, the variable `got`, the bytes stored from
    `dst` on, and the number of passes made. -/
structure Reading where
  stream : StreamT
  got : Nat
  bytes : List Byte
  passes : Nat

/-- A round of the loop; `meanwhile k` is what happens to the stream after pass `k`. -/
def streamReadRound (meanwhile : Nat → StreamT → StreamT) (dst len : Nat) (t : Reading) :
    Round Reading (Int × List Byte × StreamT) :=
  if t.got < len then
    let (got, bs, stream) := streamReadPass t.stream dst len t.got
    .again ⟨meanwhile t.passes stream, got, t.bytes ++ bs, t.passes + 1⟩
  else .done (i32 t.got, t.bytes, t.stream)

/-- `stream_read(s, dst, len)`: its return value, the bytes it stores and the stream, if it returns
    within `fuel` rounds. -/
def streamRead (meanwhile : Nat → StreamT → StreamT) (s : StreamT) (dst len fuel : Nat) :
    Option (Int × List Byte × StreamT) :=
  loop (streamReadRound meanwhile dst len) fuel ⟨s, 0, [], 0⟩

/-- Nothing can be read from the stream: it has no `ST_READ`, or the destination is NULL. -/
def Unreadable (s : StreamT) (dst : Nat) : Prop := s.flag &&& stRead = 0 ∨ dst = 0

/-- `stream_try_read` refuses such a stream. -/
lemma streamTryRead_unreadable {s : StreamT} {dst : Nat} (bad : Unreadable s dst) (len : Nat) :
    streamTryRead s dst len = (-1, [], s) := if_pos bad

/-- A pass on an unreadable stream gets nothing. -/
lemma streamReadPass_unreadable {s : StreamT} {dst : Nat} (bad : Unreadable s dst) (len : Nat) :
    streamReadPass s dst len 0 = (0, [], s) := by
  unfold streamReadPass
  rw [Nat.add_zero, streamTryRead_unreadable bad]
  rfl

/-- The loop goes round for ever on an unreadable stream, whatever happens to the ring. -/
lemma streamRead_unreadable {meanwhile : Nat → StreamT → StreamT}
    (keeps : ∀ k s, (meanwhile k s).flag = s.flag) {s : StreamT} {dst len : Nat}
    (bad : Unreadable s dst) (pos : 0 < len) (fuel : Nat) :
    streamRead meanwhile s dst len fuel = none := by
  refine loop_none (I := fun t : Reading => Unreadable t.stream dst ∧ t.got = 0) ?_ ⟨bad, rfl⟩ fuel
  rintro ⟨s, got, bytes, k⟩ ⟨bad, rfl⟩
  refine ⟨⟨meanwhile k s, 0, bytes ++ [], k + 1⟩, ?_, ?_, rfl⟩
  · unfold streamReadRound
    rw [if_pos pos, streamReadPass_unreadable bad]
  · unfold Unreadable at bad ⊢
    rw [keeps]
    exact bad

/-- Where `stream_try_read` reports an error, `stream_read` never returns: for every state of the
    stream, and whatever happens to it while the call waits, but for its flags. -/
theorem stream_read_hangs {meanwhile : Nat → StreamT → StreamT}
    (keeps : ∀ k s, (meanwhile k s).flag = s.flag) {s : StreamT} {dst len : Nat}
    (bad : Unreadable s dst) (pos : 0 < len) :
    (streamTryRead s dst len).1 = -1 ∧
      ¬ ∃ fuel ret bytes s', streamRead meanwhile s dst len fuel = some (ret, bytes, s') := by
  constructor
  · rw [streamTryRead_unreadable bad]
  · rintro ⟨fuel, ret, bytes, s', run⟩
    rw [streamRead_unreadable keeps bad pos] at run
    cases run

/-- A byte arrives after every pass. -/
def oneArrives (_ : Nat) (s : StreamT) : StreamT := { s with rb := (ringbufPut s.rb 0x61#8).2 }

/-- The bytes that arrive leave the flags. -/
lemma oneArrives_flag (k : Nat) (s : StreamT) : (oneArrives k s).flag = s.flag := rfl

/-- A stream that can be written only. -/
def writeOnly : StreamT := ⟨⟨fun _ => 0#8, 0, 0⟩, stWrite, 0⟩

/-- A readable stream and no destination. -/
theorem stream_read_hangs_null : (streamTryRead { writeOnly with flag := stRead } 0 4).1 = -1 ∧
    ¬ ∃ fuel ret bytes s',
      streamRead oneArrives { writeOnly with flag := stRead } 0 4 fuel = some (ret, bytes, s') :=
  stream_read_hangs oneArrives_flag (.inr rfl) (Nat.zero_lt_succ 3)

/-- The stream cannot be read: `stream_try_read` says so, `stream_read` goes round for ever. -/
theorem read_of_write_only_hangs : (streamTryRead writeOnly 0x1000 1).1 = -1 ∧
    ¬ ∃ fuel ret bytes s',
      streamRead oneArrives writeOnly 0x1000 1 fuel = some (ret, bytes, s') ∧ ret < 0 := by
  refine ⟨rfl, ?_⟩
  rintro ⟨fuel, ret, bytes, s', run, _⟩
  rw [streamRead_unreadable oneArrives_flag (.inl rfl) Nat.one_pos] at run
  cases run

end TRS.Stream
