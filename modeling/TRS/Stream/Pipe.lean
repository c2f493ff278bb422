import TRS.Stream.Fifo

/-!
# Streams are pipes

One writer in `stream_write` and one reader in `stream_read` or `stream_try_read`, with their steps
in any order. The reader takes bytes with interrupts off, so that a pass of its loop is one step.
`ringbuf_put` runs with interrupts on and is three steps of the writer: the test for room, the store
of the byte and the new `head`. A party that waits in `hlt` may go on after any interrupt.

* `Pipe.Inv`: what both parties have done and what the ring holds, wherever they are.
* `Inv.test`, `Inv.store`, `Inv.publish`: the steps of the writer keep it.
* `Inv.tryRead`, `Inv.pass`: so do those of the reader.
* `Inv.step`: so does any step.

The headline `streams_are_pipes` is by the rule `exec_invariant` for runs.
-/

namespace TRS.Stream
open TRS.Lib

/-- The flag `ST_WRITE`. -/
abbrev stWrite : Nat := 2

/-- A call `stream_write(s, src, len)`: the `len` bytes at `src`, the counter `i` of its loop, and
    the bytes it has put into the ring. -/
structure Write where
  bytes : List Byte
  i : Nat
  put : List Byte

/-- Where the writer is. -/
inductive Writer where
  | idle
  /-- Before the call `ringbuf_put(&s->rb, p[i])`, or at the end of the loop. -/
  | loop (w : Write)
  /-- In `ringbuf_put(rb, c)`, which has found room. -/
  | store (w : Write) (c : Byte) (next : Nat)
  /-- In `ringbuf_put(rb, c)`, which has stored `c`. -/
  | publish (w : Write) (c : Byte) (next : Nat)

/-- Where the reader is: in no call, or in the loop of `stream_read(s, dst, len)`, with the bytes it
    has stored from `dst` on. -/
inductive Reader where
  | idle
  | loop (dst len got : Nat) (bytes : List Byte)

/-- A call that has returned, with its return value: a `stream_write` with the bytes at `src` and
    those that it put into the ring, and a read with its `len` and the bytes that it stored. -/
inductive Done where
  | write (bytes put : List Byte) (ret : Int)
  | writeRefused
  | read (len : Nat) (bytes : List Byte) (ret : Int)
  | tryRead (len : Nat) (bytes : List Byte) (ret : Int)

/-- The stream and its two parties, with what has happened so far: the bytes that `ringbuf_put` has
    accepted, those that the reader has been given, and the calls that have returned. -/
structure Pipe where
  stream : StreamT
  writer : Writer
  reader : Reader
  accepted : List Byte
  delivered : List Byte
  returned : List Done

/-- What may happen next: a party makes a call, or it goes on. -/
inductive Act where
  | write (src : Nat) (bytes : List Byte)
  | writer
  | read (dst len : Nat)
  | tryRead (dst len : Nat)
  | reader

namespace Pipe

/-- `stream_write(s, src, len)` up to its loop. -/
def write (t : Pipe) (src : Nat) (bytes : List Byte) : Pipe :=
  if t.stream.flag &&& stWrite = 0 ∨ src = 0 then
    { t with returned := t.returned ++ [.writeRefused] }
  else { t with writer := .loop ⟨bytes, 0, []⟩ }

/-- From the loop of `stream_write` to where `ringbuf_put` has made its test. If there is no room
    the writer waits for an interrupt and comes back. -/
def test (t : Pipe) (w : Write) : Pipe :=
  if h : w.i < w.bytes.length then
    let next := u32 (t.stream.rb.head + 1) &&& (streamBufferSize - 1)
    if next = t.stream.rb.tail then
      { t with stream := { t.stream with overflow := u32 (t.stream.overflow + 1) } }
    else { t with writer := .store w w.bytes[w.i] next }
  else
    { t with
      writer := .idle
      returned := t.returned ++ [.write w.bytes w.put (i32 w.bytes.length)] }

/-- `rb->buf[rb->head] = c`. -/
def store (t : Pipe) (w : Write) (c : Byte) (next : Nat) : Pipe :=
  { t with
    stream.rb.buf := t.stream.rb.buf.write t.stream.rb.head c
    writer := .publish w c next }

/-- `rb->head = next` and the way back to the loop. -/
def publish (t : Pipe) (w : Write) (c : Byte) (next : Nat) : Pipe :=
  { t with
    stream.rb.head := next
    writer := .loop ⟨w.bytes, u32 (w.i + 1), w.put ++ [c]⟩
    accepted := t.accepted ++ [c] }

/-- A round of the loop of `stream_read`, which waits for an interrupt if it gets nothing. -/
def pass (t : Pipe) (dst len got : Nat) (bytes : List Byte) : Pipe :=
  if got < len then
    let (got, bs, stream) := streamReadPass t.stream dst len got
    { t with
      stream
      reader := .loop dst len got (bytes ++ bs)
      delivered := t.delivered ++ bs }
  else
    { t with
      reader := .idle
      returned := t.returned ++ [.read len bytes (i32 got)] }

/-- `stream_try_read(s, dst, len)`. -/
def tryRead (t : Pipe) (dst len : Nat) : Pipe :=
  let (n, bs, stream) := streamTryRead t.stream dst len
  { t with
    stream
    delivered := t.delivered ++ bs
    returned := t.returned ++ [.tryRead len bs n] }

/-- One step, an error if the party named cannot take it: a party makes one call at a time, and a
    length is an `unsigned`. -/
def step (t : Pipe) : Act → Except Unit (Unit × Pipe)
  | .write src bytes =>
    match t.writer with
    | .idle => if bytes.length < 2 ^ 32 then .ok ((), t.write src bytes) else .error ()
    | _ => .error ()
  | .writer =>
    match t.writer with
    | .idle => .error ()
    | .loop w => .ok ((), t.test w)
    | .store w c next => .ok ((), t.store w c next)
    | .publish w c next => .ok ((), t.publish w c next)
  | .read dst len =>
    match t.reader with
    | .idle => if len < 2 ^ 32 then .ok ((), { t with reader := .loop dst len 0 [] }) else .error ()
    | _ => .error ()
  | .tryRead dst len =>
    match t.reader with
    | .idle => if len < 2 ^ 32 then .ok ((), t.tryRead dst len) else .error ()
    | _ => .error ()
  | .reader =>
    match t.reader with
    | .idle => .error ()
    | .loop dst len got bytes => .ok ((), t.pass dst len got bytes)

/-- A stream just after `stream_init(s, flags)`, with no call made. -/
def opened (s : StreamT) (flags : Nat) : Pipe := ⟨streamInit s flags, .idle, .idle, [], [], []⟩

end Pipe

/-! ## What a pipe promises -/

/-- The bytes that a call has put into the ring. -/
def Done.put : Done → List Byte
  | write _ put _ => put
  | _ => []

/-- The bytes that a call has been given. -/
def Done.got : Done → List Byte
  | read _ bytes _ | tryRead _ bytes _ => bytes
  | _ => []

/-- A call has done all it was asked to. -/
def Done.Complete : Done → Prop
  | write bytes put ret => put = bytes ∧ ret = i32 bytes.length
  | writeRefused => True
  | read len bytes ret => bytes.length = len ∧ ret = i32 len
  | tryRead len bytes _ => bytes.length ≤ len

/-- The bytes that the call in progress has put into the ring. -/
def Writer.put : Writer → List Byte
  | idle => []
  | loop w | store w _ _ | publish w _ _ => w.put

/-- The bytes that the call in progress has been given. -/
def Reader.got : Reader → List Byte
  | idle => []
  | loop _ _ _ bytes => bytes

/-- What was delivered, and then what is in the ring, is what was accepted; the calls account for
    both, and every call that has returned is complete. -/
structure Pipe.Lossless (t : Pipe) : Prop where
  conserved : t.delivered ++ t.stream.rb.contents = t.accepted
  puts : t.accepted = t.returned.flatMap Done.put ++ t.writer.put
  gets : t.delivered = t.returned.flatMap Done.got ++ t.reader.got
  complete : ∀ d ∈ t.returned, d.Complete

/-! ## One step -/

/-- `rb'` is `rb` after the reader has taken `bs` out of it. -/
structure RingBuf.Taken (rb rb' : RingBuf) (bs : List Byte) : Prop where
  inBounds : rb'.InBounds
  head : rb'.head = rb.head
  buf : rb'.buf = rb.buf
  contents : rb.contents = bs ++ rb'.contents

/-- The reader leaves the bytes and `head` alone. -/
lemma tryRead_frame (n : Nat) (rb : RingBuf) :
    (tryRead n rb).2.head = rb.head ∧ (tryRead n rb).2.buf = rb.buf := by
  induction n generalizing rb with
  | zero => exact ⟨rfl, rfl⟩
  | succ n ih =>
    rw [tryRead, ringbufGet]
    by_cases empty : rb.tail = rb.head
    · rw [if_pos empty]
      exact ⟨rfl, rfl⟩
    · rw [if_neg empty]
      exact ih _

/-- `stream_try_read` takes some of the bytes and returns their number, or refuses. -/
lemma streamTryRead_taken {s : StreamT} (h : s.rb.InBounds) (dst len : Nat) :
    ∃ n bs rb', streamTryRead s dst len = (n, bs, { s with rb := rb' }) ∧ s.rb.Taken rb' bs ∧
      bs.length ≤ len ∧ n.toNat = bs.length := by
  by_cases refused : s.flag &&& stRead = 0 ∨ dst = 0
  · exact ⟨-1, [], s.rb, if_pos refused, ⟨h, rfl, rfl, rfl⟩, Nat.zero_le len, rfl⟩
  · obtain ⟨reads, ne⟩ := not_or.mp refused
    obtain ⟨bytes, inb, rest⟩ := tryRead_spec h len
    obtain ⟨head, buf⟩ := tryRead_frame len s.rb
    obtain ⟨rb', e, _, _⟩ := streamTryRead_spec h reads ne len
    have same : (tryRead len s.rb).2 = rb' := by
      have stream := congrArg (fun r => r.2.2.rb) e
      unfold streamTryRead at stream
      rwa [if_neg refused] at stream
    rw [← same] at e
    refine ⟨_, _, _, e, ⟨inb, head, buf, ?_⟩, ?_, ?_⟩
    · rw [rest, List.take_append_drop]
    · exact List.length_take_le ..
    · rw [List.length_take]
      exact Int.toNat_natCast _

/-- A pass of `stream_read` takes some of the bytes and counts them. -/
lemma streamReadPass_taken {s : StreamT} (h : s.rb.InBounds) (dst : Nat) {len got : Nat}
    (lt : len < 2 ^ 32) (le : got ≤ len) :
    ∃ bs rb', streamReadPass s dst len got = (got + bs.length, bs, { s with rb := rb' }) ∧
      s.rb.Taken rb' bs ∧ got + bs.length ≤ len := by
  obtain ⟨n, bs, rb', e, taken, few, count⟩ := streamTryRead_taken h (dst + got) (len - got)
  refine ⟨bs, rb', ?_, taken, by omega⟩
  unfold streamReadPass
  rw [e]
  dsimp only
  by_cases some : 0 < n
  · rw [if_pos some, count, u32_of_lt (by omega)]
  · have none : bs.length = 0 := by omega
    rw [if_neg some, none, Nat.add_zero]

/-- The loop of `stream_write` has put the bytes before `p[i]`. -/
structure Write.Progress (w : Write) : Prop where
  put : w.put = w.bytes.take w.i
  le : w.i ≤ w.bytes.length
  unsigned : w.bytes.length < 2 ^ 32

/-- What the writer relies on inside `ringbuf_put`: `next` is the index after `head`, and there is
    room. The reader only makes more. -/
structure Write.Putting (w : Write) (c : Byte) (next : Nat) (rb : RingBuf) : Prop
    extends w.Progress where
  byte : w.bytes[w.i]? = some c
  next : next = (rb.head + 1) % streamBufferSize
  room : rb.stored < capacity

/-- The state of the ring at each place of the writer. -/
def Writer.At (rb : RingBuf) : Writer → Prop
  | idle => True
  | loop w => w.Progress
  | store w c next => w.Putting c next rb
  | publish w c next => w.Putting c next rb ∧ rb.buf rb.head = c

/-- The reader counts what it has been given. -/
def Reader.Counts : Reader → Prop
  | idle => True
  | loop _ len got bytes => got = bytes.length ∧ got ≤ len ∧ len < 2 ^ 32

/-- What every step keeps. -/
structure Pipe.Inv (t : Pipe) : Prop extends t.Lossless where
  inBounds : t.stream.rb.InBounds
  writer : t.writer.At t.stream.rb
  reader : t.reader.Counts

/-- The bytes that the reader takes do not matter to a put under way. -/
lemma Write.Putting.taken {w : Write} {c : Byte} {next : Nat} {rb rb' : RingBuf} {bs : List Byte}
    (h : w.Putting c next rb) (taken : rb.Taken rb' bs) : w.Putting c next rb' where
  toProgress := h.toProgress
  byte := h.byte
  next := by rw [taken.head, h.next]
  room := by
    have fewer := congrArg List.length taken.contents
    rw [List.length_append, RingBuf.contents_length, RingBuf.contents_length] at fewer
    exact Nat.lt_of_le_of_lt (by omega) h.room

/-- The three steps of the writer, with nothing in between, are one `ringbuf_put`. -/
lemma put_uninterrupted (t : Pipe) {w : Write} (lt : w.i < w.bytes.length) :
    (ringbufPut t.stream.rb w.bytes[w.i] = (-1, t.stream.rb) ∧ (t.test w).writer = t.writer ∧
      (t.test w).stream.rb = t.stream.rb) ∨
    ∃ c next, (t.test w).writer = .store w c next ∧
      ringbufPut t.stream.rb w.bytes[w.i] =
        (0, (((t.test w).store w c next).publish w c next).stream.rb) := by
  unfold Pipe.test ringbufPut
  rw [dif_pos lt]
  dsimp only
  split
  · exact .inl ⟨rfl, rfl, rfl⟩
  · exact .inr ⟨_, _, rfl, rfl⟩

/-- Wherever the writer is, it does not notice that the reader takes bytes. -/
lemma Writer.At.taken {writer : Writer} {rb rb' : RingBuf} {bs : List Byte}
    (h : writer.At rb) (taken : rb.Taken rb' bs) : writer.At rb' := by
  cases writer with
  | idle => exact h
  | loop w => exact h
  | store w c next => exact Write.Putting.taken h taken
  | publish w c next =>
    refine ⟨h.1.taken taken, ?_⟩
    rw [taken.buf, taken.head]
    exact h.2

namespace Pipe.Inv
variable {t : Pipe}

/-- A pipe that has been opened is empty. -/
lemma opened (s : StreamT) (flags : Nat) : (Pipe.opened s flags).Inv := by
  obtain ⟨inb, empty⟩ := RingBuf.streamInit_refines s flags
  exact
    { conserved := (List.nil_append _).trans empty
      puts := rfl
      gets := rfl
      complete := List.forall_mem_nil _
      inBounds := inb
      writer := trivial
      reader := trivial }

/-- A call returns that is complete and whose bytes are accounted for. -/
lemma returns (h : t.Inv) (d : Done) (writer : Writer) (reader : Reader) (done : d.Complete)
    (at_ : writer.At t.stream.rb) (counts : reader.Counts)
    (put : t.writer.put = d.put ++ writer.put) (got : t.reader.got = d.got ++ reader.got) :
    Pipe.Inv { t with writer, reader, returned := t.returned ++ [d] } where
  conserved := h.conserved
  puts := by
    rw [List.flatMap_append, List.flatMap_singleton, List.append_assoc, ← put]
    exact h.puts
  gets := by
    rw [List.flatMap_append, List.flatMap_singleton, List.append_assoc, ← got]
    exact h.gets
  complete := List.forall_mem_append.mpr ⟨h.complete, List.forall_mem_singleton.mpr done⟩
  inBounds := h.inBounds
  writer := at_
  reader := counts

/-- A call of `stream_write` starts with all of its bytes to come. -/
lemma write (h : t.Inv) (idle : t.writer = .idle) (src : Nat) {bytes : List Byte}
    (unsigned : bytes.length < 2 ^ 32) : (t.write src bytes).Inv := by
  unfold Pipe.write
  split
  · exact h.returns .writeRefused t.writer t.reader trivial h.writer h.reader rfl rfl
  · refine { h with puts := ?_, writer := ⟨rfl, Nat.zero_le _, unsigned⟩ }
    rw [h.puts, idle]
    rfl

/-- The test for room, which ends the put or goes on with it. -/
lemma test (h : t.Inv) {w : Write} (at_ : t.writer = .loop w) : (t.test w).Inv := by
  have progress : w.Progress := by
    have place := h.writer
    rwa [at_] at place
  unfold Pipe.test
  split
  · rename_i more
    rw [RingBuf.next_index h.inBounds.head]
    dsimp only
    split
    · exact { h with }
    · rename_i room
      refine { h with puts := ?_, writer := ⟨progress, List.getElem?_eq_getElem more, rfl, ?_⟩ }
      · rw [h.puts, at_]
        rfl
      · by_contra full
        exact room ((RingBuf.put_full h.inBounds).mpr full)
  · rename_i ended
    have all : w.put = w.bytes := by
      rw [progress.put]
      exact List.take_of_length_le (Nat.le_of_not_lt ended)
    refine h.returns (.write w.bytes w.put (i32 w.bytes.length)) .idle t.reader ⟨all, rfl⟩ trivial
      h.reader ?_ rfl
    rw [at_]
    exact (List.append_nil _).symm

/-- The store of the byte, which the reader does not see yet. -/
lemma store (h : t.Inv) {w : Write} {c : Byte} {next : Nat} (at_ : t.writer = .store w c next) :
    (t.store w c next).Inv := by
  have putting : w.Putting c next t.stream.rb := by
    have place := h.writer
    rwa [at_] at place
  have same := RingBuf.contents_store h.inBounds c
  exact { h with
    conserved := by
      refine Eq.trans ?_ h.conserved
      exact congrArg _ same
    puts := by
      refine h.puts.trans ?_
      rw [at_]
      rfl
    inBounds := ⟨h.inBounds.head, h.inBounds.tail⟩
    writer := ⟨{ putting with }, t.stream.rb.buf.write_same _ c⟩ }

/-- The store of the head, which hands the byte over. -/
lemma publish (h : t.Inv) {w : Write} {c : Byte} {next : Nat}
    (at_ : t.writer = .publish w c next) : (t.publish w c next).Inv := by
  have place := h.writer
  rw [at_] at place
  obtain ⟨putting, stored⟩ := place
  obtain ⟨lt, byte⟩ := List.getElem?_eq_some_iff.mp putting.byte
  have more := RingBuf.contents_publish h.inBounds putting.room
  rw [← putting.next, stored] at more
  exact { h with
    conserved := by
      refine (congrArg _ more).trans ?_
      rw [← List.append_assoc]
      exact congrArg (· ++ [c]) h.conserved
    puts := by
      refine (congrArg (· ++ [c]) h.puts).trans ?_
      rw [at_, List.append_assoc]
      rfl
    inBounds := ⟨putting.next ▸ Nat.mod_lt _ (Nat.zero_lt_succ _), h.inBounds.tail⟩
    writer :=
      { put := by
          have unsigned := putting.unsigned
          dsimp only
          rw [u32_of_lt (by omega), putting.put, List.take_succ_eq_append_getElem lt, byte]
        le := by
          have unsigned := putting.unsigned
          dsimp only
          rw [u32_of_lt (by omega)]
          exact lt
        unsigned := putting.unsigned } }

/-- The reader is given what it takes. -/
lemma takes (h : t.Inv) {rb : RingBuf} {bs : List Byte} (taken : t.stream.rb.Taken rb bs)
    {reader : Reader} (counts : reader.Counts) {returned : List Done}
    (puts : returned.flatMap Done.put = t.returned.flatMap Done.put)
    (gets : returned.flatMap Done.got ++ reader.got =
      t.returned.flatMap Done.got ++ t.reader.got ++ bs)
    (complete : ∀ d ∈ returned, d.Complete) :
    Pipe.Inv { t with
      stream := { t.stream with rb }
      reader
      returned
      delivered := t.delivered ++ bs } where
  conserved := by
    dsimp only
    rw [List.append_assoc, ← taken.contents]
    exact h.conserved
  puts := by
    dsimp only
    rw [puts]
    exact h.puts
  gets := by
    dsimp only
    rw [gets, h.gets]
  complete := complete
  inBounds := taken.inBounds
  writer := h.writer.taken taken
  reader := counts

/-- A call of `stream_try_read` takes the first bytes. -/
lemma tryRead (h : t.Inv) (idle : t.reader = .idle) (dst len : Nat) : (t.tryRead dst len).Inv := by
  obtain ⟨n, bs, rb, e, taken, few, _⟩ := streamTryRead_taken h.inBounds dst len
  unfold Pipe.tryRead
  rw [e]
  refine h.takes taken h.reader ?_ ?_ ?_
  · rw [List.flatMap_append]
    exact List.append_nil _
  · rw [List.flatMap_append, List.flatMap_singleton, idle]
    simp only [Reader.got, Done.got, List.append_nil]
  · exact List.forall_mem_append.mpr ⟨h.complete, List.forall_mem_singleton.mpr few⟩

/-- So does a pass of `stream_read`. -/
lemma pass (h : t.Inv) {dst len got : Nat} {bytes : List Byte}
    (at_ : t.reader = .loop dst len got bytes) : (t.pass dst len got bytes).Inv := by
  have counts := h.reader
  rw [at_] at counts
  obtain ⟨count, le, unsigned⟩ := counts
  unfold Pipe.pass
  split
  · obtain ⟨bs, rb, e, taken, few⟩ := streamReadPass_taken h.inBounds dst unsigned le
    rw [e]
    have counts : Reader.Counts (.loop dst len (got + bs.length) (bytes ++ bs)) :=
      ⟨by rw [List.length_append, count], few, unsigned⟩
    refine h.takes taken counts rfl ?_ h.complete
    rw [at_, List.append_assoc]
    rfl
  · rename_i ended
    obtain rfl : got = len := Nat.le_antisymm le (Nat.le_of_not_lt ended)
    refine h.returns (.read got bytes (i32 got)) t.writer .idle ⟨count.symm, rfl⟩ h.writer trivial
      rfl ?_
    rw [at_]
    exact (List.append_nil _).symm

/-- Every step keeps the invariant. -/
lemma step {a : Act} {u : Unit} {t' : Pipe} (h : t.Inv) (e : t.step a = .ok (u, t')) : t'.Inv := by
  cases a with
  | write src bytes =>
    simp only [Pipe.step] at e
    split at e
    · split at e
      · cases e
        exact h.write ‹_› src ‹_›
      · cases e
    · cases e
  | writer =>
    simp only [Pipe.step] at e
    split at e
    · cases e
    · cases e
      exact h.test ‹_›
    · cases e
      exact h.store ‹_›
    · cases e
      exact h.publish ‹_›
  | read dst len =>
    simp only [Pipe.step] at e
    split at e
    · split at e
      · cases e
        refine { h with gets := ?_, reader := ⟨rfl, Nat.zero_le _, ‹_›⟩ }
        refine h.gets.trans ?_
        rw [‹t.reader = .idle›]
        rfl
      · cases e
    · cases e
  | tryRead dst len =>
    simp only [Pipe.step] at e
    split at e
    · split at e
      · cases e
        exact h.tryRead ‹_› dst len
      · cases e
    · cases e
  | reader =>
    simp only [Pipe.step] at e
    split at e
    · cases e
    · cases e
      exact h.pass ‹_›

end Pipe.Inv

/-- Whatever the two parties do and in whatever order their steps come, what the reader was given
    followed by what is in the ring is what the ring accepted from the writer, and every call that
    has returned is complete. -/
theorem streams_are_pipes (s : StreamT) (flags : Nat) (acts : List Act) {t : Pipe}
    (run : exec Pipe.step (Pipe.opened s flags) acts = .ok t) : t.Lossless := by
  have kept : t.Inv := exec_invariant (fun _ _ _ _ h e => h.step e) (.opened s flags) run
  exact kept.toLossless

/-- A write of two bytes and a read of two bytes, step by step. -/
theorem streams_are_pipes_two : ∃ t, exec Pipe.step (Pipe.opened ⟨⟨fun _ => 0, 0, 0⟩, 0, 0⟩ 3)
    [.write 8 [1, 2], .writer, .writer, .writer, .read 16 2, .reader, .writer, .writer, .reader,
      .writer, .reader, .writer, .reader] = .ok t ∧ t.Lossless :=
  ⟨_, rfl, streams_are_pipes ⟨⟨fun _ => 0, 0, 0⟩, 0, 0⟩ 3 [.write 8 [1, 2], .writer, .writer,
    .writer, .read 16 2, .reader, .writer, .writer, .reader, .writer, .reader, .writer, .reader]
    rfl⟩

end TRS.Stream
