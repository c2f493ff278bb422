import Mathlib.Tactic.ByContra
import TRS.Lib.Queue
import TRS.Stream.Basic

/-!
# The ring buffer is a bounded queue

The bytes between `tail` and `head` (`RingBuf.contents`), read around the end of the buffer, are a
FIFO queue of capacity 4095: one cell stays free, so that a full ring differs from an empty one.

* `contents_store`, `contents_publish`: the two halves of a put.
* `put_spec`, `get_spec`: the operations on the contents.
* `step_refines`: one operation is one of the queue.

The headline `ringbuf_is_fifo` is the simulation of runs (`run_simulates`) by that step;
`streamTryRead_spec` and `streamReadPass_one` are what the readers take.
-/

namespace TRS.Stream
open TRS.Lib

/-- The capacity of the ring. -/
abbrev capacity : Nat := streamBufferSize - 1

namespace RingBuf

/-- Both indices are inside the buffer. -/
structure InBounds (rb : RingBuf) : Prop where
  head : rb.head < streamBufferSize
  tail : rb.tail < streamBufferSize

/-- The number of bytes stored. -/
def stored (rb : RingBuf) : Nat := (rb.head + streamBufferSize - rb.tail) % streamBufferSize

/-- The bytes stored, oldest first. -/
def contents (rb : RingBuf) : List Byte := cyclic rb.buf streamBufferSize rb.tail rb.stored

/-- One operation of the ring, as the operation of a queue. -/
def step (rb : RingBuf) : QueueOp Byte → QueueAns Byte × RingBuf
  | .put c =>
    let (rc, rb) := ringbufPut rb c
    (if rc = 0 then .accepted else .refused, rb)
  | .get =>
    let (rc, out, rb) := ringbufGet rb
    (if rc = 0 then out.elim .empty .got else .empty, rb)

variable {rb : RingBuf}

lemma contents_length (rb : RingBuf) : rb.contents.length = rb.stored := cyclic_length ..

/-- The index after `i`, as both operations compute it. -/
lemma next_index {i : Nat} (lt : i < streamBufferSize) :
    u32 (i + 1) &&& (streamBufferSize - 1) = (i + 1) % streamBufferSize := by
  rw [u32_of_lt (by simp only [streamBufferSize] at lt; omega)]
  exact and_mask (i + 1) 12

/-- The free cell of the ring is the one at `head`. -/
lemma InBounds.head_eq (h : rb.InBounds) :
    (rb.tail + rb.stored) % streamBufferSize = rb.head := by
  have h1 := h.head
  have h2 := h.tail
  simp only [stored, streamBufferSize] at *
  omega

/-- A ring whose tail is its head is empty. -/
lemma contents_of_eq (e : rb.tail = rb.head) : rb.contents = [] := by
  have none : rb.stored = 0 := by
    rw [stored, e, Nat.add_sub_cancel_left]
    exact Nat.mod_self _
  rw [contents, none, cyclic_zero]

/-- `ringbuf_put` refuses exactly if the ring holds 4095 bytes. -/
lemma put_full (h : rb.InBounds) : (rb.head + 1) % streamBufferSize = rb.tail ↔
    ¬ rb.stored < capacity := by
  have h1 := h.head
  have h2 := h.tail
  simp only [stored, capacity, streamBufferSize] at *
  omega

/-- One place of the ring stays empty. -/
lemma stored_lt (rb : RingBuf) : rb.stored < streamBufferSize := Nat.mod_lt _ (Nat.zero_lt_succ _)

/-- A byte stored at `head` is not among the contents yet. -/
lemma contents_store (h : rb.InBounds) (c : Byte) :
    ({ rb with buf := rb.buf.write rb.head c } : RingBuf).contents = rb.contents := by
  refine cyclic_store rb.stored_lt fun i ne => ?_
  exact rb.buf.write_other c (h.head_eq ▸ ne)

/-- Moving `head` on appends the byte stored there, if there is room. -/
lemma contents_publish (h : rb.InBounds) (room : rb.stored < capacity) :
    ({ rb with head := (rb.head + 1) % streamBufferSize } : RingBuf).contents =
      rb.contents ++ [rb.buf rb.head] := by
  have more : stored { rb with head := (rb.head + 1) % streamBufferSize } = rb.stored + 1 := by
    have h1 := h.head
    have h2 := h.tail
    simp only [stored, capacity, streamBufferSize] at *
    omega
  rw [contents, more, cyclic_succ_last, h.head_eq]
  rfl

/-- `ringbuf_put` appends its byte, or changes nothing. -/
lemma put_spec (h : rb.InBounds) (c : Byte) :
    (rb.stored < capacity ∧ ∃ rb', ringbufPut rb c = (0, rb') ∧ rb'.InBounds ∧
      rb'.contents = rb.contents ++ [c]) ∨
    (¬ rb.stored < capacity ∧ ringbufPut rb c = (-1, rb)) := by
  unfold ringbufPut
  rw [next_index h.head]
  by_cases full : (rb.head + 1) % streamBufferSize = rb.tail
  · exact .inr ⟨(put_full h).mp full, by simp only [full, if_true]⟩
  · have room : rb.stored < capacity := by
      by_contra no
      exact full ((put_full h).mpr no)
    refine .inl ⟨room, ⟨rb.buf.write rb.head c, (rb.head + 1) % streamBufferSize, rb.tail⟩,
      if_neg full, ⟨?_, h.tail⟩, ?_⟩
    · exact Nat.mod_lt _ (Nat.zero_lt_succ _)
    · have stored : InBounds { rb with buf := rb.buf.write rb.head c } := ⟨h.head, h.tail⟩
      refine (contents_publish stored room).trans (congrArg₂ _ (contents_store h c) ?_)
      exact congrArg (fun b => [b]) (rb.buf.write_same rb.head c)

/-- `ringbuf_get` takes the oldest byte, or changes nothing. -/
lemma get_spec (h : rb.InBounds) :
    (∃ b rb', ringbufGet rb = (0, some b, rb') ∧ rb'.InBounds ∧
      rb.contents = b :: rb'.contents) ∨
    (rb.contents = [] ∧ ringbufGet rb = (-1, none, rb)) := by
  unfold ringbufGet
  rw [next_index h.tail]
  by_cases empty : rb.tail = rb.head
  · exact .inr ⟨contents_of_eq empty, if_pos empty⟩
  · refine .inl ⟨_, _, if_neg empty, ⟨h.head, Nat.mod_lt _ (by decide)⟩, ?_⟩
    have less : rb.stored =
        stored ⟨rb.buf, rb.head, (rb.tail + 1) % streamBufferSize⟩ + 1 := by
      have h1 := h.head
      have h2 := h.tail
      simp only [stored, streamBufferSize] at *
      omega
    rw [contents, less, cyclic_succ_first, Nat.mod_eq_of_lt h.tail]
    rfl

/-- One operation of the ring is the operation of the queue of its contents. -/
lemma step_refines (h : rb.InBounds) (op : QueueOp Byte) :
    (rb.step op).1 = (fifo capacity rb.contents op).1 ∧
    (rb.step op).2.InBounds ∧ (rb.step op).2.contents = (fifo capacity rb.contents op).2 := by
  cases op with
  | put c =>
    rw [step, fifo, contents_length]
    rcases put_spec h c with ⟨room, rb', e, h', more⟩ | ⟨full, e⟩
    · rw [e, if_pos room]
      exact ⟨rfl, h', more⟩
    · rw [e, if_neg full]
      exact ⟨rfl, h, rfl⟩
  | get =>
    rw [step]
    rcases get_spec h with ⟨b, rb', e, h', less⟩ | ⟨empty, e⟩
    · rw [e, less]
      exact ⟨rfl, h', rfl⟩
    · rw [e]
      exact ⟨by rw [empty]; rfl, h, by rw [empty]; rfl⟩

/-- An operation that fails changes nothing. -/
lemma step_fails (h : rb.InBounds) {op : QueueOp Byte} (fails : (rb.step op).1.Fails) :
    (rb.step op).2 = rb := by
  cases op with
  | put c =>
    rw [step] at fails ⊢
    rcases put_spec h c with ⟨_, rb', e, _⟩ | ⟨_, e⟩
    · rw [e] at fails
      exact fails.elim
    · rw [e]
  | get =>
    rw [step] at fails ⊢
    rcases get_spec h with ⟨b, rb', e, _⟩ | ⟨_, e⟩
    · rw [e] at fails
      exact fails.elim
    · rw [e]

/-- A ring refines a queue: it is in bounds, and the queue is its contents. -/
def Refines (rb : RingBuf) (q : List Byte) : Prop := rb.InBounds ∧ rb.contents = q

/-- `stream_init` leaves an empty ring. -/
lemma streamInit_refines (s : StreamT) (flags : Nat) : (streamInit s flags).rb.Refines [] :=
  ⟨⟨Nat.zero_lt_succ _, Nat.zero_lt_succ _⟩, contents_of_eq rfl⟩

/-- A run of operations is one of the queue. -/
lemma run_refines {q : List Byte} (h : rb.Refines q) (ops : List (QueueOp Byte)) :
    (run step rb ops).1 = (run (fifo capacity) q ops).1 ∧
    (run step rb ops).2.Refines (run (fifo capacity) q ops).2 := by
  refine run_simulates (G := fun _ => True) (fun rb q op h _ => ?_) h ops fun _ _ => trivial
  obtain ⟨inb, rfl⟩ := h
  exact step_refines inb op

end RingBuf

/-- The ring buffer is a FIFO queue of capacity 4095: from `stream_init` on every sequence of puts
    and gets gets the answers of the queue, keeps both indices inside the buffer and leaves the
    contents of the queue; an operation that fails changes nothing; and what was got is a prefix of
    what was accepted, followed by what is still stored. -/
theorem ringbuf_is_fifo (s : StreamT) (flags : Nat) (ops : List (QueueOp Byte)) :
    let ring := run RingBuf.step (streamInit s flags).rb ops
    let queue := run (fifo capacity) [] ops
    ring.1 = queue.1 ∧ ring.2.InBounds ∧ ring.2.contents = queue.2 ∧
    (∀ op, (ring.2.step op).1.Fails → (ring.2.step op).2 = ring.2) ∧
    acceptedBy ops ring.1 = gotBy ring.1 ++ ring.2.contents := by
  intro ring queue
  obtain ⟨outs, inb, cont⟩ := RingBuf.run_refines (RingBuf.streamInit_refines s flags) ops
  refine ⟨outs, inb, cont, fun op => RingBuf.step_fails inb, ?_⟩
  rw [outs, cont]
  exact fifo_conserves capacity [] ops

/-! ## `stream_try_read` -/

/-- The loop of `stream_try_read` takes the oldest bytes out of the ring, as many as it can. -/
lemma tryRead_spec {rb : RingBuf} (h : rb.InBounds) (n : Nat) :
    (tryRead n rb).1 = rb.contents.take n ∧ (tryRead n rb).2.InBounds ∧
    (tryRead n rb).2.contents = rb.contents.drop n := by
  induction n generalizing rb with
  | zero => exact ⟨rfl, h, rfl⟩
  | succ n ih =>
    rw [tryRead]
    rcases RingBuf.get_spec h with ⟨b, rb', e, h', less⟩ | ⟨empty, e⟩
    · obtain ⟨bytes, inb, rest⟩ := ih h'
      rw [e, less]
      exact ⟨congrArg (List.cons b) bytes, inb, rest⟩
    · have none : rb.contents.drop (n + 1) = [] := by rw [empty, List.drop_nil]
      rw [e, none]
      exact ⟨by rw [empty]; rfl, h, empty⟩

/-- `stream_try_read` on a readable stream takes the oldest bytes, as many as it is asked for or as
    are there, and returns their number. -/
theorem streamTryRead_spec {s : StreamT} (h : s.rb.InBounds) (reads : s.flag &&& stRead ≠ 0)
    {dst : Nat} (ne : dst ≠ 0) (len : Nat) :
    ∃ rb', streamTryRead s dst len =
        (((min len s.rb.contents.length : Nat) : Int), s.rb.contents.take len,
          { s with rb := rb' }) ∧
      rb'.InBounds ∧ rb'.contents = s.rb.contents.drop len := by
  obtain ⟨bytes, inb, rest⟩ := tryRead_spec h len
  refine ⟨(tryRead len s.rb).2, ?_, inb, rest⟩
  have few : s.rb.contents.length < 4096 := by
    rw [RingBuf.contents_length]
    exact Nat.mod_lt _ (Nat.zero_lt_succ _)
  have count : i32 (u32 (s.rb.contents.take len).length) =
      ((min len s.rb.contents.length : Nat) : Int) := by
    rw [List.length_take, u32_of_lt (by omega), i32, if_pos (by omega)]
  have none : ¬ (s.flag &&& stRead = 0 ∨ dst = 0) := by
    rintro (h | h)
    · exact reads h
    · exact ne h
  unfold streamTryRead
  rw [if_neg none]
  dsimp only
  rw [bytes, count]

/-- One pass of `stream_read` for one byte takes the oldest byte, if there is one. -/
lemma streamReadPass_one {s : StreamT} (h : s.rb.InBounds) (reads : s.flag &&& stRead ≠ 0)
    {dst : Nat} (ne : dst ≠ 0) : ∃ rb', rb'.InBounds ∧
      ((s.rb.contents = [] ∧ rb'.contents = [] ∧
        streamReadPass s dst 1 0 = (0, [], { s with rb := rb' })) ∨
      ∃ c, s.rb.contents = c :: rb'.contents ∧
        streamReadPass s dst 1 0 = (1, [c], { s with rb := rb' })) := by
  obtain ⟨rb', e, inb, rest⟩ := streamTryRead_spec h reads ne 1
  refine ⟨rb', inb, ?_⟩
  unfold streamReadPass
  rw [Nat.add_zero, Nat.sub_zero, e]
  cases here : s.rb.contents with
  | nil =>
    rw [here] at rest
    exact .inl ⟨rfl, rest, rfl⟩
  | cons c cs =>
    rw [here] at rest
    have one : min 1 (c :: cs).length = 1 := Nat.min_eq_left (Nat.le_add_left 1 cs.length)
    refine .inr ⟨c, by rw [rest]; rfl, ?_⟩
    rw [one]
    rfl

end TRS.Stream
