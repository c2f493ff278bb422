import TRS.Keyboard.Basic
import TRS.Lib.CString

/-!
# The line editor of `SYS_READ`

The branch `SYS_READ` of `syscall_handler`, one pass of `stream_read` at a time: before each pass
interrupts bring any number of bytes. What the handler leaves in the buffer is the fold of the bytes
it consumed (`edit`), up to the first prefix of them that `Stops`.

* `arrive_spec`: the bytes that arrive go behind those in the ring.
* `got_newline`, `got_backspace`, `got_byte`: one byte, by its kind.
* `pass_spec`, `passes_spec`: one pass, and passes in a row by induction.
* `passes_drain`: a handler that is left alone reads all there is, or returns.

The headline `sys_read_edits` puts these together; `Holds` says what the buffer is to the bytes
consumed, and `Reads` where they come from.
-/

namespace TRS.Sys
open TRS.Lib TRS.Stream TRS.Keyboard

abbrev newline : Byte := 0x0A#8

abbrev backspace : Byte := 0x08#8

/-- The bytes that interrupts put into the stream, and those of them that find room. -/
def arrive (s : StreamT) : List Byte → List Byte × StreamT
  | [] => ([], s)
  | c :: cs =>
    let r := arrive (kbPut s c) cs
    (if (ringbufPut s.rb c).1 = 0 then c :: r.1 else r.1, r.2)

/-- The handler in `SYS_READ`: its variables `i` and `buf`, the strings it echoed, its return value
    once it has returned, and the bytes that have arrived since the call. -/
structure SysRead where
  stream : StreamT
  buf : List Byte
  i : Nat
  echoed : List (List Byte)
  rax : Option Nat
  arrived : List Byte

namespace SysRead

/-- Behind the loop. -/
def finish (st : SysRead) : Except Fault SysRead := do
  let buf ← store st.buf st.i 0#8
  return { st with buf, rax := some st.i }

/-- `while(i + 1 < len)`; `i < len` throughout, so that `i + 1` does not wrap. -/
def loop (len : Nat) (st : SysRead) : Except Fault SysRead :=
  if st.i + 1 < len then .ok st else st.finish

/-- The body of the loop behind `stream_read`. -/
def got (len : Nat) (st : SysRead) (ch : Byte) : Except Fault SysRead :=
  if ch = newline then st.finish
  else if ch = backspace then
    -- an empty line has nothing to take back, and the console is left alone
    if 0 < st.i then
      loop len { st with i := st.i - 1, echoed := st.echoed ++ [[backspace, 0#8]] }
    else loop len st
  else do
    let buf ← store st.buf st.i ch
    loop len { st with buf, i := st.i + 1, echoed := st.echoed ++ [[ch, 0#8]] }

/-- Bytes arrive, and a handler that has not returned makes one pass of `stream_read` for the byte
    at `chAddr`. -/
def pass (chAddr len : Nat) (st : SysRead) (bytes : List Byte) : Except Fault SysRead :=
  let (new, stream) := arrive st.stream bytes
  let st := { st with stream, arrived := st.arrived ++ new }
  match st.rax with
  | some _ => .ok st
  | none =>
    -- `stream_read` goes round until `stream_try_read` has moved its one byte
    let (n, bs, stream) := streamReadPass st.stream chAddr 1 0
    let st := { st with stream }
    if n < 1 then .ok st else got len st (bs.headD 0#8)

/-- One pass after each group of bytes. -/
def passes (chAddr len : Nat) (st : SysRead) (timing : List (List Byte)) : Except Fault SysRead :=
  timing.foldlM (pass chAddr len) st

end SysRead

/-- `SYS_READ` on a buffer with the bytes `buf`, up to the first pass of `stream_read`. -/
def sysRead (s : StreamT) (bufAddr : Nat) (buf : List Byte) (len : Nat) : Except Fault SysRead :=
  let st : SysRead := ⟨s, buf, 0, [], none, []⟩
  if bufAddr = 0 ∨ len = 0 then .ok { st with rax := some 0 } else st.loop len

/-! ## The edited line -/

/-- One byte on the line. -/
def editByte (line : List Byte) (c : Byte) : List Byte :=
  if c = newline then line else if c = backspace then line.dropLast else line ++ [c]

/-- The line after the bytes. -/
def edit (bytes : List Byte) : List Byte := bytes.foldl editByte []

/-- After these bytes the line is finished, or full. -/
def Stops (len : Nat) (bytes : List Byte) : Prop :=
  bytes.getLast? = some newline ∨ (edit bytes).length + 1 = len

/-- No prefix of the bytes stops the editor. -/
def Running (len : Nat) (bytes : List Byte) : Prop := ∀ c, c <+: bytes → ¬ Stops len c

/-- The bytes stop the editor, and no shorter prefix of them does. -/
def StopsFirst (len : Nat) (bytes : List Byte) : Prop :=
  Stops len bytes ∧ ∀ c, c <+: bytes → c ≠ bytes → ¬ Stops len c

/-- One byte more on the line. -/
lemma edit_concat (bytes : List Byte) (c : Byte) :
    edit (bytes ++ [c]) = editByte (edit bytes) c := by
  unfold edit
  rw [List.foldl_append]
  rfl

/-- One byte more stops the editor, or it runs on. -/
lemma Running.concat {len : Nat} {bytes : List Byte} (run : Running len bytes) {c : Byte} :
    (Stops len (bytes ++ [c]) → StopsFirst len (bytes ++ [c])) ∧
      (¬ Stops len (bytes ++ [c]) → Running len (bytes ++ [c])) := by
  constructor
  · refine fun stop => ⟨stop, fun p pre ne => ?_⟩
    exact (List.prefix_concat_iff.mp pre).elim (fun e => absurd e ne) (run p)
  · intro go p pre
    rcases List.prefix_concat_iff.mp pre with rfl | pre
    · exact go
    · exact run p pre

/-! ## The handler -/

/-- Bytes that arrive go behind the contents of the ring. -/
lemma arrive_spec {s : StreamT} (h : s.rb.InBounds) (bytes : List Byte) :
    (arrive s bytes).2.rb.InBounds ∧ (arrive s bytes).2.flag = s.flag ∧
      (arrive s bytes).2.rb.contents = s.rb.contents ++ (arrive s bytes).1 := by
  induction bytes generalizing s with
  | nil => exact ⟨h, rfl, (List.append_nil _).symm⟩
  | cons c cs ih =>
    obtain ⟨inb, flag, cont⟩ := kbPut_spec h c
    obtain ⟨inb', flag', cont'⟩ := ih inb
    refine ⟨inb', flag'.trans flag, ?_⟩
    rw [arrive]
    dsimp only
    rw [cont', cont, List.append_assoc]
    rcases RingBuf.put_spec h c with ⟨room, rb', e, _⟩ | ⟨full, e⟩
    · rw [e, if_pos room]
      rfl
    · rw [e, if_neg full]
      rfl

namespace SysRead

/-- The buffer holds the line of the consumed bytes: before `i` while the editor runs, and with a
    NUL behind it once it has stopped. -/
structure Holds (len : Nat) (consumed : List Byte) (st : SysRead) : Prop where
  size : st.buf.length = len
  i : st.i = (edit consumed).length
  line : st.buf.take st.i = edit consumed
  lt : st.i < len
  running : st.rax = none → Running len consumed
  stopped : ∀ rax, st.rax = some rax →
    StopsFirst len consumed ∧ rax = st.i ∧ st.buf[rax]? = some 0#8

/-- The bytes of the stream are the consumed ones, and then those still in the ring. -/
structure Reads (pending consumed : List Byte) (st : SysRead) : Prop where
  inb : st.stream.rb.InBounds
  reads : st.stream.flag &&& stRead ≠ 0
  queue : pending ++ st.arrived = consumed ++ st.stream.rb.contents

variable {len : Nat} {consumed pending : List Byte} {st : SysRead}

/-- The stream and the echo do not matter for the line. -/
lemma Holds.congr {st' : SysRead} (h : st.Holds len consumed) (buf : st'.buf = st.buf)
    (i : st'.i = st.i) (rax : st'.rax = st.rax) : st'.Holds len consumed := by
  obtain ⟨size, hi, line, lt, running, stopped⟩ := h
  rw [← buf] at size line stopped
  rw [← i] at hi line lt stopped
  rw [← rax] at running stopped
  exact ⟨size, hi, line, lt, running, stopped⟩

/-- A handler that has not returned has room for one more byte and the NUL. -/
lemma Holds.room (h : st.Holds len consumed) (rax : st.rax = none) : st.i + 1 ≠ len := by
  intro full
  exact h.running rax consumed (List.prefix_refl _) (.inr (by rw [← h.i]; exact full))

/-- Behind the loop the line has its NUL. -/
lemma finish_spec (size : st.buf.length = len) (hi : st.i = (edit consumed).length)
    (line : st.buf.take st.i = edit consumed) (lt : st.i < len) (stop : StopsFirst len consumed) :
    ∃ st', st.finish = .ok st' ∧ st'.stream = st.stream ∧ st'.arrived = st.arrived ∧
      st'.Holds len consumed := by
  refine ⟨{ st with buf := st.buf.set st.i 0#8, rax := some st.i }, ?_, rfl, rfl, ?_⟩
  · unfold finish store
    rw [if_pos (by rw [size]; exact lt)]
    rfl
  · refine ⟨List.length_set.trans size, hi, ?_, lt, (fun h => by cases h), ?_⟩
    · dsimp only
      rw [List.take_set_of_le (Nat.le_refl _)]
      exact line
    · rintro rax ⟨⟩
      exact ⟨stop, rfl, List.getElem?_set_self (by rw [size]; exact lt)⟩

/-- The test of the loop stops the handler exactly when the line is full. -/
lemma loop_spec (size : st.buf.length = len) (hi : st.i = (edit consumed).length)
    (line : st.buf.take st.i = edit consumed) (lt : st.i < len) (rax : st.rax = none)
    (full : st.i + 1 = len → StopsFirst len consumed)
    (room : st.i + 1 ≠ len → Running len consumed) :
    ∃ st', st.loop len = .ok st' ∧ st'.stream = st.stream ∧ st'.arrived = st.arrived ∧
      st'.Holds len consumed := by
  unfold loop
  by_cases more : st.i + 1 < len
  · refine ⟨st, if_pos more, rfl, rfl, size, hi, line, lt, fun _ => room (by omega), ?_⟩
    intro r e
    rw [rax] at e
    cases e
  · rw [if_neg more]
    exact finish_spec size hi line lt (full (by omega))

/-- A newline ends the line. -/
lemma got_newline (h : st.Holds len consumed) (rax : st.rax = none) :
    ∃ st', got len st newline = .ok st' ∧ st'.stream = st.stream ∧ st'.arrived = st.arrived ∧
      st'.Holds len (consumed ++ [newline]) := by
  have same : edit (consumed ++ [newline]) = edit consumed := by
    rw [edit_concat, editByte, if_pos rfl]
  have stop : Stops len (consumed ++ [newline]) := .inl List.getLast?_concat
  exact finish_spec h.size (by rw [same]; exact h.i) (by rw [same]; exact h.line) h.lt
    ((h.running rax).concat.1 stop)

/-- A backspace takes the last byte back, if there is one. -/
lemma got_backspace (h : st.Holds len consumed) (rax : st.rax = none) :
    ∃ st', got len st backspace = .ok st' ∧ st'.stream = st.stream ∧ st'.arrived = st.arrived ∧
      st'.Holds len (consumed ++ [backspace]) := by
  have lt := h.lt
  have drop : edit (consumed ++ [backspace]) = (edit consumed).dropLast := by
    rw [edit_concat]
    rfl
  have short : (edit (consumed ++ [backspace])).length = st.i - 1 := by
    rw [drop, List.length_dropLast, h.i]
  have room := h.room rax
  have go : Running len (consumed ++ [backspace]) := by
    refine (h.running rax).concat.2 fun stop => ?_
    rcases stop with nl | full
    · rw [List.getLast?_concat] at nl
      cases nl
    · rw [short] at full
      omega
  unfold got
  rw [if_neg (by decide), if_pos rfl]
  by_cases some_ : 0 < st.i
  · rw [if_pos some_]
    refine loop_spec h.size short.symm ?_ (by dsimp only; omega) rax (fun full => ?_) fun _ => go
    · rw [drop, ← h.line, List.dropLast_take (by rw [h.size]; exact lt)]
    · dsimp only at full
      omega
  · -- a backspace on an empty line
    have empty : edit (consumed ++ [backspace]) = edit consumed := by
      rw [drop, List.eq_nil_of_length_eq_zero (l := edit consumed) (by rw [← h.i]; omega)]
      rfl
    rw [if_neg some_]
    exact loop_spec h.size (by rw [empty]; exact h.i) (by rw [empty]; exact h.line) lt rax
      (fun full => absurd full room) fun _ => go

/-- Any other byte is put on the line. -/
lemma got_byte (h : st.Holds len consumed) (rax : st.rax = none) {ch : Byte} (nl : ch ≠ newline)
    (bs : ch ≠ backspace) :
    ∃ st', got len st ch = .ok st' ∧ st'.stream = st.stream ∧ st'.arrived = st.arrived ∧
      st'.Holds len (consumed ++ [ch]) := by
  have inside : st.i < st.buf.length := by rw [h.size]; exact h.lt
  have room := h.room rax
  have lt := h.lt
  obtain ⟨stop, go⟩ := (h.running rax).concat (c := ch)
  have more : edit (consumed ++ [ch]) = edit consumed ++ [ch] := by
    rw [edit_concat, editByte, if_neg nl, if_neg bs]
  have long : (edit (consumed ++ [ch])).length = st.i + 1 := by
    rw [more, List.length_append, h.i]
    rfl
  have stops : Stops len (consumed ++ [ch]) ↔ st.i + 1 + 1 = len := by
    unfold Stops
    rw [long, List.getLast?_concat, Option.some.injEq, or_iff_right nl]
  unfold got store
  rw [if_neg nl, if_neg bs, if_pos inside, ok_bind]
  refine loop_spec (List.length_set.trans h.size) long.symm ?_ (by dsimp only; omega) rax ?_ ?_
  · dsimp only
    rw [more, ← h.line, List.take_add_one, List.getElem?_set_self inside,
      List.take_set_of_le (Nat.le_refl _)]
    rfl
  · exact fun full => stop (stops.mpr full)
  · exact fun room' => go fun h' => room' (stops.mp h')

/-- Every byte is dealt with as the line demands. -/
lemma got_spec (h : st.Holds len consumed) (rax : st.rax = none) (ch : Byte) :
    ∃ st', got len st ch = .ok st' ∧ st'.stream = st.stream ∧ st'.arrived = st.arrived ∧
      st'.Holds len (consumed ++ [ch]) := by
  by_cases nl : ch = newline
  · subst nl
    exact got_newline h rax
  by_cases bs : ch = backspace
  · subst bs
    exact got_backspace h rax
  · exact got_byte h rax nl bs

/-- One pass: the handler has returned, or finds the ring empty, or consumes the oldest byte. -/
lemma pass_spec {chAddr : Nat} (ne : chAddr ≠ 0) (hold : st.Holds len consumed)
    (read : st.Reads pending consumed) (bytes : List Byte) :
    ∃ st' consumed', pass chAddr len st bytes = .ok st' ∧ st'.Holds len consumed' ∧
      st'.Reads pending consumed' ∧ st'.arrived = st.arrived ++ (arrive st.stream bytes).1 ∧
      (st'.rax = none → st.rax = none ∧
        st'.stream.rb.contents = (arrive st.stream bytes).2.rb.contents.tail) := by
  obtain ⟨inb, flag, cont⟩ := arrive_spec read.inb bytes
  have reads : (arrive st.stream bytes).2.flag &&& stRead ≠ 0 := by rw [flag]; exact read.reads
  have queue : pending ++ (st.arrived ++ (arrive st.stream bytes).1) =
      consumed ++ (arrive st.stream bytes).2.rb.contents := by
    rw [← List.append_assoc, read.queue, cont, List.append_assoc]
  unfold pass
  dsimp only
  cases rax : st.rax with
  | some r =>
    -- the bytes stay queued for the next read
    exact ⟨_, consumed, rfl, hold.congr rfl rfl rax.symm, ⟨inb, reads, queue⟩, rfl,
      fun h => by cases h⟩
  | none =>
    dsimp only
    obtain ⟨rb', inb', ⟨none_, empty, e⟩ | ⟨c, more, e⟩⟩ := streamReadPass_one inb reads ne
    · rw [e, none_]
      rw [none_] at queue
      have queue' : pending ++ (st.arrived ++ (arrive st.stream bytes).1) =
          consumed ++ rb'.contents := by
        rw [empty]
        exact queue
      exact ⟨_, consumed, rfl, hold.congr rfl rfl rax.symm, ⟨inb', reads, queue'⟩, rfl,
        fun _ => ⟨rfl, empty⟩⟩
    · rw [e, more]
      have here : Holds len consumed { st with
          stream := { (arrive st.stream bytes).2 with rb := rb' }, rax := none
          arrived := st.arrived ++ (arrive st.stream bytes).1 } :=
        hold.congr rfl rfl rax.symm
      obtain ⟨st', e', str, arr, hold'⟩ := got_spec here rfl c
      refine ⟨st', consumed ++ [c], e', hold', ⟨?_, ?_, ?_⟩, arr, fun _ => ⟨rfl, by rw [str]; rfl⟩⟩
      · rw [str]
        exact inb'
      · rw [str]
        exact reads
      · rw [arr, str, queue, more, List.append_assoc]
        rfl

/-- Passes deal with the bytes that arrive. -/
lemma passes_spec {chAddr : Nat} (ne : chAddr ≠ 0) (hold : st.Holds len consumed)
    (read : st.Reads pending consumed) (timing : List (List Byte)) :
    ∃ st' consumed', passes chAddr len st timing = .ok st' ∧ st'.Holds len consumed' ∧
      st'.Reads pending consumed' := by
  induction timing generalizing st consumed with
  | nil => exact ⟨st, consumed, rfl, hold, read⟩
  | cons bytes timing ih =>
    obtain ⟨st1, consumed1, e, hold1, read1, _⟩ := pass_spec ne hold read bytes
    obtain ⟨st2, consumed2, e', hold2, read2⟩ := ih hold1 read1
    refine ⟨st2, consumed2, ?_, hold2, read2⟩
    rw [passes, List.foldlM_cons, e]
    exact e'

/-- As many passes as the ring holds bytes: the handler returns, or finds the ring empty. -/
lemma passes_drain {chAddr : Nat} (ne : chAddr ≠ 0) (hold : st.Holds len consumed)
    (read : st.Reads pending consumed) {n : Nat}
    (le : st.rax = none → st.stream.rb.contents.length ≤ n) :
    ∃ st' consumed', passes chAddr len st (List.replicate n []) = .ok st' ∧
      st'.Holds len consumed' ∧ st'.Reads pending consumed' ∧ st'.arrived = st.arrived ∧
      (st'.rax = none → st'.stream.rb.contents = []) := by
  induction n generalizing st consumed with
  | zero =>
    exact ⟨st, consumed, rfl, hold, read, rfl, fun rax =>
      List.eq_nil_of_length_eq_zero (Nat.le_zero.mp (le rax))⟩
  | succ n ih =>
    obtain ⟨st1, consumed1, e, hold1, read1, arr, tail⟩ := pass_spec ne hold read []
    have less : st1.rax = none → st1.stream.rb.contents.length ≤ n := by
      intro rax1
      obtain ⟨rax, cont⟩ := tail rax1
      have le := le rax
      rw [cont, List.length_tail]
      exact Nat.sub_le_of_le_add le
    obtain ⟨st2, consumed2, e', hold2, read2, arr', empty⟩ := ih hold1 read1 less
    refine ⟨st2, consumed2, ?_, hold2, read2, ?_, empty⟩
    · rw [passes, List.replicate_succ, List.foldlM_cons, e]
      exact e'
    · rw [arr', arr, arrive, List.append_nil]

end SysRead

/-- One call of `SYS_READ` that edits exactly one line. It stays within the buffer; the bytes
    pending at the call and those that arrived are the consumed ones and then those in the ring;
    while it reads, no prefix of the consumed bytes stops it, and if a prefix that does is at hand,
    then as many passes as the ring holds bytes make it return; once it has returned, the consumed
    bytes are the first prefix that stops it, and the buffer holds their line with its NUL. -/
def EditsLine (s : StreamT) (bufAddr chAddr : Nat) (buf : List Byte) (len : Nat)
    (timing : List (List Byte)) : Prop :=
  ∃ start st consumed, sysRead s bufAddr buf len = .ok start ∧
    start.passes chAddr len timing = .ok st ∧
    s.rb.contents ++ st.arrived = consumed ++ st.stream.rb.contents ∧ st.stream.rb.InBounds ∧
    st.buf.length = len ∧
    match st.rax with
    | none => Running len consumed ∧
        ((∃ c, c <+: s.rb.contents ++ st.arrived ∧ Stops len c) → ∃ st',
          st.passes chAddr len (List.replicate st.stream.rb.contents.length []) = .ok st' ∧
          st'.arrived = st.arrived ∧ st'.rax ≠ none)
    | some rax => StopsFirst len consumed ∧ rax ≤ len - 1 ∧ st.buf.take rax = edit consumed ∧
        st.buf[rax]? = some 0#8

/-- `SYS_READ` edits exactly one line, whatever is pending and whatever arrives between its
    passes. -/
theorem sys_read_edits {s : StreamT} (inb : s.rb.InBounds) (reads : s.flag &&& stRead ≠ 0)
    {bufAddr chAddr : Nat} (buf0 : bufAddr ≠ 0) (ch0 : chAddr ≠ 0) {buf : List Byte} {len : Nat}
    (size : buf.length = len) (pos : 1 ≤ len) (timing : List (List Byte)) :
    EditsLine s bufAddr chAddr buf len timing := by
  obtain ⟨start, e, str, arr, hold⟩ : ∃ start, sysRead s bufAddr buf len = .ok start ∧
      start.stream = s ∧ start.arrived = [] ∧ start.Holds len [] := by
    unfold sysRead
    rw [if_neg (by omega)]
    refine SysRead.loop_spec size rfl rfl pos rfl (fun full => ⟨.inr full, ?_⟩) fun room c pre => ?_
    · exact fun c pre ne => absurd (List.prefix_nil.mp pre) ne
    · rw [List.prefix_nil.mp pre]
      rintro (nl | full)
      · cases nl
      · exact room full
  have read : start.Reads s.rb.contents [] := by
    refine ⟨by rw [str]; exact inb, by rw [str]; exact reads, ?_⟩
    rw [str, arr, List.append_nil]
    rfl
  obtain ⟨st, consumed, e', hold', read'⟩ := SysRead.passes_spec ch0 hold read timing
  refine ⟨start, st, consumed, e, e', read'.queue, read'.inb, hold'.size, ?_⟩
  cases rax : st.rax with
  | none =>
    refine ⟨hold'.running rax, fun ⟨c, pre, stop⟩ => ?_⟩
    obtain ⟨st', consumed', e2, hold2, read2, arr2, empty⟩ :=
      SysRead.passes_drain ch0 hold' read' fun _ => Nat.le_refl _
    refine ⟨st', e2, arr2, fun rax2 => ?_⟩
    -- a handler that still reads has consumed all there is, but a prefix of it stops the handler
    have all := read2.queue
    rw [empty rax2, List.append_nil, arr2] at all
    exact hold2.running rax2 c (all ▸ pre) stop
  | some r =>
    obtain ⟨stop, rfl, nul⟩ := hold'.stopped r rax
    have lt := hold'.lt
    exact ⟨stop, by omega, hold'.line, nul⟩

/-- An `a` that is taken back, a `b`, and the end of the line, which the last pass reads. -/
def typedLine : List (List Byte) := [[0x61#8], [backspace, 0x62#8], [newline], []]

/-- The handler returns with the line `b`. -/
theorem sys_read_edits_small :
    (do let start ← sysRead (kbInit emptyStream).stream 0x500 [9#8, 9#8, 9#8] 3
        let st ← start.passes 0x600 3 typedLine
        return (st.rax, st.buf)) = .ok (some 1, [0x62#8, 0#8, 9#8]) ∧
      EditsLine (kbInit emptyStream).stream 0x500 0x600 [9#8, 9#8, 9#8] 3 typedLine :=
  ⟨rfl, sys_read_edits (RingBuf.streamInit_refines emptyStream stRead).1 (by decide) (by decide)
    (by decide) rfl (by decide) _⟩

end TRS.Sys
