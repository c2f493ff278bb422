import TRS.Keyboard.Decode

/-!
# Dropped keystrokes

A press of a mapped key is accepted into the ring, counted in `overflow`, or lost: the branch of the
backspace key ignores the answer of `ringbuf_put`.

* `put_cases`, `irq_cases`: what an interrupt adds to the counts.
* `irq_balanced`: it keeps the balance exactly if it is no backspace that finds the ring full.
* `exec_presses`: keystrokes that nobody reads fill the ring.

The headline `no_silent_drop_iff` is over all runs, by `Along.iff_guarded` with the invariant
`Tally.Inv`; `full_ring_drops_backspace` is a run that loses a keystroke.
-/

namespace TRS.Keyboard
open TRS.Lib TRS.Stream

/-- The driver, the presses of mapped keys so far, and the bytes that its puts have brought into the
    ring. -/
structure Tally where
  kb : Kb
  presses : Nat
  accepted : Nat

namespace Tally

/-- One event, with its press and the puts that `ringbuf_put` has answered with 0. -/
def step (t : Tally) : Event → Except Empty (Unit × Tally)
  | .irq sc =>
    let r := kbIrqHandlerLog t.kb sc
    .ok ((), ⟨r.val, t.presses + (pressedKey sc).toList.length, t.accepted + r.log.count 0⟩)
  | .read dst len =>
    .ok ((), { t with kb.stream := (streamTryRead t.kb.stream dst len).2.2 })

/-- The state that `kb_init` leaves. -/
def start (s : StreamT) : Tally := ⟨kbInit s, 0, 0⟩

/-- The bytes that are accounted for. -/
def sum (t : Tally) : Nat := t.accepted + t.kb.stream.overflow

/-- After the event the sum is below 2^32. -/
def StaysSmall (t : Tally) (e : Event) : Prop := ∀ o t', t.step e = .ok (o, t') → t'.sum < 2 ^ 32

/-- After the event every press is accounted for. -/
def Balanced (_ : Tally) (_ : Event) (_ : Unit) (t : Tally) : Prop := t.presses = t.sum

/-- A press of the backspace key finds room in the ring. -/
def BackspaceFits (t : Tally) (e : Event) : Prop :=
  e = .irq 0x0E#8 → t.kb.stream.rb.stored < capacity

/-- What holds as long as no press is lost. -/
structure Inv (t : Tally) : Prop where
  inb : t.kb.stream.rb.InBounds
  balanced : t.presses = t.sum
  small : t.sum < 2 ^ 32
  stored : t.kb.stream.rb.stored ≤ t.accepted

variable {t : Tally}

/-- Before the first interrupt nothing has been counted. -/
lemma start_inv (s : StreamT) : (start s).Inv where
  inb := (RingBuf.streamInit_refines s stRead).1
  balanced := rfl
  small := Nat.two_pow_pos 32
  stored := Nat.le_of_eq (Nat.mod_self _)

/-- A put is answered with 0 and adds a byte, or it finds the ring full and changes nothing. -/
lemma put_cases {rb : RingBuf} (h : rb.InBounds) (c : Byte) :
    (rb.stored < capacity ∧ (ringbufPut rb c).1 = 0 ∧ (ringbufPut rb c).2.InBounds ∧
      (ringbufPut rb c).2.stored = rb.stored + 1) ∨
    (¬ rb.stored < capacity ∧ ringbufPut rb c = (-1, rb)) := by
  rcases RingBuf.put_spec h c with ⟨room, rb', e, h', more⟩ | full
  · have len := congrArg List.length more
    rw [List.length_append, RingBuf.contents_length, RingBuf.contents_length] at len
    rw [e]
    exact .inl ⟨room, rfl, h', len⟩
  · exact .inr full

/-- The press of a key that finds room, and of one that does not. -/
lemma pressed_cases {kb : Kb} (h : kb.stream.rb.InBounds) (code : Nat) :
    (kb.stream.rb.stored < capacity ∧ (pressed kb code).rb.InBounds ∧
      (pressed kb code).rb.stored = kb.stream.rb.stored + 1 ∧
      (pressed kb code).overflow = kb.stream.overflow ∧
      (ringbufPut kb.stream.rb (pick code kb.shiftDown kb.capsDown)).1 = 0) ∨
    (¬ kb.stream.rb.stored < capacity ∧ (pressed kb code).rb = kb.stream.rb ∧
      (pressed kb code).overflow =
        (if code = 0x0E then kb.stream.overflow else u32 (kb.stream.overflow + 1)) ∧
      (ringbufPut kb.stream.rb (pick code kb.shiftDown kb.capsDown)).1 = -1) := by
  unfold pressed kbPut
  dsimp only
  rcases put_cases h (pick code kb.shiftDown kb.capsDown) with ⟨room, rc, inb, more⟩ | ⟨full, e⟩
  · left
    rw [rc, if_neg (not_not_intro rfl), ite_self]
    exact ⟨room, inb, more, rfl, rfl⟩
  · right
    have failed : (-1 : Int) ≠ 0 := by decide
    rw [e]
    dsimp only
    rw [if_pos failed]
    refine ⟨full, ?_, ?_, rfl⟩
    · split <;> rfl
    · split <;> rfl

/-- The key that a scan code is the press of is the backspace key for one code only. -/
lemma pressedKey_back {sc : Byte} {code : Nat} (key : pressedKey sc = some code) :
    code = 0x0E ↔ sc = 0x0E#8 := by
  rw [← pressedKey_toNat key]
  exact ⟨fun e => BitVec.eq_of_toNat_eq e, fun e => by rw [e]; rfl⟩

/-- What an interrupt does to the tally: it is no press of a mapped key, or a press that finds room,
    or one that does not. -/
lemma irq_cases (h : t.kb.stream.rb.InBounds) (sc : Byte) :
    ∃ t', t.step (.irq sc) = .ok ((), t') ∧
      ((pressedKey sc = none ∧ t'.kb.stream = t.kb.stream ∧ t'.presses = t.presses ∧
          t'.accepted = t.accepted) ∨
        (t.kb.stream.rb.stored < capacity ∧ t'.kb.stream.rb.InBounds ∧
          t'.kb.stream.rb.stored = t.kb.stream.rb.stored + 1 ∧
          t'.kb.stream.overflow = t.kb.stream.overflow ∧ t'.presses = t.presses + 1 ∧
          t'.accepted = t.accepted + 1) ∨
        (¬ t.kb.stream.rb.stored < capacity ∧ t'.kb.stream.rb = t.kb.stream.rb ∧
          t'.kb.stream.overflow = (if sc = 0x0E#8 then t.kb.stream.overflow
            else u32 (t.kb.stream.overflow + 1)) ∧ t'.presses = t.presses + 1 ∧
          t'.accepted = t.accepted)) := by
  have press := kbIrqHandlerLog_press t.kb sc
  refine ⟨_, rfl, ?_⟩
  generalize kbIrqHandlerLog t.kb sc = r at press ⊢
  obtain ⟨kb', log⟩ := r
  cases key : pressedKey sc with
  | none =>
    rw [key] at press
    obtain ⟨stream, rfl⟩ := Prod.mk.inj press
    exact .inl ⟨rfl, stream, rfl, rfl⟩
  | some code =>
    rw [key] at press
    obtain ⟨stream, rfl⟩ := Prod.mk.inj press
    dsimp only at stream ⊢
    right
    rcases pressed_cases h code with ⟨room, inb, more, same, rc⟩ | ⟨full, ring, counted, rc⟩
    · rw [rc, stream]
      exact .inl ⟨room, inb, more, same, rfl, rfl⟩
    · rw [rc, stream, if_congr (pressedKey_back key).symm rfl rfl]
      exact .inr ⟨full, ring, counted, rfl, rfl⟩

/-- A read changes neither count, and leaves no more bytes in the ring. -/
lemma read_keeps {s : StreamT} (h : s.rb.InBounds) (dst len : Nat) :
    (streamTryRead s dst len).2.2.rb.InBounds ∧
      (streamTryRead s dst len).2.2.rb.stored ≤ s.rb.stored ∧
      (streamTryRead s dst len).2.2.overflow = s.overflow := by
  unfold streamTryRead
  split
  · exact ⟨h, Nat.le_refl _, rfl⟩
  · obtain ⟨_, inb, rest⟩ := tryRead_spec h len
    refine ⟨inb, ?_, rfl⟩
    rw [← RingBuf.contents_length, ← RingBuf.contents_length]
    dsimp only
    rw [rest, List.length_drop]
    exact Nat.sub_le ..

/-! ## Runs -/

/-- An event accounts for one byte at most. -/
lemma step_sum (h : t.kb.stream.rb.InBounds) (e : Event) :
    ∃ t', t.step e = .ok ((), t') ∧ t'.kb.stream.rb.InBounds ∧ t'.sum ≤ t.sum + 1 := by
  unfold sum
  cases e with
  | irq sc =>
    obtain ⟨t', e, none_ | room | full⟩ := irq_cases h sc
    · obtain ⟨_, same, _, accepted⟩ := none_
      exact ⟨t', e, same ▸ h, by rw [same, accepted]; omega⟩
    · obtain ⟨_, inb, _, same, _, accepted⟩ := room
      exact ⟨t', e, inb, by rw [same, accepted]; omega⟩
    · obtain ⟨_, ring, counted, _, accepted⟩ := full
      have less : u32 (t.kb.stream.overflow + 1) ≤ t.kb.stream.overflow + 1 := Nat.mod_le ..
      refine ⟨t', e, ring ▸ h, ?_⟩
      rw [counted, accepted]
      split <;> omega
  | read dst len =>
    obtain ⟨inb, _, same⟩ := read_keeps h dst len
    exact ⟨_, rfl, inb, by dsimp only; rw [same]; omega⟩

/-- A run of few events stays small. -/
lemma guarded_small (h : t.kb.stream.rb.InBounds) (events : List Event)
    (few : t.sum + events.length < 2 ^ 32) : Guarded step StaysSmall t events := by
  induction events generalizing t with
  | nil => trivial
  | cons e es ih =>
    rw [List.length_cons] at few
    obtain ⟨t', here, inb, less⟩ := step_sum h e
    refine ⟨?_, ?_⟩
    · rintro o t1 e1
      rw [here] at e1
      cases e1
      omega
    · rintro o t1 e1
      rw [here] at e1
      cases e1
      exact ih inb (by omega)

/-- One interrupt keeps the balance exactly if it is no backspace that finds the ring full. -/
lemma irq_balanced (inv : t.Inv) {sc : Byte} (small : t.StaysSmall (.irq sc)) :
    ∃ t', t.step (.irq sc) = .ok ((), t') ∧
      (Balanced t (.irq sc) () t' ↔ t.BackspaceFits (.irq sc)) ∧
      (Balanced t (.irq sc) () t' → t'.Inv) := by
  have sum_ : t.presses = t.accepted + t.kb.stream.overflow := inv.balanced
  have bound : t.accepted + t.kb.stream.overflow < 2 ^ 32 := inv.small
  have stored := inv.stored
  obtain ⟨t', e, none_ | room | full⟩ := irq_cases inv.inb sc
  · obtain ⟨key, same, presses, accepted⟩ := none_
    have balanced : t'.presses = t'.sum := by
      unfold sum
      rw [same, presses, accepted]
      exact sum_
    refine ⟨t', e, iff_of_true balanced fun back => ?_, fun _ => ?_⟩
    · cases back
      cases key
    · refine ⟨same ▸ inv.inb, balanced, small _ _ e, ?_⟩
      rw [same, accepted]
      exact stored
  · obtain ⟨room, inb, more, same, presses, accepted⟩ := room
    have balanced : t'.presses = t'.sum := by
      unfold sum
      rw [same, presses, accepted]
      omega
    refine ⟨t', e, iff_of_true balanced fun _ => room, fun _ => ?_⟩
    exact ⟨inb, balanced, small _ _ e, by rw [more, accepted]; exact Nat.succ_le_succ stored⟩
  · obtain ⟨full, ring, counted, presses, accepted⟩ := full
    refine ⟨t', e, ?_⟩
    by_cases isBack : sc = 0x0E#8
    · -- the answer of the put is ignored
      rw [if_pos isBack] at counted
      have lost : ¬ t'.presses = t'.sum := by
        unfold sum
        rw [counted, presses, accepted]
        omega
      refine ⟨iff_of_false lost fun fits => full (fits ?_), fun balanced => absurd balanced lost⟩
      rw [isBack]
    · -- the full ring holds no more bytes than were accepted, so that the count does not wrap
      have below : t.kb.stream.overflow + 1 < 2 ^ 32 := by
        simp only [capacity, streamBufferSize] at full
        omega
      rw [if_neg isBack, u32_of_lt below] at counted
      have balanced : t'.presses = t'.sum := by
        unfold sum
        rw [counted, presses, accepted]
        omega
      refine ⟨iff_of_true balanced fun back => ?_, fun _ => ?_⟩
      · cases back
        exact absurd rfl isBack
      · exact ⟨ring ▸ inv.inb, balanced, small _ _ e, by rw [ring, accepted]; exact stored⟩

/-- Every press is accounted for throughout a run if and only if no press of the backspace key finds
    the ring full. -/
theorem no_silent_drop_iff (s : StreamT) (events : List Event)
    (small : Guarded step StaysSmall (start s) events) :
    Along step Balanced (start s) events ↔ Guarded step BackspaceFits (start s) events := by
  refine Along.iff_guarded (I := Inv) (G := StaysSmall) ?_ (start_inv s) small
  intro t e inv small
  cases e with
  | irq sc =>
    obtain ⟨t', e, iff, keep⟩ := irq_balanced inv small
    exact ⟨(), t', e, iff, keep⟩
  | read dst len =>
    obtain ⟨inb, less, same⟩ := read_keeps inv.inb dst len
    have balanced : t.presses = t.accepted + (streamTryRead t.kb.stream dst len).2.2.overflow := by
      rw [same]
      exact inv.balanced
    refine ⟨(), _, rfl, iff_of_true balanced (fun e => by cases e), fun _ => ?_⟩
    exact ⟨inb, balanced, small _ _ rfl, Nat.le_trans less inv.stored⟩

/-- Two keystrokes, a read that takes them, and the backspace key. -/
def typedKeys : List Event := [.irq 0x1E#8, .irq 0x30#8, .read 0x500 4, .irq 0x0E#8]

/-- The backspace key finds room, so that no press of the run is lost. -/
theorem no_silent_drop_iff_typed : Along step Balanced (start emptyStream) typedKeys := by
  refine (no_silent_drop_iff emptyStream typedKeys (guarded_small (start_inv emptyStream).inb _
    (by decide))).mpr ?_
  refine ⟨nofun, fun _ t1 e1 => ⟨nofun, fun _ t2 e2 => ⟨nofun, fun _ t3 e3 => ⟨fun _ => ?_,
    fun _ _ _ => trivial⟩⟩⟩⟩
  have run : exec step (start emptyStream) (typedKeys.take 3) = .ok t3 := by
    rw [typedKeys, List.take_succ_cons, exec_cons e1, List.take_succ_cons, exec_cons e2,
      List.take_succ_cons, exec_cons e3]
    rfl
  have taken : (exec step (start emptyStream) (typedKeys.take 3)).map
      (fun t => t.kb.stream.rb.stored) = .ok 0 := rfl
  rw [run] at taken
  have empty : t3.kb.stream.rb.stored = 0 := Except.ok.inj taken
  rw [empty]
  decide

/-- Presses of the A key fill the ring. -/
lemma exec_presses (inv : t.Inv) (n : Nat) (room : t.kb.stream.rb.stored + n ≤ capacity)
    (few : t.sum + n < 2 ^ 32) :
    ∃ t', exec step t (List.replicate n (.irq 0x1E#8)) = .ok t' ∧ t'.Inv ∧
      t'.kb.stream.rb.stored = t.kb.stream.rb.stored + n := by
  induction n generalizing t with
  | zero => exact ⟨t, rfl, inv, rfl⟩
  | succ n ih =>
    obtain ⟨t1, e, none_ | fits | full⟩ := irq_cases inv.inb 0x1E#8
    · cases none_.1
    · obtain ⟨_, inb, more, same, presses, accepted⟩ := fits
      have sum_ : t1.sum = t.sum + 1 := by
        unfold sum
        rw [same, accepted]
        omega
      have inv1 : t1.Inv := by
        refine ⟨inb, ?_, by omega, ?_⟩
        · rw [presses, sum_, inv.balanced]
        · rw [more, accepted]
          exact Nat.succ_le_succ inv.stored
      obtain ⟨t', e', inv', stored⟩ := ih inv1 (by omega) (by omega)
      refine ⟨t', ?_, inv', by omega⟩
      rw [List.replicate_succ, exec_cons e]
      exact e'
    · exact absurd (Nat.lt_of_lt_of_le (Nat.lt_add_of_pos_right n.succ_pos) room) full.1

/-- A press of the backspace key after as many unread keystrokes as the ring holds is lost. -/
theorem full_ring_drops_backspace :
    Guarded step StaysSmall (start emptyStream)
        (List.replicate 4095 (.irq 0x1E#8) ++ [.irq 0x0E#8]) ∧
      ¬ Along step Balanced (start emptyStream)
        (List.replicate 4095 (.irq 0x1E#8) ++ [.irq 0x0E#8]) := by
  have small : (start emptyStream).sum = 0 := rfl
  have inv := start_inv emptyStream
  constructor
  · refine guarded_small inv.inb _ ?_
    rw [small, List.length_append, List.length_replicate]
    decide
  · intro balanced
    obtain ⟨_, _, t', _, e', p⟩ := balanced.last
    obtain ⟨t1, e1, inv1, stored⟩ := exec_presses inv 4095 (Nat.le_refl _) (by rw [small]; decide)
    obtain ⟨t2, last, none_ | fits | full⟩ := irq_cases inv1.inb 0x0E#8
    · cases none_.1
    · rw [stored] at fits
      exact absurd fits.1 (by decide)
    · obtain ⟨_, _, counted, presses, accepted⟩ := full
      rw [exec_append e1, exec_cons last] at e'
      obtain rfl : t2 = t' := Except.ok.inj e'
      have before : t1.presses = t1.accepted + t1.kb.stream.overflow := inv1.balanced
      have after : t2.presses = t2.accepted + t2.kb.stream.overflow := p
      rw [presses, accepted, counted, if_pos rfl] at after
      omega

end Tally

end TRS.Keyboard
