import TRS.Lib.Logged
import TRS.Libc.Memory

/-!
# The accesses of `memcpy` and `memmove`

Each step of the copies with the bytes that it reads and writes. A copy of `len` bytes reads within
its source and writes within its destination, whichever way it goes.

* `memmoveLog_val`: the logged copy is the copy.
* `CopyLog.loop_induct`: what each round keeps, a loop keeps.
* `memcpyLog_accesses`, `memmoveLog_accesses`: the accesses stay in the two ranges.
* `memcpyLog_accounts`, `memmoveLog_accounts`: no byte changes that the log does not store to.
-/

namespace TRS.Libc
open TRS.Lib

/-- A copy in progress with its accesses. -/
abbrev CopyLog := Logged Copy Access

/-- `*d++ = *s++; len--`, with its accesses. -/
def CopyLog.byte (t : CopyLog) : CopyLog :=
  t.step Copy.byte fun c => [.read c.s 1, .write c.d 1]

/-- `*d32++ = *s32++; len -= 4`, with its accesses. -/
def CopyLog.word (t : CopyLog) : CopyLog :=
  t.step Copy.word fun c => [.read c.s 4, .write c.d 4]

/-- Eight words, with their accesses. -/
def CopyLog.block (t : CopyLog) : CopyLog :=
  t.step Copy.block fun c =>
    (List.range 8).flatMap fun i => [.read (c.s + 4 * i) 4, .write (c.d + 4 * i) 4]

/-- A loop of `memcpy`, with its accesses. -/
def CopyLog.loop (more : Copy → Bool) (round : CopyLog → CopyLog) : (n : Nat) → CopyLog → CopyLog
  | 0, t => t
  | n + 1, t => if more t.val then loop more round n (round t) else t

/-- `memcpy(dst, src, len)`, with its accesses. -/
def memcpyLog (dst src len : Nat) (t : Logged Mem Access) : Logged Mem Access :=
  let c : CopyLog := t.map fun m => ⟨m, dst, src, len⟩
  let c := CopyLog.loop (fun c => c.len > 0 && c.d &&& 3 != 0) CopyLog.byte len c
  let sIsAligned := c.val.s &&& 3 == 0
  let c := CopyLog.loop (fun c => c.len ≥ 32 && sIsAligned) CopyLog.block len c
  let c := CopyLog.loop (fun c => c.len ≥ 4 && sIsAligned) CopyLog.word len c
  let c := CopyLog.loop (fun c => c.len > 0) CopyLog.byte len c
  c.map Copy.mem

/-- The loop of `memmove` that copies downwards, with its accesses. -/
def copyDownLog (dst src : Nat) : (len : Nat) → Logged Mem Access → Logged Mem Access
  | 0, t => t
  | n + 1, t => copyDownLog dst src n
      (t.step (fun m => m.write (dst + n) (m (src + n)))
        fun _ => [.read (src + n) 1, .write (dst + n) 1])

/-- `memmove(dst, src, len)`, with its accesses. -/
def memmoveLog (dst src len : Nat) (t : Logged Mem Access) : Logged Mem Access :=
  if dst > src then copyDownLog dst src len t
  else if dst < src then memcpyLog dst src len t
  else t

/-! ## The same copies -/

/-- A logged loop does what the loop does. -/
lemma CopyLog.loop_val {more : Copy → Bool} {round : Copy → Copy} {logged : CopyLog → CopyLog}
    (same : ∀ t, (logged t).val = round t.val) (n : Nat) (t : CopyLog) :
    (CopyLog.loop more logged n t).val = Copy.loop more round n t.val := by
  induction n generalizing t with
  | zero => rfl
  | succ n ih =>
    rw [CopyLog.loop, Copy.loop]
    split
    · rw [ih, same]
    · rfl

/-- The logged `memcpy` is `memcpy`. -/
lemma memcpyLog_val (dst src len : Nat) (t : Logged Mem Access) :
    (memcpyLog dst src len t).val = memcpy t.val dst src len := by
  have byte : ∀ t : CopyLog, t.byte.val = t.val.byte := fun _ => rfl
  have word : ∀ t : CopyLog, t.word.val = t.val.word := fun _ => rfl
  have block : ∀ t : CopyLog, t.block.val = t.val.block := fun _ => rfl
  unfold memcpyLog memcpy
  dsimp only [Logged.map_val]
  rw [CopyLog.loop_val byte, CopyLog.loop_val word, CopyLog.loop_val block, CopyLog.loop_val byte]
  rfl

/-- The logged copy downwards is the copy. -/
lemma copyDownLog_val (dst src len : Nat) (t : Logged Mem Access) :
    (copyDownLog dst src len t).val = copyDown dst src len t.val := by
  induction len generalizing t with
  | zero => rfl
  | succ n ih => rw [copyDownLog, copyDown, ih, Logged.step_val]

/-- The logged `memmove` is `memmove`. -/
lemma memmoveLog_val (dst src len : Nat) (t : Logged Mem Access) :
    (memmoveLog dst src len t).val = memmove t.val dst src len := by
  unfold memmoveLog memmove
  split
  · exact copyDownLog_val dst src len t
  · split
    · exact memcpyLog_val dst src len t
    · rfl

/-- Invariant rule for the loops of `memcpy`. -/
lemma CopyLog.loop_induct {I : CopyLog → Prop} {more : Copy → Bool} {round : CopyLog → CopyLog}
    (step : ∀ t, I t → more t.val → I (round t)) (n : Nat) {t : CopyLog} (start : I t) :
    I (CopyLog.loop more round n t) := by
  induction n generalizing t with
  | zero => exact start
  | succ n ih =>
    rw [CopyLog.loop]
    split
    · next go => exact ih (step t start go)
    · exact start

/-! ## Its accesses -/

/-- An access of a copy: a read of the source or a write to the destination. -/
def OfCopy (dst src len : Nat) : Access → Prop
  | .read a n => Access.Within src len (.read a n)
  | .write a n => Access.Within dst len (.write a n)

/-- The pointers of a copy in progress, and its accesses so far. `P` holds of what was logged
    before. -/
structure Copying (P : Access → Prop) (dst src len : Nat) (t : CopyLog) : Prop where
  d : dst ≤ t.val.d ∧ t.val.d + t.val.len = dst + len
  s : src ≤ t.val.s ∧ t.val.s + t.val.len = src + len
  log : AllLogged (fun a => P a ∨ OfCopy dst src len a) t

namespace Copying
variable {P : Access → Prop} {dst src len : Nat} {t : CopyLog}

/-- A step over the next `k` bytes. -/
lemma step (h : Copying P dst src len t) {f : Copy → Copy} {acc : Copy → List Access} {k : Nat}
    (le : k ≤ t.val.len)
    (adv : ∀ c : Copy, (f c).d = c.d + k ∧ (f c).s = c.s + k ∧ (f c).len = c.len - k)
    (own : ∀ c : Copy, ∀ a ∈ acc c, OfCopy c.d c.s k a) :
    Copying P dst src len (Logged.step f acc t) := by
  obtain ⟨ed, es, el⟩ := adv t.val
  have hd := h.d
  have hs := h.s
  refine ⟨?_, ?_, h.log.step fun a m => .inr ?_⟩
  · rw [Logged.step_val, ed, el]
    omega
  · rw [Logged.step_val, es, el]
    omega
  · have here := own t.val a m
    cases a with
    | read a n =>
      have inside : Access.Within t.val.s k (.read a n) := here
      exact inside.mono hs.1 (by omega)
    | write a n =>
      have inside : Access.Within t.val.d k (.write a n) := here
      exact inside.mono hd.1 (by omega)

/-- The copy of a byte keeps to its ranges. -/
lemma byte (h : Copying P dst src len t) (pos : 0 < t.val.len) : Copying P dst src len t.byte := by
  refine h.step pos (fun _ => ⟨rfl, rfl, rfl⟩) fun c a m => ?_
  simp only [List.mem_cons, List.not_mem_nil, or_false] at m
  rcases m with rfl | rfl
  · exact ⟨Nat.le_refl _, Nat.le_refl _⟩
  · exact ⟨Nat.le_refl _, Nat.le_refl _⟩

/-- So does that of a word. -/
lemma word (h : Copying P dst src len t) (more : 4 ≤ t.val.len) : Copying P dst src len t.word := by
  refine h.step more (fun _ => ⟨rfl, rfl, rfl⟩) fun c a m => ?_
  simp only [List.mem_cons, List.not_mem_nil, or_false] at m
  rcases m with rfl | rfl
  · exact ⟨Nat.le_refl _, Nat.le_refl _⟩
  · exact ⟨Nat.le_refl _, Nat.le_refl _⟩

/-- So does that of eight words. -/
lemma block (h : Copying P dst src len t) (more : 32 ≤ t.val.len) :
    Copying P dst src len t.block := by
  refine h.step more (fun _ => ⟨rfl, rfl, rfl⟩) fun c a m => ?_
  simp only [List.mem_flatMap, List.mem_range, List.mem_cons, List.not_mem_nil, or_false] at m
  obtain ⟨i, lt, rfl | rfl⟩ := m
  · exact ⟨by omega, by omega⟩
  · exact ⟨by omega, by omega⟩

end Copying

variable {P : Access → Prop} {t : Logged Mem Access}

/-- `memcpy` keeps to its two ranges. -/
lemma memcpyLog_accesses (dst src len : Nat) (h : AllLogged P t) :
    AllLogged (fun a => P a ∨ OfCopy dst src len a) (memcpyLog dst src len t) := by
  have start : Copying P dst src len (t.map fun m => ⟨m, dst, src, len⟩) :=
    ⟨⟨Nat.le_refl _, rfl⟩, ⟨Nat.le_refl _, rfl⟩, fun a m => .inl (h a m)⟩
  unfold memcpyLog
  dsimp only
  refine AllLogged.map (Copying.log ?_)
  refine CopyLog.loop_induct (fun t h more => h.byte (by simpa using more)) len ?_
  refine CopyLog.loop_induct (fun t h more => h.word (by simp at more; omega)) len ?_
  refine CopyLog.loop_induct (fun t h more => h.block (by simp at more; omega)) len ?_
  exact CopyLog.loop_induct (fun t h more => h.byte (by simp at more; omega)) len start

/-- So does the copy downwards. -/
lemma copyDownLog_accesses {dst src len n : Nat} (le : n ≤ len)
    (h : AllLogged (fun a => P a ∨ OfCopy dst src len a) t) :
    AllLogged (fun a => P a ∨ OfCopy dst src len a) (copyDownLog dst src n t) := by
  induction n generalizing t with
  | zero => exact h
  | succ n ih =>
    refine ih (by omega) (h.step fun a m => .inr ?_)
    simp only [List.mem_cons, List.not_mem_nil, or_false] at m
    rcases m with rfl | rfl
    · exact ⟨by omega, by omega⟩
    · exact ⟨by omega, by omega⟩

/-- `memmove` reads within its source and writes within its destination. -/
theorem memmoveLog_accesses (dst src len : Nat) (h : AllLogged P t) :
    AllLogged (fun a => P a ∨ OfCopy dst src len a) (memmoveLog dst src len t) := by
  unfold memmoveLog
  split
  · exact copyDownLog_accesses (Nat.le_refl len) fun a m => .inl (h a m)
  · split
    · exact memcpyLog_accesses dst src len h
    · exact fun a m => .inl (h a m)

/-! ## All that changes -/

section
variable {m₀ : Mem}

/-- The copy of a byte accounts for what it changes. -/
lemma byte_accounts {t : CopyLog} (h : Accounts m₀ (t.map Copy.mem)) :
    Accounts m₀ (t.byte.map Copy.mem) := by
  refine h.more rfl fun b none_ => ?_
  have no : ¬ (t.val.d ≤ b ∧ b < t.val.d + 1) := none_ (.write t.val.d 1) (by simp)
  exact Mem.write_other _ _ (by omega)

/-- So does that of a word. -/
lemma word_accounts {t : CopyLog} (h : Accounts m₀ (t.map Copy.mem)) :
    Accounts m₀ (t.word.map Copy.mem) := by
  refine h.more rfl fun b none_ => ?_
  have no : ¬ (t.val.d ≤ b ∧ b < t.val.d + 4) := none_ (.write t.val.d 4) (by simp)
  exact (Mem.store32_apply ..).trans (if_neg no)

/-- So does that of eight words. -/
lemma block_accounts {t : CopyLog} (h : Accounts m₀ (t.map Copy.mem)) :
    Accounts m₀ (t.block.map Copy.mem) := by
  refine h.more rfl fun b none_ => ?_
  -- the invariant of the eight words: byte `b` is still the one before the block
  refine forRange_induct (fun _ (m : Mem) => m b = t.val.mem b) (Nat.zero_le 8) rfl
    fun i m _ lt same => ?_
  have no : ¬ (t.val.d + 4 * i ≤ b ∧ b < t.val.d + 4 * i + 4) := by
    refine none_ (.write (t.val.d + 4 * i) 4)
      (List.mem_flatMap.mpr ⟨i, List.mem_range.mpr lt, ?_⟩)
    simp
  rw [Mem.store32_apply, if_neg no, same]

/-- So does a loop of such rounds. -/
lemma loop_accounts {more : Copy → Bool} {round : CopyLog → CopyLog}
    (keep : ∀ t : CopyLog, Accounts m₀ (t.map Copy.mem) → Accounts m₀ ((round t).map Copy.mem))
    (n : Nat) {t : CopyLog} (h : Accounts m₀ (t.map Copy.mem)) :
    Accounts m₀ ((CopyLog.loop more round n t).map Copy.mem) :=
  CopyLog.loop_induct (I := fun t => Accounts m₀ (t.map Copy.mem)) (fun t h _ => keep t h) n h

/-- So does `memcpy`. -/
lemma memcpyLog_accounts (dst src len : Nat) (h : Accounts m₀ t) :
    Accounts m₀ (memcpyLog dst src len t) := by
  unfold memcpyLog
  dsimp only
  apply loop_accounts fun t => byte_accounts
  apply loop_accounts fun t => word_accounts
  apply loop_accounts fun t => block_accounts
  apply loop_accounts fun t => byte_accounts
  exact h

/-- So does the copy downwards. -/
lemma copyDownLog_accounts (dst src n : Nat) (h : Accounts m₀ t) :
    Accounts m₀ (copyDownLog dst src n t) := by
  induction n generalizing t with
  | zero => exact h
  | succ n ih =>
    refine ih (h.more rfl fun b none_ => ?_)
    have no : ¬ (dst + n ≤ b ∧ b < dst + n + 1) := none_ (.write (dst + n) 1) (by simp)
    exact Mem.write_other _ _ (by omega)

/-- `memmove` changes nothing but what its accesses store to. -/
theorem memmoveLog_accounts (dst src len : Nat) (h : Accounts m₀ t) :
    Accounts m₀ (memmoveLog dst src len t) := by
  unfold memmoveLog
  split
  · exact copyDownLog_accounts dst src len h
  · split
    · exact memcpyLog_accounts dst src len h
    · exact h

end

end TRS.Libc
