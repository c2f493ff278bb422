import TRS.Fat.Dirent
import TRS.Fat.Volume

/-!
# The end of a directory

What follows once `fat32_dir_read` has reported the end of a directory. `FAT_ERR_EOF` is not kept
anywhere: the next read steps on with `fat_dir_next`, which must not be called then, and reports
whatever is stored there.

* `counted_readSlot`: the calls of `fat_dir_next` are counted without changing an answer.
* `Watched.Valid`: the invariant, by which a handle at its end would step on with the next read.
* `watch_step`: one request keeps the end final exactly if it does not read past it.
* `read_past_marker`, `read_past_chain`: what such a read reports, on the embedded library.

The headline `end_of_directory_final_iff` is over all runs, by `Along.iff_guarded`;
`end_of_directory_not_final` is a directory with junk behind its end marker.
-/

namespace TRS.Fat
open TRS.Lib

variable {δ : Type*}

/-! ## Requests -/

/-- A request of a program. -/
inductive SysCall where
  | opendir (path : Option (List Byte))
  | readdir (rdx rdi : Nat)
  | closedir (rdx : Nat)
  deriving DecidableEq, Repr

/-- What its handler calls, if anything. -/
def SysCall.op : SysCall → Option Op
  | .opendir path => path.map fun path => .open_ (some path)
  | .readdir rdx rdi => if rdi = 0 then none else some (.read (intOf rdx) infoAddr)
  | .closedir rdx => some (.close (intOf rdx))

/-- The library, with the number of calls of `fat_dir_next` on each `Dir`. -/
def FatDir.counted (F : FatDir δ) : FatDir (δ × Nat) where
  fatDirOpen d path := ((F.fatDirOpen d.1 path).1, (F.fatDirOpen d.1 path).2, d.2)
  fatDirRead d := ((F.fatDirRead d.1).1, (F.fatDirRead d.1).2.1, (F.fatDirRead d.1).2.2, d.2)
  fatDirNext d := ((F.fatDirNext d.1).1, (F.fatDirNext d.1).2, d.2 + 1)
  zero := (F.zero, 0)

/-- The table, and for each handle whose end has been reported, the number of calls of
    `fat_dir_next` until then. -/
structure Watched (δ : Type*) where
  table : Fat32 (δ × Nat)
  ended : Int → Option Nat

/-- The number of calls of `fat_dir_next` on the `Dir` of a handle. -/
def Watched.steps (w : Watched δ) (slot : Int) : Nat := (w.table.dirs slot.toNat).dir.2

/-- The handles whose end has been reported, after an operation that leaves the table `g`. -/
def Watched.endedAfter (w : Watched δ) (rc : Int) (g : Fat32 (δ × Nat)) : Op → Int → Option Nat
  | .open_ _ => w.ended
  | .read slot _ =>
    if rc = errEof ∧ w.ended slot = none then
      Function.update w.ended slot (some (g.dirs slot.toNat).dir.2)
    else w.ended
  | .close slot => if rc = errNone then Function.update w.ended slot none else w.ended

/-- A request, with the answer of the function that its handler calls. -/
def FatDir.watch (F : FatDir δ) (w : Watched δ) (c : SysCall) :
    Option (Int × Option DirInfo) × Watched δ :=
  match c.op with
  | none => (none, w)
  | some op =>
    let r := F.counted.step w.table op
    (some r.1, ⟨r.2, w.endedAfter r.1.1 r.2 op⟩)

/-- A mounted volume without open handles. -/
def FatDir.watchInit (F : FatDir δ) : Watched δ := ⟨F.counted.fat32Init, fun _ => none⟩

/-- A read of a handle whose end has been reported reports the end again, and `fat_dir_next` is not
    called. -/
def EndIsFinal (w : Watched δ) (c : SysCall) (a : Option (Int × Option DirInfo))
    (w' : Watched δ) : Prop :=
  ∀ slot info n, c.op = some (.read slot info) → w.ended slot = some n →
    (∃ out, a = some (errEof, out)) ∧ w'.steps slot = n

/-- The request reads no handle whose end has been reported. -/
def NotPastEnd (w : Watched δ) (c : SysCall) : Prop :=
  ∀ slot info, c.op = some (.read slot info) → w.ended slot = none

/-! ## Counting changes no answer -/

/-- The slot without the count. -/
def DirSlot.plain (s : DirSlot (δ × Nat)) : DirSlot δ := ⟨s.dir.1, s.used, s.needNext⟩

/-- The tables agree but for the counts. -/
structure Plain (g : Fat32 (δ × Nat)) (g' : Fat32 δ) : Prop where
  mounted : g.mounted = g'.mounted
  dirs : ∀ i, (g.dirs i).plain = g'.dirs i

variable {F : FatDir δ} {g : Fat32 (δ × Nat)} {g' : Fat32 δ}

/-- The same slots are in use. -/
lemma Plain.used (p : Plain g g') (i : Nat) : (g.dirs i).used = (g'.dirs i).used := by
  rw [← p.dirs i]
  rfl

/-- Slots that agree but for the count may be stored on both sides. -/
lemma Plain.setDir (p : Plain g g') (i : Nat) {s : DirSlot (δ × Nat)} {s' : DirSlot δ}
    (same : s.plain = s') : Plain (g.setDir i s) (g'.setDir i s') where
  mounted := p.mounted
  dirs j := by
    by_cases e : j = i
    · subst e
      rw [setDir_same, setDir_same, same]
    · rw [setDir_other g s e, setDir_other g' s' e, p.dirs j]

/-- A slot is read as without the count. -/
lemma readSlot_plain (F : FatDir δ) (s : DirSlot (δ × Nat)) :
    (F.counted.readSlot s).1 = (F.readSlot s.plain).1 ∧
      (F.counted.readSlot s).2.plain = (F.readSlot s.plain).2 := by
  obtain ⟨⟨d, n⟩, used, on⟩ := s
  cases on with
  | false => exact ⟨rfl, rfl⟩
  | true =>
    unfold FatDir.readSlot FatDir.counted DirSlot.plain
    simp only [if_true]
    split
    · exact ⟨rfl, rfl⟩
    · exact ⟨rfl, rfl⟩

/-- A directory is opened as without it. -/
lemma openFrom_plain (p : Plain g g') (path : List Byte) (n i : Nat) :
    (F.counted.openFrom g path n i).1 = (F.openFrom g' path n i).1 ∧
      Plain (F.counted.openFrom g path n i).2 (F.openFrom g' path n i).2 := by
  induction n generalizing i with
  | zero => exact ⟨rfl, p⟩
  | succ n ih =>
    rw [FatDir.openFrom, FatDir.openFrom, p.used i]
    split
    · exact ih (i + 1)
    · have rc : F.counted.fatDirOpen (g.dirs i).dir path =
          ((F.fatDirOpen (g'.dirs i).dir path).1, (F.fatDirOpen (g'.dirs i).dir path).2,
            (g.dirs i).dir.2) := by
        rw [← p.dirs i]
        rfl
      unfold FatDir.openSlot
      rw [rc]
      dsimp only
      split
      · refine ⟨rfl, p.setDir i ?_⟩
        rw [← p.dirs i]
        rfl
      · exact ⟨rfl, p.setDir i rfl⟩

/-- The library that counts is the library, as far as its callers can see. -/
lemma counted_run (F : FatDir δ) (ops : List Op) :
    (run F.counted.step F.counted.fat32Init ops).1 = (run F.step F.fat32Init ops).1 := by
  refine (run_simulates (R := Plain) (G := fun _ => True) ?_ ⟨rfl, fun _ => rfl⟩ ops
    fun _ _ => trivial).1
  intro g g' c p _
  cases c with
  | open_ path =>
    cases path with
    | none => exact ⟨rfl, p⟩
    | some path =>
      have loop := openFrom_plain (F := F) p path maxOpendirs 0
      unfold FatDir.step FatDir.fat32DirOpen
      dsimp only
      rw [p.mounted]
      split
      · exact ⟨congrArg (·, none) loop.1, loop.2⟩
      · exact ⟨rfl, p⟩
  | read slot info =>
    obtain ⟨ans, slot'⟩ := readSlot_plain F (g.dirs slot.toNat)
    unfold FatDir.step FatDir.fat32DirRead
    dsimp only
    rw [p.used]
    split
    · exact ⟨rfl, p⟩
    · rw [p.dirs] at ans slot'
      exact ⟨ans, p.setDir _ slot'⟩
  | close slot =>
    unfold FatDir.step FatDir.fat32DirClose
    dsimp only
    rw [p.used]
    split
    · exact ⟨rfl, p⟩
    · exact ⟨rfl, p.setDir _ rfl⟩

/-! ## One request -/

/-- After a read the slot has to step on, whatever the answer. -/
lemma readSlot_needNext (F : FatDir δ) (s : DirSlot δ) : (F.readSlot s).2.needNext = true := by
  obtain ⟨d, used, on⟩ := s
  cases on with
  | false => rfl
  | true =>
    unfold FatDir.readSlot
    simp only [if_true]
    split
    · rfl
    · rfl

/-- A read of a slot that has to step on calls `fat_dir_next`. -/
lemma counted_readSlot {s : DirSlot (δ × Nat)} (on : s.needNext = true) :
    (F.counted.readSlot s).2.dir.2 = s.dir.2 + 1 := by
  unfold FatDir.readSlot
  rw [if_pos on]
  dsimp only
  split
  · rfl
  · rfl

/-- A handle whose end has been reported is open and steps on before it is read, and has not been
    read since. -/
def Watched.Valid (w : Watched δ) : Prop :=
  ∀ slot n, w.ended slot = some n → w.table.IsOpen slot ∧
    (w.table.dirs slot.toNat).needNext = true ∧ w.steps slot = n

variable {w : Watched δ}

/-- An operation on other handles changes nothing about the end of this one. -/
lemma Watched.Valid.frame (v : w.Valid) {o : Op} {slot : Int} (other : o.onto slot = none)
    {ended : Int → Option Nat} (same : ended slot = w.ended slot) {n : Nat}
    (e : ended slot = some n) :
    (F.counted.step w.table o).2.IsOpen slot ∧
      ((F.counted.step w.table o).2.dirs slot.toNat).needNext = true ∧
      ((F.counted.step w.table o).2.dirs slot.toNat).dir.2 = n := by
  obtain ⟨⟨pos, lt, used⟩, on, steps⟩ := v slot n (same.symm.trans e)
  have frame := step_frame (F := F.counted) ⟨pos, lt, used⟩ other
  rw [frame]
  exact ⟨⟨pos, lt, by rw [frame]; exact used⟩, on, steps⟩

/-- A read of a handle whose end has been reported calls `fat_dir_next`. -/
lemma Watched.Valid.past_end (v : w.Valid) {slot : Int} {n : Nat} (e : w.ended slot = some n) :
    ((F.counted.step w.table (.read slot infoAddr)).2.dirs slot.toNat).dir.2 = n + 1 := by
  obtain ⟨op, on, steps⟩ := v slot n e
  rw [FatDir.step, fat32DirRead_open op Nat.one_ne_zero, setDir_same, counted_readSlot on]
  exact congrArg (· + 1) steps

/-- A read of a handle whose end has not been reported. -/
lemma Watched.Valid.read (v : w.Valid) {slot : Int} (first : w.ended slot = none) :
    Watched.Valid ⟨(F.counted.step w.table (.read slot infoAddr)).2,
      w.endedAfter (F.counted.step w.table (.read slot infoAddr)).1.1
        (F.counted.step w.table (.read slot infoAddr)).2 (.read slot infoAddr)⟩ := by
  intro slot' n ended
  rw [Watched.endedAfter] at ended
  dsimp only at ended
  by_cases same : slot' = slot
  · subst same
    split at ended
    · next eof =>
      -- only an open handle reports the end
      have op : w.table.IsOpen slot' := by
        by_contra no
        rw [FatDir.step, fat32DirRead_refused fun h => no h.1] at eof
        cases eof.1
      rw [Function.update_self] at ended
      have read := fat32DirRead_open (F := F.counted) op Nat.one_ne_zero
      rw [← FatDir.step] at read
      refine ⟨?_, ?_, Option.some.inj ended⟩
      · obtain ⟨pos, lt, used⟩ := op
        refine ⟨pos, lt, ?_⟩
        rw [read, setDir_same, readSlot_used, used]
      · rw [read, setDir_same, readSlot_needNext]
    · rw [first] at ended
      cases ended
  · have other : Op.onto slot' (.read slot infoAddr) = none := if_neg fun e => same e.symm
    refine v.frame other ?_ ended
    split
    · exact Function.update_of_ne same ..
    · rfl

/-- A close. -/
lemma Watched.Valid.close (v : w.Valid) (slot : Int) :
    Watched.Valid ⟨(F.counted.step w.table (.close slot)).2,
      w.endedAfter (F.counted.step w.table (.close slot)).1.1
        (F.counted.step w.table (.close slot)).2 (.close slot)⟩ := by
  intro slot' n ended
  rw [Watched.endedAfter] at ended
  dsimp only at ended
  by_cases same : slot' = slot
  · subst same
    split at ended
    · rw [Function.update_self] at ended
      cases ended
    · next bad =>
      -- the close of an open handle succeeds
      refine absurd ?_ bad
      rw [FatDir.step, fat32DirClose_open (v slot' n ended).1]
  · have other : Op.onto slot' (.close slot) = none := if_neg fun e => same e.symm
    refine v.frame other ?_ ended
    split
    · exact Function.update_of_ne same ..
    · rfl

/-- A read that reaches `fat32_dir_read` has room for its answer. -/
lemma SysCall.op_read {c : SysCall} {slot : Int} {info : Nat}
    (call : c.op = some (.read slot info)) : info = infoAddr := by
  cases c with
  | opendir path => cases path <;> cases call
  | closedir rdx => cases call
  | readdir rdx rdi =>
    simp only [SysCall.op] at call
    split at call
    · cases call
    · cases call
      rfl

/-- A read leaves the end final exactly when its end has not been reported. -/
lemma watch_read (F : FatDir δ) (v : w.Valid) {c : SysCall} {slot : Int}
    (call : c.op = some (.read slot infoAddr)) :
    EndIsFinal w c (F.watch w c).1 (F.watch w c).2 ↔ NotPastEnd w c := by
  constructor
  · intro final slot' info call'
    rw [call] at call'
    cases call'
    cases ended : w.ended slot with
    | none => rfl
    | some n =>
      have same := (final slot infoAddr n call ended).2
      have more := v.past_end (F := F) ended
      unfold FatDir.watch at same
      rw [call] at same
      exact absurd (more.symm.trans same) (Nat.succ_ne_self n)
  · intro no slot' info n call' ended
    rw [no slot' info call'] at ended
    cases ended

/-- One request leaves the end final exactly when it does not read past it. -/
lemma watch_step (F : FatDir δ) (v : w.Valid) (c : SysCall) :
    (EndIsFinal w c (F.watch w c).1 (F.watch w c).2 ↔ NotPastEnd w c) ∧
      (NotPastEnd w c → (F.watch w c).2.Valid) := by
  have other : (∀ slot info, c.op ≠ some (.read slot info)) →
      (EndIsFinal w c (F.watch w c).1 (F.watch w c).2 ↔ NotPastEnd w c) := by
    intro no
    exact iff_of_true (fun slot info _ call => absurd call (no slot info))
      fun slot info call => absurd call (no slot info)
  cases call : c.op with
  | none =>
    refine ⟨other (by simp [call]), fun _ => ?_⟩
    unfold FatDir.watch
    rw [call]
    exact v
  | some o =>
    have next : (F.watch w c).2 = ⟨(F.counted.step w.table o).2, w.endedAfter
        (F.counted.step w.table o).1.1 (F.counted.step w.table o).2 o⟩ := by
      unfold FatDir.watch
      rw [call]
    cases o with
    | open_ path =>
      refine ⟨other (by simp [call]), fun _ => ?_⟩
      rw [next]
      exact fun slot n ended => v.frame (o := .open_ path) rfl rfl ended
    | close slot =>
      refine ⟨other (by simp [call]), fun _ => ?_⟩
      rw [next]
      exact v.close slot
    | read slot info =>
      cases SysCall.op_read call
      refine ⟨watch_read F v call, fun no => ?_⟩
      rw [next]
      exact v.read (no slot infoAddr call)

/-- The end of a directory is final in a run of requests of programs, on any volume, exactly when no
    handle is read once its end has been reported, until it is closed: every later read calls
    `fat_dir_next`. -/
theorem end_of_directory_final_iff (F : FatDir δ) (cs : List SysCall) :
    Along (answered F.watch) EndIsFinal F.watchInit cs ↔
      Guarded (answered F.watch) NotPastEnd F.watchInit cs := by
  refine Along.iff_guarded (I := Watched.Valid) (G := fun _ _ => True) ?_ ?_ .of_true
  · intro w c v _
    obtain ⟨iff, keep⟩ := watch_step F v c
    exact ⟨_, _, rfl, iff, fun final => keep (iff.mp final)⟩
  · intro slot n ended
    cases ended

/-! ## What is read past the end -/

/-- A short name is stored at the position. -/
structure Volume.ShortAt (v : Volume) (dir : Dir) (sfn : Nat → Byte) : Prop where
  entry : v.entry dir = some sfn
  not_last : sfn 0 ≠ sfnLast
  not_free : sfn 0 ≠ sfnFree
  not_lfn : sfn 11 ≠ attrLfn

section PastEnd
variable {v : Volume} {open_ : Dir → List Byte → Int × Dir} {fuel : Nat}
  {ends : ∀ dir, (v.fatDirRead fuel dir).isSome} {dir : Dir} {sfn : Nat → Byte}

/-- A read that ends takes a round. -/
lemma library_read (mounted : dir.mounted = true) {r : Int × Option DirInfo × Dir}
    (round : ∀ n, v.readLoop (n + 1) dir = some r) :
    (v.library open_ fuel ends).fatDirRead dir = r := by
  have loop : ∀ n, v.fatDirRead n dir = v.readLoop n dir := fun n => if_pos mounted
  have some_ : v.fatDirRead fuel dir = some r := by
    cases fuel with
    | zero =>
      have none_ := ends dir
      rw [loop] at none_
      cases none_
    | succ n => rw [loop, round n]
  exact Option.get_of_eq_some _ some_

/-- `fat_dir_read` on the end marker reports the end. -/
lemma read_last (mounted : dir.mounted = true) (here : v.entry dir = some sfn)
    (last : sfn 0 = sfnLast) :
    (v.library open_ fuel ends).fatDirRead dir = (errEof, none, dir) := by
  refine library_read mounted fun n => ?_
  rw [Volume.readLoop, here]
  exact if_pos last

/-- On a short name it reports the entry. -/
lemma read_short (mounted : dir.mounted = true) (short : v.ShortAt dir sfn) :
    (v.library open_ fuel ends).fatDirRead dir =
      (errNone, some (Volume.dirInfo sfn (Volume.parseSfnName sfn)), dir) := by
  refine library_read mounted fun n => ?_
  rw [Volume.readLoop, short.entry]
  dsimp only
  rw [if_neg short.not_last, if_neg short.not_free, if_neg short.not_lfn]

/-- A slot that steps onto a short name reports it. -/
lemma readSlot_short (mounted : dir.mounted = true) {dir' : Dir} (mounted' : dir'.mounted = true)
    (next : v.dirNext dir = (errNone, dir')) (short : v.ShortAt dir' sfn) (used : Bool) :
    (v.library open_ fuel ends).readSlot ⟨dir, used, true⟩ =
      ((errNone, some (Volume.dirInfo sfn (Volume.parseSfnName sfn))), ⟨dir', used, true⟩) := by
  have step : (v.library open_ fuel ends).stepped ⟨dir, used, true⟩ = (errNone, dir') :=
    (if_pos mounted).trans next
  have ok : ((v.library open_ fuel ends).stepped ⟨dir, used, true⟩).1 = errNone := by rw [step]
  rw [readSlot_stepped ok, step, read_short mounted' short]

/-- The end marker is reported as the end, and the next read reports a name that is stored behind
    it. -/
lemma read_past_marker (mounted : dir.mounted = true) (here : v.entry dir = some sfn)
    (last : sfn 0 = sfnLast) (room : dir.idx + 32 < 512) {junk : Nat → Byte}
    (short : v.ShortAt { dir with idx := dir.idx + 32 } junk) (used : Bool) :
    (v.library open_ fuel ends).readSlot ⟨dir, used, false⟩ =
        ((errEof, none), ⟨dir, used, true⟩) ∧
      (v.library open_ fuel ends).readSlot ⟨dir, used, true⟩ =
        ((errNone, some (Volume.dirInfo junk (Volume.parseSfnName junk))),
          ⟨{ dir with idx := dir.idx + 32 }, used, true⟩) := by
  have small : (dir.idx + 32) % 2 ^ 16 = dir.idx + 32 := Nat.mod_eq_of_lt (by omega)
  have next : v.dirNext dir = (errNone, { dir with idx := dir.idx + 32 }) := by
    unfold Volume.dirNext
    rw [small]
    exact if_pos room
  refine ⟨?_, readSlot_short (by exact mounted) (by exact mounted) next short used⟩
  rw [readSlot_stepped rfl]
  exact congrArg (fun r : Int × Option DirInfo × Dir => ((r.1, r.2.1), DirSlot.mk r.2.2 used true))
    (read_last mounted here last)

/-- The end of the cluster chain is reported as the end, and the next read reports a name that is
    stored in the sector behind the last cluster. -/
lemma read_past_chain (mounted : dir.mounted = true) (full : dir.idx = 480)
    (inside : u32 (dir.sect + 1) &&& v.fat.clustMsk = 0) {val : Nat}
    (chain : v.getFat dir.clust = .ok (val, clustUsed ||| clustLast)) {junk : Nat → Byte}
    (short : v.ShortAt { dir with idx := 32, sect := u32 (dir.sect + 1) } junk) (used : Bool) :
    (v.library open_ fuel ends).readSlot ⟨dir, used, true⟩ =
        ((errEof, none), ⟨{ dir with idx := 0, sect := u32 (dir.sect + 1) }, used, true⟩) ∧
      (v.library open_ fuel ends).readSlot
          ⟨{ dir with idx := 0, sect := u32 (dir.sect + 1) }, used, true⟩ =
        ((errNone, some (Volume.dirInfo junk (Volume.parseSfnName junk))),
          ⟨{ dir with idx := 32, sect := u32 (dir.sect + 1) }, used, true⟩) := by
  refine ⟨?_, readSlot_short (by exact mounted) (by exact mounted) rfl short used⟩
  have walk : v.dirNext dir = (errEof, { dir with idx := 0, sect := u32 (dir.sect + 1) }) := by
    unfold Volume.dirNext Volume.nextClust
    rw [full, if_neg (by decide)]
    dsimp only
    rw [if_neg (not_not.mpr inside), chain]
    rfl
  have step : (v.library open_ fuel ends).stepped ⟨dir, used, true⟩ =
      (errEof, { dir with idx := 0, sect := u32 (dir.sect + 1) }) := (if_pos mounted).trans walk
  have ne : errEof ≠ errNone := by decide
  have stuck : ((v.library open_ fuel ends).stepped ⟨dir, used, true⟩).1 ≠ errNone := by
    rw [step]
    exact ne
  rw [readSlot_stuck stuck, step]

end PastEnd

/-- A volume with one cluster, whose directory ends at once: behind the end marker the sector is
    filled with the letter J, as an older file may have left it. -/
def endThenJunk : Volume where
  fat := ⟨0, 384, 1, 2, 5, 8, 2, 2, 0, 0, text "dsk"⟩
  sector s := some fun i =>
    if s = 8 then (if i < 32 then 0x00#8 else 0x4A#8)
    else if s = 2 ∧ 8 ≤ i ∧ i < 12 then (if i = 11 then 0x0F#8 else 0xFF#8)
    else 0x00#8
  gBuf _ := 0x00#8

/-- A read of this directory ends in its first round. -/
lemma endThenJunk_ends (dir : Dir) : (endThenJunk.fatDirRead 1 dir).isSome := by
  have no_free : ∀ sfn, endThenJunk.entry dir = some sfn → sfn 0 ≠ sfnFree := by
    rintro sfn ⟨⟩
    dsimp only
    split_ifs <;> decide
  unfold Volume.fatDirRead
  split
  · cases here : endThenJunk.entry dir with
    | none => rw [Volume.readLoop, here]; rfl
    | some sfn =>
      rw [Volume.readLoop, here]
      dsimp only
      rw [if_neg (no_free sfn here)]
      split
      · rfl
      · split <;> rfl
  · rfl

/-- Its library: every path leads to the directory. -/
def endThenJunkDir : FatDir Dir :=
  endThenJunk.library (fun _ _ => (errNone, ⟨true, 2, 8, 0⟩)) 1 endThenJunk_ends

/-- The directory is opened and read to its end, and once more. -/
def readOnce : List SysCall := [.opendir (some [0x2F#8]), .readdir 0 1, .readdir 0 1]

/-- The first read reports the end, and the next one calls `fat_dir_next` and reports a file. -/
theorem end_of_directory_not_final :
    (run endThenJunkDir.watch endThenJunkDir.watchInit readOnce).1 =
        [some (0, none), some (errEof, none),
          some (errNone, some ⟨0x4A4A4A4A, 0x4A#8,
            [0x4A#8, 0x4A#8, 0x4A#8, 0x4A#8, 0x4A#8, 0x4A#8, 0x4A#8, 0x4A#8, 0x2E#8, 0x4A#8,
              0x4A#8, 0x4A#8], 12⟩)] ∧
      ¬ Along (answered endThenJunkDir.watch) EndIsFinal endThenJunkDir.watchInit readOnce := by
  refine ⟨by rfl, fun final => ?_⟩
  obtain ⟨_, rest⟩ := Along.answered_cons.mp final
  obtain ⟨_, rest⟩ := Along.answered_cons.mp rest
  obtain ⟨last, _⟩ := Along.answered_cons.mp rest
  obtain ⟨⟨out, eof⟩, _⟩ := last 0 infoAddr 0 rfl rfl
  cases eof

end TRS.Fat
