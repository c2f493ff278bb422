import TRS.Fat.Mount
import TRS.Lib.Program
import TRS.Lib.Run
import TRS.Lib.WriteBack

/-!
# The sector buffer of a volume

`sync_buf`, `update_buf` and `sync_fs` of the FAT library (`trfs/fat32/fat.c`). A mounted volume
keeps one sector of its disk in `fat->buf` and writes it back when another one is needed: the
write-back cache of `TRS.Lib.WriteBack`, with sector 0 for an empty buffer. `Fs.Writes` says what
sectors a function of the library has written, through the buffer and in which order.

* `syncBuf_spec`, `updateBuf_spec`, `syncFs_spec`: the functions, as writes and moves.
* `edit_writes`: a change of the buffer is a write.
* `callStep_spec`: one call makes its change, and a `sync_fs` that succeeds leaves a clean buffer.
* `run_writes`: calls in a row, by induction.

The headline `buffer_keeps_changes` reads the run off the view and off the disk.
-/

namespace TRS.Fat
open TRS.Lib TRS.Lib.Program

/-- A sector. -/
abbrev Sect := Block 512

/-- `Fat`, with its buffer (`sect`, `buf`, `FAT_BUF_DIRTY` and the disk behind `ops`) and the flag
    `FAT_INFO_DIRTY`. -/
structure Fs (σ : Type) where
  fat : FatFs
  win : Window σ Sect
  infoDirty : Bool

namespace Fs
variable {σ : Type} (ops : Device σ Sect)

/-- The sectors of the volume, as the library sees them. -/
def view (s : Fs σ) : Nat → Sect := s.win.view ops

/-- The sectors on the disk. -/
def disk (s : Fs σ) : Nat → Sect := ops.content s.win.disk

/-- `fat->buf` holds sector `fat->sect`. -/
def Coherent (s : Fs σ) : Prop := s.win.Coherent ops

/-- `sync_buf(fat)`. -/
def syncBuf : Program (Fs σ) Unit := fun s =>
  match s.win.sync ops with
  | (true, win) => .ok () { s with win }
  | (false, win) => .error (.code errIo) { s with win }

/-- `update_buf(fat, sect)`. -/
def updateBuf (sect : Nat) : Program (Fs σ) Unit := fun s =>
  match s.win.load ops sect with
  | (true, win) => .ok () { s with win }
  | (false, win) => .error (.code errIo) { s with win }

/-- The buffer changed in memory, with `FAT_BUF_DIRTY`. -/
def edit (f : Sect → Sect) (s : Fs σ) : Fs σ := { s with win := s.win.put (f s.win.buf) }

/-- `FsInfo` in a sector, with the counters of the volume. -/
def putInfo (fat : FatFs) (b : Sect) : Sect :=
  (b.store32 492 (BitVec.ofNat 32 fat.lastUsed)).store32 488 (BitVec.ofNat 32 fat.freeCnt)

/-- `sync_fs(fat)`. -/
def syncFs : Program (Fs σ) Unit := do
  syncBuf ops
  let s ← get
  if s.infoDirty then
    updateBuf ops s.fat.infoSect
    modify fun s => s.edit (putInfo s.fat)
    syncBuf ops
    modify fun s => { s with infoDirty := false }

/-! ## Writes through the buffer -/

/-- The step from `s` to `t` writes the sectors `ws`. -/
structure Writes (s : Fs σ) (ws : List (Nat × Sect)) (t : Fs σ) : Prop where
  follows : s.win.Follows ops ws t.win
  coherent : s.Coherent ops → t.Coherent ops

/-- The step moves the buffer, and writes nothing. -/
structure Moves (s t : Fs σ) : Prop extends Writes ops s [] t where
  fat : t.fat = s.fat
  infoDirty : t.infoDirty = s.infoDirty

variable {ops} {s t u : Fs σ} {ws vs : List (Nat × Sect)} {E : Stop → Fs σ → Prop}

lemma Writes.refl (s : Fs σ) : Writes ops s [] s := ⟨.refl _, id⟩

lemma Writes.trans (first : Writes ops s ws t) (second : Writes ops t vs u) :
    Writes ops s (ws ++ vs) u :=
  ⟨first.follows.trans second.follows, second.coherent ∘ first.coherent⟩

/-- The library sees the writes. -/
lemma Writes.view_eq (w : Writes ops s ws t) : t.view ops = applyWrites ws (s.view ops) :=
  w.follows.view_eq

lemma Moves.refl (s : Fs σ) : Moves ops s s := ⟨.refl s, rfl, rfl⟩

lemma Moves.trans (first : Moves ops s t) (second : Moves ops t u) : Moves ops s u :=
  ⟨first.toWrites.trans second.toWrites, second.fat.trans first.fat,
    second.infoDirty.trans first.infoDirty⟩

/-- A move changes no sector. -/
lemma Moves.view_eq (m : Moves ops s t) : t.view ops = s.view ops := m.toWrites.view_eq

/-- `sync_buf` writes the buffer back, or fails and leaves it. -/
lemma syncBuf_spec (s : Fs σ) : wp (syncBuf ops)
    (fun _ t => Moves ops s t ∧ t.win.dirty = false) (fun e t => e = .code errIo ∧ Moves ops s t)
    s := by
  have moves : Moves ops s { s with win := (s.win.sync ops).2 } :=
    ⟨⟨Window.sync_follows ops _, Window.sync_coherent⟩, rfl, rfl⟩
  have clean : (s.win.sync ops).1 = true → (s.win.sync ops).2.dirty = false := Window.sync_true
  unfold wp syncBuf
  cases e : s.win.sync ops with
  | mk ok win =>
    rw [e] at moves clean
    cases ok with
    | true => exact ⟨moves, clean rfl⟩
    | false => exact ⟨rfl, moves⟩

/-- `update_buf` moves the buffer to its sector, or fails. -/
lemma updateBuf_spec (n : Nat) (s : Fs σ) : wp (updateBuf ops n)
    (fun _ t => Moves ops s t ∧ t.win.sect = n) (fun e t => e = .code errIo ∧ Moves ops s t) s := by
  have moves : Moves ops s { s with win := (s.win.load ops n).2 } :=
    ⟨⟨Window.load_follows ops n _, Window.load_coherent n⟩, rfl, rfl⟩
  have sect : (s.win.load ops n).1 = true → (s.win.load ops n).2.sect = n := Window.load_sect
  unfold wp updateBuf
  cases e : s.win.load ops n with
  | mk ok win =>
    rw [e] at moves sect
    cases ok with
    | true => exact ⟨moves, sect rfl⟩
    | false => exact ⟨rfl, moves⟩

/-- The buffer at a sector shows the sector. -/
lemma buf_eq (co : s.Coherent ops) {n : Nat} (at_ : s.win.sect = n) (pos : n ≠ 0) :
    s.win.buf = s.view ops n := by
  subst at_
  exact co pos

/-- A change of the buffer is a write of its sector. -/
lemma edit_writes (ops : Device σ Sect) (f : Sect → Sect) (s : Fs σ) :
    Writes ops s [(s.win.sect, f s.win.buf)] (s.edit f) :=
  ⟨Window.put_follows _ _, fun _ => .of_dirty rfl⟩

/-- What `sync_fs` writes. -/
def infoWrite (ops : Device σ Sect) (s : Fs σ) : Nat × Sect :=
  (s.fat.infoSect, putInfo s.fat (s.view ops s.fat.infoSect))

/-- `sync_fs` leaves nothing unwritten when it succeeds. -/
lemma syncFs_spec (co : s.Coherent ops) (pos : s.fat.infoSect ≠ 0) : wp (syncFs ops)
    (fun _ t => Writes ops s (if s.infoDirty then [s.infoWrite ops] else []) t ∧ t.fat = s.fat ∧
      t.win.dirty = false ∧ t.infoDirty = false)
    (fun e t => e = .code errIo ∧ ∃ ws, (ws = [] ∨ ws = [s.infoWrite ops]) ∧ Writes ops s ws t ∧
      t.fat = s.fat) s := by
  unfold syncFs
  refine wp_seq (syncBuf_spec s) ?_ fun e t h => ⟨h.1, [], .inl rfl, h.2.toWrites, h.2.fat⟩
  rintro _ t ⟨first, clean⟩
  rw [wp_bind, wp_get]
  cases dirty : s.infoDirty with
  | false =>
    rw [if_neg (by rw [first.infoDirty, dirty]; decide), wp_pure, if_neg (by decide)]
    exact ⟨first.toWrites, first.fat, clean, first.infoDirty.trans dirty⟩
  | true =>
    rw [if_pos (by rw [first.infoDirty, dirty]), if_pos rfl]
    refine wp_seq (updateBuf_spec _ t) ?_ fun e u h =>
      ⟨h.1, [], .inl rfl, (first.trans h.2).toWrites, (first.trans h.2).fat⟩
    rintro _ u ⟨second, at_⟩
    have moved := first.trans second
    have wrote : Writes ops s [s.infoWrite ops] (u.edit (putInfo u.fat)) := by
      have w := moved.toWrites.trans (edit_writes ops (putInfo u.fat) u)
      rw [buf_eq (moved.coherent co) rfl (by rw [at_, first.fat]; exact pos), at_, moved.fat,
        first.fat, moved.view_eq] at w
      rw [moved.fat]
      exact w
    rw [wp_bind, wp_modify]
    have fat : (u.edit (putInfo u.fat)).fat = s.fat := moved.fat
    refine wp_seq (syncBuf_spec _) ?_ fun e v h =>
      ⟨h.1, _, .inr rfl, wrote.trans h.2.toWrites, h.2.fat.trans fat⟩
    rintro _ v ⟨third, clean'⟩
    have all := wrote.trans third.toWrites
    rw [wp_modify]
    exact ⟨⟨all.follows, all.coherent⟩, third.fat.trans fat, clean', rfl⟩

/-! ## Any sequence of changes -/

/-- What a function of the library does to the buffer: it changes a sector, or writes back. -/
inductive BufCall where
  | change (sect : Nat) (f : Sect → Sect)
  | sync

/-- The function on it. -/
def call (ops : Device σ Sect) : BufCall → Program (Fs σ) Unit
  | .change sect f => do
    updateBuf ops sect
    modify (edit f)
  | .sync => syncFs ops

/-- A call, and whether it succeeds. -/
def callStep (ops : Device σ Sect) (s : Fs σ) (c : BufCall) : Bool × Fs σ :=
  match call ops c s with
  | .ok _ t => (true, t)
  | .error _ t => (false, t)

/-- The changes among the calls that have succeeded. -/
def performed : List BufCall → List Bool → List (Nat × (Sect → Sect))
  | .change sect f :: cs, true :: oks => (sect, f) :: performed cs oks
  | _ :: cs, _ :: oks => performed cs oks
  | _, _ => []

/-- The sectors after a list of changes. -/
def applyChanges (cs : List (Nat × (Sect → Sect))) (d : Nat → Sect) : Nat → Sect :=
  cs.foldl (fun d c => Function.update d c.1 (c.2 (d c.1))) d

/-- The writes that changes amount to. -/
def changeWrites : List (Nat × (Sect → Sect)) → (Nat → Sect) → List (Nat × Sect)
  | [], _ => []
  | c :: cs, d => (c.1, c.2 (d c.1)) :: changeWrites cs (Function.update d c.1 (c.2 (d c.1)))

/-- The writes of changes make the changes. -/
lemma applyWrites_changeWrites (cs : List (Nat × (Sect → Sect))) (d : Nat → Sect) :
    applyWrites (changeWrites cs d) d = applyChanges cs d := by
  induction cs generalizing d with
  | nil => rfl
  | cons c cs ih => exact ih _

/-- The first writes are those of the first changes. -/
lemma changeWrites_prefix {cs : List (Nat × (Sect → Sect))} {d : Nat → Sect}
    {old new : List (Nat × Sect)} (e : changeWrites cs d = old ++ new) :
    old = changeWrites (cs.take old.length) d := by
  induction cs generalizing d old with
  | nil =>
    obtain ⟨rfl, _⟩ := List.append_eq_nil_iff.mp e.symm
    rfl
  | cons c cs ih =>
    cases old with
    | nil => rfl
    | cons w old =>
      obtain ⟨rfl, rest⟩ := List.cons_eq_cons.mp e
      rw [List.length_cons, List.take_succ_cons, changeWrites, ← ih rest]

/-- What one call does. -/
lemma callStep_spec {c : BufCall} (co : s.Coherent ops) (info : s.infoDirty = false)
    (pos : ∀ sect f, c = .change sect f → sect ≠ 0) (infoPos : s.fat.infoSect ≠ 0) :
    Writes ops s (changeWrites (performed [c] [(callStep ops s c).1]) (s.view ops))
        (callStep ops s c).2 ∧
      (callStep ops s c).2.fat = s.fat ∧ (callStep ops s c).2.infoDirty = false ∧
      (c = .sync → (callStep ops s c).1 = true → (callStep ops s c).2.win.dirty = false) := by
  cases c with
  | change sect f =>
    have spec : wp (call ops (.change sect f))
        (fun _ t => Writes ops s [(sect, f (s.view ops sect))] t ∧ t.fat = s.fat ∧
          t.infoDirty = false)
        (fun _ t => Writes ops s [] t ∧ t.fat = s.fat ∧ t.infoDirty = false) s := by
      refine wp_seq (updateBuf_spec sect s) ?_ fun e t h =>
        ⟨h.2.toWrites, h.2.fat, h.2.infoDirty.trans info⟩
      rintro _ t ⟨moves, at_⟩
      have w := moves.toWrites.trans (edit_writes ops f t)
      rw [buf_eq (moves.coherent co) at_ (pos sect f rfl), at_, moves.view_eq] at w
      rw [wp_modify]
      exact ⟨w, moves.fat, moves.infoDirty.trans info⟩
    unfold callStep
    cases e : call ops (.change sect f) s with
    | ok a t =>
      obtain ⟨w, fat, clean⟩ := wp_ok spec e
      exact ⟨w, fat, clean, nofun⟩
    | error stop t =>
      obtain ⟨w, fat, clean⟩ := wp_error spec e
      exact ⟨w, fat, clean, nofun⟩
  | sync =>
    have spec := syncFs_spec co infoPos
    rw [info] at spec
    unfold callStep
    cases e : call ops .sync s with
    | ok a t =>
      obtain ⟨w, fat, clean, info'⟩ := wp_ok spec e
      exact ⟨w, fat, info', fun _ _ => clean⟩
    | error stop t =>
      -- without `FAT_INFO_DIRTY` it is `sync_buf` alone
      have quiet : wp (syncFs ops) (fun _ _ => True) (fun _ t => Moves ops s t) s := by
        unfold syncFs
        refine wp_seq (syncBuf_spec s) ?_ fun e t h => h.2
        rintro _ t ⟨moves, _⟩
        rw [wp_bind, wp_get]
        rw [if_neg (by rw [moves.infoDirty, info]; decide)]
        trivial
      have moves := wp_error quiet e
      exact ⟨moves.toWrites, moves.fat, moves.infoDirty.trans info, nofun⟩

/-- The changes that have succeeded, call by call. -/
lemma performed_append (c : BufCall) (cs : List BufCall) (ok : Bool) (oks : List Bool) :
    performed (c :: cs) (ok :: oks) = performed [c] [ok] ++ performed cs oks := by
  cases c with
  | change sect f => cases ok <;> rfl
  | sync => cases ok <;> rfl

/-- The writes of changes in a row. -/
lemma changeWrites_append (cs ds : List (Nat × (Sect → Sect))) (d : Nat → Sect) :
    changeWrites (cs ++ ds) d = changeWrites cs d ++ changeWrites ds (applyChanges cs d) := by
  induction cs generalizing d with
  | nil => rfl
  | cons c cs ih =>
    rw [List.cons_append, changeWrites, ih]
    rfl

/-- A run of calls makes the writes of the changes that have succeeded, in their order. -/
lemma run_writes (calls : List BufCall) (co : s.Coherent ops) (info : s.infoDirty = false)
    (pos : ∀ sect f, .change sect f ∈ calls → sect ≠ 0) (infoPos : s.fat.infoSect ≠ 0) :
    let r := run (callStep ops) s calls
    Writes ops s (changeWrites (performed calls r.1) (s.view ops)) r.2 ∧ r.2.fat = s.fat ∧
      r.2.infoDirty = false := by
  induction calls generalizing s with
  | nil => exact ⟨.refl s, rfl, info⟩
  | cons c cs ih =>
    obtain ⟨here, fat, info', _⟩ := callStep_spec (c := c) co info
      (fun sect f e => pos sect f (e ▸ .head cs)) infoPos
    obtain ⟨rest, fat', info''⟩ := ih (here.coherent co) info'
      (fun sect f mem => pos sect f (.tail c mem)) (fat.symm ▸ infoPos)
    rw [here.view_eq, applyWrites_changeWrites] at rest
    rw [run_cons]
    refine ⟨?_, fat'.trans fat, info''⟩
    rw [performed_append, changeWrites_append]
    exact here.trans rest

/-- From a clean buffer on, with no `FsInfo` to be written and no change of sector 0, and whatever
    transfers fail: the library sees the sectors of the disk with every change that has succeeded,
    in its order; the disk itself has all of these but some of the last ones, and all of them after
    a call of `sync_fs` that succeeds. -/
theorem buffer_keeps_changes {calls : List BufCall} (co : s.Coherent ops)
    (clean : s.win.dirty = false) (info : s.infoDirty = false)
    (pos : ∀ sect f, .change sect f ∈ calls → sect ≠ 0) (infoPos : s.fat.infoSect ≠ 0) :
    let r := run (callStep ops) s calls
    let done := performed calls r.1
    r.2.view ops = applyChanges done (s.disk ops) ∧
      (∃ k, r.2.disk ops = applyChanges (done.take k) (s.disk ops)) ∧
      ((callStep ops r.2 .sync).1 = true →
        (callStep ops r.2 .sync).2.disk ops = applyChanges done (s.disk ops)) := by
  intro r done
  obtain ⟨w, fat, info'⟩ := run_writes calls co info pos infoPos
  have start : s.view ops = s.disk ops := Window.view_of_clean clean
  rw [start] at w
  have view : r.2.view ops = applyChanges done (s.disk ops) := by
    rw [w.view_eq, start, applyWrites_changeWrites]
  refine ⟨view, ?_, fun ok => ?_⟩
  · obtain ⟨old, new, split, disk⟩ := w.follows.disk_eq clean
    refine ⟨old.length, ?_⟩
    rw [← applyWrites_changeWrites, ← changeWrites_prefix split]
    exact disk
  · obtain ⟨last, _, _, synced⟩ := callStep_spec (c := .sync) (w.coherent co) info' nofun
      (fat.symm ▸ infoPos)
    have all : (callStep ops r.2 .sync).2.view ops = r.2.view ops := by
      rw [last.view_eq]
      cases (callStep ops r.2 .sync).1 <;> rfl
    rw [← view, ← all]
    exact (Window.view_of_clean (synced rfl ok)).symm

/-- A volume of 128 clusters of one sector, of which the first ones are taken. -/
def smallFat : FatFs where
  clustMsk := 0
  clustCnt := 128
  infoSect := 1
  fatSect0 := 2
  fatSect1 := 3
  dataSect := 4
  rootClust := 2
  lastUsed := 2
  freeCnt := 125
  clustShift := 0
  name := []

/-- A sector of its tables. -/
def smallTable : Sect :=
  (((Block.of fun _ => 0#8).store32 0 0x0FFFFFF8#32).store32 4 0x0FFFFFFF#32).store32 8
    0x0FFFFFFF#32

/-- Its disk. -/
def smallDisk (n : Nat) : Sect := if n = 2 ∨ n = 3 then smallTable else .of fun _ => 0#8

/-- The volume after mounting. -/
def smallFs (disk : σ) : Fs σ := ⟨smallFat, ⟨0, .of fun _ => 0#8, false, disk⟩, false⟩

/-- The buffer of a fresh mount holds no sector. -/
lemma smallFs_coherent (ops : Device σ Sect) (disk : σ) : (smallFs disk).Coherent ops :=
  fun ne => absurd rfl ne

/-- A change, and a second one whose write-back fails. -/
theorem buffer_keeps_changes_small :
    let ops := Device.scripted Sect
    let s := smallFs ([true, false], smallDisk)
    let r := run (callStep ops) s
      [.change 4 fun b => b.store32 0 1#32, .change 5 fun b => b.store32 0 2#32]
    let done := performed [.change 4 fun b => b.store32 0 1#32, .change 5 fun b => b.store32 0 2#32]
      r.1
    r.2.view ops = applyChanges done (s.disk ops) ∧
      (∃ k, r.2.disk ops = applyChanges (done.take k) (s.disk ops)) ∧
      ((callStep ops r.2 .sync).1 = true →
        (callStep ops r.2 .sync).2.disk ops = applyChanges done (s.disk ops)) := by
  refine buffer_keeps_changes (smallFs_coherent _ _) rfl rfl ?_ (by decide)
  intro sect f mem
  simp only [List.mem_cons, BufCall.change.injEq, List.not_mem_nil, or_false] at mem
  omega

end Fs

end TRS.Fat
