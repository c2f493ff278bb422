import TRS.Disk.Gpt
import TRS.Disk.Store

/-!
# The disk that a lookup reads

A lookup sees an `Image`; the sectors that a conforming drive holds are one (`ataBus_answers`). An
address of 2^64 - 1 passes the check of `read_disk`, since the sum with the count wraps around; a
drive of fewer than 2^28 sectors refuses the sector 2^28 - 1 that it is sent.

* `readSector_perform`: a read of the lookup is a request to the driver.
* `Store.image_eq_none`, `Store.image_of_valid`: which sectors can be read.
* `readDisk_refused`: the drive refuses the address that its 28 bits cannot hold.

The proofs go by cases on what the check of `read_disk` and the drive say of the address.
-/

namespace TRS.Disk
open TRS.Lib

/-- The contents of the sectors of a disk, as bytes; nothing where a read fails. -/
abbrev Image := Nat → Option (List Byte)

/-- Every read of the disk answers with its sector of the image, or fails where there is none, and
    the devices keep `I` meanwhile. -/
structure Answers {σ : Type} (bus : Bus σ) (polls : Nat) (disks : List DiskT) (id : Nat)
    (img : Image) (I : σ → Prop) : Prop where
  size : ∀ lba sec, img lba = some sec → sec.length = 512
  read : ∀ lba s, lba < 2 ^ 64 → I s → ∃ s', readSector bus polls disks id lba s = (img lba, s') ∧
    (img lba ≠ none → I s')

/-! ## Drives -/

/-- A word has two bytes. -/
lemma wordBytes_length (ws : List Word) : (wordBytes ws).length = 2 * ws.length := by
  induction ws with
  | nil => rfl
  | cons w ws ih =>
    rw [List.length_cons, wordBytes, List.flatMap_cons, List.length_append, ← wordBytes, ih]
    simp only [List.length_cons, List.length_nil]
    omega

/-- The sectors of a disk of the table, as bytes. -/
def Store.image (st : Store) (disks : List DiskT) (id : Nat) : Image := fun lba =>
  match disks[id]? with
  | none => none
  | some disk => if lba < disk.sectors then some (wordBytes (st id lba).words) else none

/-- The channel with a command that its drive refused. -/
def Channel.refused (c : Channel) (disk : DiskT) (lba count : Nat) : Channel :=
  { c.programmed disk lba count with failed := true }

/-- A drive refuses a READ command for sectors that it has not. -/
lemma Channel.command_refused {c : Channel} {disk : DiskT} {d : Drive} {ch dr : Nat}
    (at_ : disk.At ch dr) (ld : dr < 2) (e : c.drives dr = some d) {lba count : Nat}
    (out : ¬ (c.programmed disk lba count).InRange d) :
    ({ c with regs := .programmed disk.drive lba count } : Channel).command ataCmdReadPio =
      c.refused disk lba count := by
  have sel : ({ c with regs := .programmed disk.drive lba count } : Channel).selected = some d :=
    programmed_selected at_ ld e lba count
  unfold command
  rw [sel]
  dsimp only
  rw [if_neg (by decide)]
  refine (if_neg fun h => out h.2).trans ((if_neg fun h => ?_).trans (if_neg (by decide)))
  exact absurd h.1 (by decide)

/-- The status of a channel whose command has failed. -/
lemma Channel.status_failed {c : Channel} (p : c.selected.isSome) (b : c.busy = 0)
    (f : c.failed = true) : c.status = 0x40#8 ||| ataSrErr := by
  unfold status
  obtain ⟨d, e⟩ := Option.isSome_iff_exists.mp p
  rw [e]
  dsimp only
  rw [if_neg (by omega), f, if_pos rfl]

/-- The loop of `read_disk` stops at a refused command. -/
lemma readSectors_failed {ch : Nat} (lt : ch < 2) (m : Machine) {polls : Nat} (pos : 0 < polls)
    {c : Channel} (p : c.selected.isSome) (b : c.busy = 0) (f : c.failed = true) (n : Nat) :
    readSectors ataBus polls (ioBases ch) (ctrlBases ch) (n + 1) (m.set ch c) =
      (-1, [], m.set ch c) := by
  have status := Channel.status_failed p b f
  have bsy := waitBsy_quiet lt m pos (by rw [status]; decide) b
  have drq : waitDrq ataBus (ioBases ch) polls (m.set ch c) = (-1, m.set ch c) := by
    obtain ⟨k, rfl⟩ : ∃ k, polls = k + 1 := ⟨polls - 1, by omega⟩
    rw [waitDrq, inb_status lt, Channel.poll_of_zero b, status]
    exact if_pos (by decide)
  unfold readSectors
  simp only [ataWaitBsy, bsy, ne_eq, not_true_eq_false, if_false, ataWaitDrq, drq]
  rfl

/-- `read_disk` of sectors that the drive has not fails. -/
lemma readDisk_refused {disks : List DiskT} {a : Args} {disk : DiskT} {ch dr : Nat} {d : Drive}
    {polls : Nat} {m : Machine} (lt : ch < 2) (ld : dr < 2) (check : a.check disks = some disk)
    (place : disk.At ch dr) (rest : (m ch).Rest polls) (e : (m ch).drives dr = some d)
    (out : ¬ ((m ch).programmed disk a.lba a.count).InRange d) :
    ∃ m', readDisk ataBus polls disks a m = (-1, [], m') := by
  have pos : 0 < polls := Nat.zero_lt_of_lt (rest.bounded 0)
  obtain ⟨n, count⟩ : ∃ n, a.count = n + 1 := by
    have := (Args.check_eq_some.mp check).2.pos
    exact ⟨a.count - 1, by omega⟩
  have sel : ((m ch).refused disk a.lba a.count).selected = some d :=
    Channel.programmed_selected place ld e a.lba a.count
  have wait := waitBsy_quiet lt m pos (rest.quiet ⟨dr, ld, by rw [e]; rfl⟩) rest.ready
  have start := startCommand_channel lt m place.io place.ctrl rest.ready a.lba a.count ataCmdReadPio
  rw [Channel.command_refused place ld e out] at start
  rw [Machine.set_self] at wait start
  have fails := readSectors_failed lt m pos (by rw [sel]; rfl) rest.ready rfl n
    (c := (m ch).refused disk a.lba a.count)
  rw [← count] at fails
  refine ⟨m.set ch ((m ch).refused disk a.lba a.count), ?_⟩
  unfold readDisk
  simp only [check, place.io, place.ctrl, ataWaitBsy, wait, ne_eq, not_true_eq_false, if_false,
    start, fails]

/-- One sector is read by a request for that sector. -/
lemma readSector_perform {σ : Type} (bus : Bus σ) (polls : Nat) (disks : List DiskT) (id lba : Nat)
    (s : σ) :
    readSector bus polls disks id lba s =
      let r := (Request.read ⟨id, lba, 1, 1⟩).perform bus polls disks s
      (if r.1.1 ≠ 0 then none else some (wordBytes r.1.2), r.2) := rfl

/-- The sum of the address 2^64 - 1 and the count wraps around to 0. -/
lemma u64_wrap {lba : Nat} (lt : lba < 2 ^ 64) (ge : ¬ lba + 1 < 2 ^ 64) : u64 (lba + 1) = 0 := by
  rw [show lba + 1 = 2 ^ 64 by omega]
  rfl

/-- Where the image has no sector, the arguments of a read are not valid. -/
lemma Store.image_eq_none {st : Store} {disks : List DiskT} {id lba : Nat}
    (nv : ¬ Args.Valid ⟨id, lba, 1, 1⟩ disks) : st.image disks id lba = none := by
  unfold image
  cases e : disks[id]? with
  | none => rfl
  | some disk =>
    have le : 1 ≤ 255 := by decide
    exact if_neg fun lt => nv ⟨disk, e, Nat.one_ne_zero, Nat.one_pos, le, lt⟩

/-- A valid read stores its sector of the image. -/
lemma Store.image_of_valid {st : Store} {disks : List DiskT} {id lba : Nat}
    (v : Args.Valid ⟨id, lba, 1, 1⟩ disks) :
    st.image disks id lba = some (wordBytes (st.read ⟨id, lba, 1, 1⟩)) := by
  obtain ⟨disk, e, _, _, _, fits⟩ := v
  unfold image
  rw [Option.mem_def.mp e]
  refine (if_pos fits).trans ?_
  simp [Store.read]

/-- A lookup on a drive that holds the sectors of a store reads them. -/
theorem ataBus_answers {polls : Nat} {disks : List DiskT} (ok : TableOk disks) (st : Store)
    (id : Nat) (small : ∀ disk, disks[id]? = some disk → disk.sectors < 2 ^ 28) :
    Answers ataBus polls disks id (st.image disks id) fun m => Refines polls disks m st where
  size := by
    intro lba sec e
    unfold Store.image at e
    split at e
    · cases e
    · split at e
      · cases e
        rw [wordBytes_length, (st id lba).length]
      · cases e
  read := by
    intro lba m lt ref
    by_cases v : Args.Valid ⟨id, lba, 1, 1⟩ disks
    · have sum : lba + 1 < 2 ^ 64 := by
        obtain ⟨disk, e, _, _, _, fits⟩ := v
        have fits : lba + 1 ≤ disk.sectors := fits
        have := small disk e
        omega
      obtain ⟨m', run, ref'⟩ := read_refines ok ref v sum
      exact ⟨m', by rw [readSector_perform, run, Store.image_of_valid v]; rfl, fun _ => ref'⟩
    rw [Store.image_eq_none v]
    -- an invalid sector: the driver refuses it, or its range check wraps and the drive does
    by_cases sum : lba + 1 < 2 ^ 64
    · have run := perform_of_not_valid polls m (r := .read ⟨id, lba, 1, 1⟩) sum v
      exact ⟨m, by rw [readSector_perform, run]; rfl, fun h => absurd rfl h⟩
    cases e : disks[id]? with
    | none =>
      have check : Args.check ⟨id, lba, 1, 1⟩ disks = none := by
        unfold Args.check
        rw [e]
      refine ⟨m, ?_, fun h => absurd rfl h⟩
      unfold readSector readDisk
      rw [check]
      rfl
    | some disk =>
      have lt28 := small disk e
      obtain ⟨ch, lt2, dr, ld, place, d, ed, cap, _⟩ := ref.holds id disk e
      have check : Args.check ⟨id, lba, 1, 1⟩ disks = some disk :=
        Args.check_eq_some.mpr ⟨e, Nat.one_ne_zero, Nat.one_pos, (by decide : 1 ≤ 255),
          by rw [u64_wrap lt sum]; exact Nat.zero_le _⟩
      have out : ¬ ((m ch).programmed disk lba 1).InRange d := by
        rintro ⟨_, range⟩
        have l28 : ((m ch).programmed disk lba 1).regs.lba28 = lba % 2 ^ 28 :=
          TaskFile.programmed_lba28 ..
        have one : ((m ch).programmed disk lba 1).blockCount = 1 := by
          unfold Channel.blockCount
          rfl
        omega
      obtain ⟨m', run⟩ := readDisk_refused lt2 ld check place (ref.rest ch lt2) ed out
      exact ⟨m', by unfold readSector; rw [run]; rfl, fun h => absurd rfl h⟩

/-! ## A machine with one drive -/

/-- A machine with one drive, drive 0 of channel 0, that is never busy. -/
def driveMachine (d : Drive) : Machine := fun ch =>
  { oneDrive ch with drives := fun dr => if ch = 0 ∧ dr = 0 then some d else none }

/-- Its disk table, for a drive of that many sectors. -/
def driveTable (sectors : Nat) : List DiskT := [⟨sectors, 0x1F0, 0x3F6, 0#8, 1⟩]

/-- The table has one entry, for the first drive. -/
lemma driveTable_entry {sectors id : Nat} {disk : DiskT}
    (e : (driveTable sectors)[id]? = some disk) :
    id = 0 ∧ disk = ⟨sectors, 0x1F0, 0x3F6, 0#8, 1⟩ := by
  cases id with
  | zero => exact ⟨rfl, (Option.some.inj e).symm⟩
  | succ id => cases e

/-- Its addresses are in reach of 28 bits. -/
lemma driveTable_ok {sectors : Nat} (small : sectors ≤ 2 ^ 28) : TableOk (driveTable sectors) where
  distinct i j a b ea eb ne :=
    absurd ((driveTable_entry ea).1.trans (driveTable_entry eb).1.symm) ne
  small id disk e := by
    rw [(driveTable_entry e).2]
    exact small

/-- The machine with the one drive holds what is on the drive. -/
lemma driveMachine_refines (d : Drive) :
    Refines pollLimit (driveTable d.capacity) (driveMachine d) fun _ => d.data where
  rest ch lt := by
    refine ⟨rfl, rfl, fun _ => (by decide : 0 < pollLimit), ?_⟩
    rintro ⟨dr, _, some_⟩
    cases ch with
    | zero =>
      have first : (⟨0#8, 0#8, 0#8, 0#8, 0#8⟩ : TaskFile).sel = 0 := by decide
      have sel : (driveMachine d 0).selected = some d := if_pos ⟨rfl, first⟩
      exact Channel.status_ready (by rw [sel]; rfl) rfl
    | succ ch => simp [driveMachine] at some_
  holds id disk e := by
    obtain ⟨_, rfl⟩ := driveTable_entry e
    exact ⟨0, by decide, 0, by decide, ⟨rfl, rfl, rfl⟩, d, rfl, rfl, rfl⟩

/-- Its sectors are read as the store has them. -/
lemma driveTable_answers {sectors : Nat} (small : sectors < 2 ^ 28) (st : Store) :
    Answers ataBus pollLimit (driveTable sectors) 0 (st.image (driveTable sectors) 0) fun m =>
      Refines pollLimit (driveTable sectors) m st :=
  ataBus_answers (driveTable_ok (Nat.le_of_lt small)) st 0 fun disk e => by
    rw [(driveTable_entry e).2]
    exact small

end TRS.Disk
