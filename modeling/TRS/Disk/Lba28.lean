import Mathlib.Tactic.ByContra
import TRS.Disk.TaskFile

/-!
# The address width

`read_disk` and `write_disk` split an LBA into 28 bits, and `ata_identify` clamps the number of
sectors to `ATA_LBA28_MAX`, which as the source writes it is 2^32 - 1. The task file of every
accepted request decodes to its LBA exactly if the drive reports at most 2^28 sectors.

* `readDisk_record`, `writeDisk_record`: the bytes that a function stores to the ports.
* `commands_startStores`: the command that such stores give, with its task file.
* `Request.commands_eq`: the command of a request that stores anything, and at most a flush.
* `lbaExact_iff_sectors`: its task files are exact exactly if the disk has at most 2^28 sectors.

The headline `lba_exact_iff` adds what `ata_identify` reports; `large_disk_aliases` is a disk of
2^29 sectors.
-/

namespace TRS.Disk
open TRS.Lib

/-- The commands that a list of port stores starts on the channel at `io`, each with the task file
    that the stores before it leave; `r` is the task file before all of them. -/
def commands (io : Nat) : TaskFile → List (Nat × Byte) → List (Byte × TaskFile)
  | _, [] => []
  | r, (port, v) :: ss =>
    if port = io + ataRegCommand then (v, r) :: commands io r ss
    else if io ≤ port then commands io (r.store (port - io) v) ss
    else commands io r ss

/-! ## What the driver stores -/

section Record
variable {σ : Type*} (bus : Bus σ) (polls : Nat)

/-- The delay stores nothing. -/
lemma delay_record (ctrl : Nat) (s : σ × List (Nat × Byte)) :
    (ataDelay400 bus.recorded ctrl s).2 = s.2 := rfl

/-- Waiting stores nothing, and ends as it does without the record. -/
lemma waitBsy_record (io n : Nat) (s : σ × List (Nat × Byte)) :
    (waitBsy bus.recorded io n s).1 = (waitBsy bus io n s.1).1 ∧
    (waitBsy bus.recorded io n s).2.2 = s.2 := by
  induction n generalizing s with
  | zero => exact ⟨rfl, rfl⟩
  | succ n ih =>
    rw [waitBsy, waitBsy]
    by_cases done : (bus.inb (io + ataRegStatus) s.1).1 &&& ataSrBsy = 0#8
    · simp only [Bus.recorded, done, if_true, and_self]
    · simp only [Bus.recorded, done, if_false]
      exact ih _

/-- Nor does the wait for `BSY`, which answers the same. -/
lemma ataWaitBsy_record (io : Nat) (s : σ × List (Nat × Byte)) :
    (ataWaitBsy bus.recorded polls io s).1 = (ataWaitBsy bus polls io s.1).1 ∧
    (ataWaitBsy bus.recorded polls io s).2.2 = s.2 := by
  unfold ataWaitBsy
  exact waitBsy_record bus io polls s

/-- Nor does a wait for `DRQ`. -/
lemma waitDrq_record (io n : Nat) (s : σ × List (Nat × Byte)) :
    (waitDrq bus.recorded io n s).2.2 = s.2 := by
  induction n generalizing s with
  | zero => rfl
  | succ n ih =>
    rw [waitDrq]
    dsimp only
    split
    · rfl
    · split
      · rfl
      · exact ih _

/-- Nor does `ata_wait_drq`. -/
lemma ataWaitDrq_record (io : Nat) (s : σ × List (Nat × Byte)) :
    (ataWaitDrq bus.recorded polls io s).2.2 = s.2 := by
  unfold ataWaitDrq
  exact waitDrq_record bus io polls s

/-- Nor does the loop of `read_disk`. -/
lemma readSectors_record (io ctrl n : Nat) (s : σ × List (Nat × Byte)) :
    (readSectors bus.recorded polls io ctrl n s).2.2.2 = s.2 := by
  induction n generalizing s with
  | zero => rfl
  | succ n ih =>
    unfold readSectors
    dsimp only
    have h1 := (ataWaitBsy_record bus polls io s).2
    split
    · exact h1
    · have h2 := ataWaitDrq_record bus polls io (ataWaitBsy bus.recorded polls io s).2
      split
      · exact h2.trans h1
      · rw [ih, delay_record, Bus.inWords_record]
        exact h2.trans h1

/-- Nor does the loop of `write_disk`, which stores words only. -/
lemma writeSectors_record (io ctrl : Nat) (data : Nat → Word) (n p : Nat)
    (s : σ × List (Nat × Byte)) :
    (writeSectors bus.recorded polls io ctrl data n p s).2.2 = s.2 := by
  induction n generalizing p s with
  | zero => rfl
  | succ n ih =>
    rw [writeSectors]
    dsimp only
    have h1 := (ataWaitBsy_record bus polls io s).2
    split
    · exact h1
    · have h2 := ataWaitDrq_record bus polls io (ataWaitBsy bus.recorded polls io s).2
      split
      · exact h2.trans h1
      · rw [ih, delay_record, Bus.outWords_record]
        exact h2.trans h1

/-- The stores of `startCommand`. -/
def startStores (disk : DiskT) (lba count : Nat) (cmd : Byte) : List (Nat × Byte) :=
  let r := TaskFile.programmed disk.drive lba count
  [(disk.ioBase + ataRegDrive, r.drive), (disk.ioBase + ataRegFeatures, 0#8),
   (disk.ioBase + ataRegSecCount, r.secCount), (disk.ioBase + ataRegLba0, r.lba0),
   (disk.ioBase + ataRegLba1, r.lba1), (disk.ioBase + ataRegLba2, r.lba2),
   (disk.ioBase + ataRegCommand, cmd)]

/-- The stores that start a command are those of its task file and its code. -/
lemma startCommand_record (disk : DiskT) (lba count : Nat) (cmd : Byte)
    (s : σ × List (Nat × Byte)) :
    (startCommand bus.recorded disk lba count cmd s).2 =
      s.2 ++ startStores disk lba count cmd := by
  simp only [startCommand, ataDelay400, Bus.recorded, startStores, TaskFile.programmed,
    List.append_assoc, List.cons_append, List.nil_append]

variable {disks : List DiskT} {a : Args} {disk : DiskT} (check : a.check disks = some disk)
include check

/-- `read_disk` stores its command, unless the channel stays busy. -/
lemma readDisk_record (s : σ × List (Nat × Byte)) :
    (readDisk bus.recorded polls disks a s).2.2.2 =
      if (ataWaitBsy bus polls disk.ioBase s.1).1 ≠ 0 then s.2
      else s.2 ++ startStores disk a.lba a.count ataCmdReadPio := by
  obtain ⟨w1, w2⟩ := ataWaitBsy_record bus polls disk.ioBase s
  simp only [readDisk, check, w1]
  split
  · exact w2
  · rw [readSectors_record, startCommand_record, w2]

/-- `write_disk` stores nothing while the channel stays busy. -/
lemma writeDisk_record_busy (data : Nat → Word) {s : σ × List (Nat × Byte)}
    (busy : (ataWaitBsy bus polls disk.ioBase s.1).1 ≠ 0) :
    (writeDisk bus.recorded polls disks a data s).2.2 = s.2 := by
  obtain ⟨w1, w2⟩ := ataWaitBsy_record bus polls disk.ioBase s
  simp only [writeDisk, check, w1]
  rw [if_pos busy]
  exact w2

/-- `write_disk` stores its command, and a flush if all sectors went through. -/
lemma writeDisk_record (data : Nat → Word) {s : σ × List (Nat × Byte)}
    (free : ¬ (ataWaitBsy bus polls disk.ioBase s.1).1 ≠ 0) :
    ∃ rest, (rest = [] ∨ rest = [(disk.ioBase + ataRegCommand, ataCmdFlush)]) ∧
      (writeDisk bus.recorded polls disks a data s).2.2 =
        s.2 ++ startStores disk a.lba a.count ataCmdWritePio ++ rest := by
  obtain ⟨w1, w2⟩ := ataWaitBsy_record bus polls disk.ioBase s
  simp only [writeDisk, check, w1]
  rw [if_neg free]
  -- the states after the sectors, the second wait and the flush, each with what it recorded
  have hw := writeSectors_record bus polls disk.ioBase disk.ctrlBase data a.count 0
    (startCommand bus.recorded disk a.lba a.count ataCmdWritePio
      (ataWaitBsy bus.recorded polls disk.ioBase s).2)
  rw [startCommand_record, w2] at hw
  generalize writeSectors bus.recorded polls disk.ioBase disk.ctrlBase data a.count 0 _ = w at hw ⊢
  have hx := (ataWaitBsy_record bus polls disk.ioBase w.2).2
  generalize ataWaitBsy bus.recorded polls disk.ioBase w.2 = x at hx ⊢
  have hy := (ataWaitBsy_record bus polls disk.ioBase
    (bus.recorded.outb (disk.ioBase + ataRegCommand) ataCmdFlush x.2)).2
  generalize ataWaitBsy bus.recorded polls disk.ioBase
    (bus.recorded.outb (disk.ioBase + ataRegCommand) ataCmdFlush x.2) = y at hy ⊢
  by_cases cw : w.1 ≠ 0
  · exact ⟨[], .inl rfl, by rw [if_pos cw, List.append_nil]; exact hw⟩
  · rw [if_neg cw]
    by_cases cx : x.1 ≠ 0
    · refine ⟨[], .inl rfl, ?_⟩
      rw [if_pos cx, List.append_nil]
      exact hx.trans hw
    · refine ⟨_, .inr rfl, ?_⟩
      rw [if_neg cx]
      have stored : y.2.2 = s.2 ++ startStores disk a.lba a.count ataCmdWritePio ++
          [(disk.ioBase + ataRegCommand, ataCmdFlush)] := by
        rw [hy, ← hw, ← hx]
        rfl
      by_cases cy : y.1 ≠ 0
      · rw [if_pos cy]
        exact stored
      · rw [if_neg cy]
        exact stored

omit check

/-- The stores of a call. -/
def Request.stores (disks : List DiskT) (s : σ) (r : Request) : List (Nat × Byte) :=
  (r.perform bus.recorded polls disks (s, [])).2.2

/-- A call stores nothing, or starts its command and at most flushes afterwards; it does start it if
    its arguments pass and the channel stops being busy. -/
lemma Request.stores_cases (disks : List DiskT) (s : σ) (r : Request) :
    (r.stores bus polls disks s = [] ∧
      ∀ disk, r.args.check disks = some disk → (ataWaitBsy bus polls disk.ioBase s).1 ≠ 0) ∨
    ∃ disk rest, r.args.check disks = some disk ∧
      r.stores bus polls disks s = startStores disk r.args.lba r.args.count r.cmd ++ rest ∧
      (rest = [] ∨ rest = [(disk.ioBase + ataRegCommand, ataCmdFlush)]) := by
  cases e : r.args.check disks with
  | none =>
    refine .inl ⟨?_, fun disk h => by cases h⟩
    cases r with
    | read a =>
      change a.check disks = none at e
      simp only [Request.stores, Request.perform, readDisk, e]
    | write a data =>
      change a.check disks = none at e
      simp only [Request.stores, Request.perform, writeDisk, e]
  | some disk =>
    by_cases busy : (ataWaitBsy bus polls disk.ioBase s).1 ≠ 0
    · refine .inl ⟨?_, fun d h => by cases h; exact busy⟩
      cases r with
      | read a => exact (readDisk_record bus polls e (s, [])).trans (if_pos busy)
      | write a data => exact writeDisk_record_busy bus polls e data (s := (s, [])) busy
    · cases r with
      | read a =>
        refine .inr ⟨disk, [], rfl, ?_, .inl rfl⟩
        rw [List.append_nil]
        exact (readDisk_record bus polls e (s, [])).trans (if_neg busy)
      | write a data =>
        obtain ⟨rest, flush, stored⟩ := writeDisk_record bus polls e data (s := (s, [])) busy
        exact .inr ⟨disk, rest, rfl, stored, flush⟩

end Record

/-! ## What the stores mean -/

/-- A store to another register changes the task file. -/
lemma commands_store (io : Nat) (r : TaskFile) {reg : Nat} (ne : reg ≠ ataRegCommand) (v : Byte)
    (ss : List (Nat × Byte)) :
    commands io r ((io + reg, v) :: ss) = commands io (r.store reg v) ss := by
  rw [commands, if_neg (by omega), if_pos (by omega), Nat.add_sub_cancel_left]

/-- A store to the command register gives a command with the task file there is. -/
lemma commands_command (io : Nat) (r : TaskFile) (v : Byte) (ss : List (Nat × Byte)) :
    commands io r ((io + ataRegCommand, v) :: ss) = (v, r) :: commands io r ss := by
  rw [commands, if_pos rfl]

/-- The stores of a command start it with the registers of `TaskFile.programmed`. -/
lemma commands_startStores (disk : DiskT) (lba count : Nat) (cmd : Byte) (r : TaskFile)
    (rest : List (Nat × Byte)) :
    commands disk.ioBase r (startStores disk lba count cmd ++ rest) =
      (cmd, TaskFile.programmed disk.drive lba count) ::
        commands disk.ioBase (TaskFile.programmed disk.drive lba count) rest := by
  simp only [startStores, List.cons_append, List.nil_append]
  rw [commands_store _ _ (by decide), commands_store _ _ (by decide),
    commands_store _ _ (by decide), commands_store _ _ (by decide),
    commands_store _ _ (by decide), commands_store _ _ (by decide),
    commands_command]
  rfl

/-- The data command of a call is not its flush. -/
lemma Request.cmd_ne_flush (r : Request) : r.cmd ≠ ataCmdFlush := by
  cases r with
  | read a => exact (by decide : ataCmdReadPio ≠ ataCmdFlush)
  | write a data => exact (by decide : ataCmdWritePio ≠ ataCmdFlush)

/-- A call that stores anything starts its data command with the programmed task file, and after it
    at most a flush. -/
lemma Request.commands_eq {σ : Type*} {bus : Bus σ} {polls : Nat} {disks : List DiskT} {s : σ}
    {r : Request} {disk : DiskT} (e : disks[r.args.id]? = some disk)
    (stored : r.stores bus polls disks s ≠ []) (regs : TaskFile) :
    ∃ flush, commands disk.ioBase regs (r.stores bus polls disks s) =
        (r.cmd, TaskFile.programmed disk.drive r.args.lba r.args.count) :: flush ∧
      ∀ c ∈ flush, c.1 = ataCmdFlush := by
  rcases r.stores_cases bus polls disks s with ⟨none, _⟩ | ⟨d, rest, ce, stores, rests⟩
  · exact absurd none stored
  · have ed := (Args.check_eq_some.mp ce).1
    rw [e] at ed
    cases ed
    refine ⟨_, by rw [stores, commands_startStores], fun c m => ?_⟩
    rcases rests with rfl | rfl
    · cases m
    · rw [commands_command, commands, List.mem_singleton] at m
      rw [m]

/-- A call with a count in 1..255 and its range inside `disk` starts its data command with task file
    `tf`: on some devices in some state, with a table that holds `disk`. -/
def Starts (polls : Nat) (disk : DiskT) (r : Request) (tf : TaskFile) : Prop :=
  ∃ (σ : Type) (bus : Bus σ) (s : σ) (disks : List DiskT) (regs : TaskFile),
    disks[r.args.id]? = some disk ∧ 0 < r.args.count ∧ r.args.count ≤ 255 ∧
    r.args.lba + r.args.count ≤ disk.sectors ∧
    (r.cmd, tf) ∈ commands disk.ioBase regs (r.stores bus polls disks s)

/-- Whatever the devices do, the task file of a data command is the programmed one. -/
lemma Starts.eq {polls : Nat} {disk : DiskT} {r : Request} {tf : TaskFile}
    (h : Starts polls disk r tf) :
    tf = TaskFile.programmed disk.drive r.args.lba r.args.count := by
  obtain ⟨σ, bus, s, disks, regs, e, _, _, _, mem⟩ := h
  have stored : r.stores bus polls disks s ≠ [] := by
    intro none
    rw [none] at mem
    cases mem
  obtain ⟨flush, all, flushes⟩ := Request.commands_eq e stored regs
  rw [all, List.mem_cons] at mem
  rcases mem with eq | mem
  · exact congrArg Prod.snd eq
  · exact absurd (flushes _ mem) r.cmd_ne_flush

/-- Devices that are never busy and always have data. -/
def readyBus : Bus Unit where
  inb _ s := (ataSrDrq, s)
  outb _ _ s := s
  inw _ s := (0#16, s)
  outw _ _ s := s

/-- On ready devices every call whose arguments pass starts its data command. -/
lemma starts_ready {polls : Nat} (pos : 0 < polls) (disk : DiskT) (lba count : Nat) (c0 : 0 < count)
    (c255 : count ≤ 255) (fits : lba + count ≤ disk.sectors) :
    Starts polls disk (.read ⟨0, lba, count, 1⟩) (TaskFile.programmed disk.drive lba count) := by
  refine ⟨Unit, readyBus, (), [disk], ⟨0#8, 0#8, 0#8, 0#8, 0#8⟩, rfl, c0, c255, fits, ?_⟩
  rcases (Request.read ⟨0, lba, count, 1⟩).stores_cases readyBus polls [disk] () with
    ⟨_, busy⟩ | ⟨d, rest, ce, stores, _⟩
  · refine absurd ?_ (busy disk (Args.check_eq_some.mpr ⟨rfl, ?_⟩))
    · obtain ⟨n, rfl⟩ : ∃ n, polls = n + 1 := ⟨polls - 1, by omega⟩
      rfl
    · exact ⟨Nat.one_ne_zero, c0, c255, Nat.le_trans (u64_le _) fits⟩
  · have ed := (Args.check_eq_some.mp ce).1
    cases ed
    rw [stores, commands_startStores]
    exact .head _

/-- The task file of every accepted request decodes to its LBA and count, the request stays below
    2^28, and no two requests for different LBAs address the same first sector. -/
structure LbaExact (polls : Nat) (disk : DiskT) : Prop where
  decodes : ∀ r tf, Starts polls disk r tf → tf.lba28 = r.args.lba ∧
    tf.secCount.toNat = r.args.count ∧ r.args.lba + r.args.count ≤ 2 ^ 28
  distinct : ∀ r r' tf tf', Starts polls disk r tf → Starts polls disk r' tf' →
    r.args.lba ≠ r'.args.lba → tf.lba28 ≠ tf'.lba28

/-- The task files of a disk are exact if it has at most 2^28 sectors, and only then. -/
lemma lbaExact_iff_sectors {polls : Nat} (pos : 0 < polls) (disk : DiskT) :
    LbaExact polls disk ↔ disk.sectors ≤ 2 ^ 28 := by
  constructor
  · intro exact
    by_contra big
    have h := exact.decodes _ _ (starts_ready pos disk (disk.sectors - 1) 1
      (by decide) (by decide) (by omega))
    have := h.2.2
    dsimp only [Request.args] at this
    omega
  · intro le
    have decodes : ∀ r tf, Starts polls disk r tf → tf.lba28 = r.args.lba ∧
        tf.secCount.toNat = r.args.count ∧ r.args.lba + r.args.count ≤ 2 ^ 28 := by
      intro r tf h
      have e := h.eq
      obtain ⟨_, _, _, _, _, _, c0, c255, fits, _⟩ := h
      rw [e, TaskFile.programmed_lba28, TaskFile.programmed_secCount _ _ c255]
      exact ⟨Nat.mod_eq_of_lt (by omega), rfl, by omega⟩
    refine ⟨decodes, fun r r' tf tf' h h' ne eq => ne ?_⟩
    rw [← (decodes r tf h).1, ← (decodes r' tf' h').1, eq]

/-! ## The disks of `ata_identify` -/

/-- The number of sectors is a 32-bit value. -/
lemma reportedSectors_lt (id : List Word) : reportedSectors id < 2 ^ 32 := by
  unfold reportedSectors
  exact Nat.or_lt_two_pow (by rw [Nat.shiftLeft_eq]; have := (id.getD 61 0#16).isLt; omega)
    (by have := (id.getD 60 0#16).isLt; omega)

/-- `ata_identify` records the number of sectors that the drive reports; its clamp never applies. -/
lemma ataIdentify_sectors {σ : Type*} {bus : Bus σ} {polls io ctrl : Nat} {drive : Byte}
    {out disk : DiskT} {s t : σ} (h : ataIdentify bus polls io ctrl drive out s = (0, disk, t)) :
    (identifyBlock bus polls io ctrl drive s).1 = 0 ∧
    disk.sectors = reportedSectors (identifyBlock bus polls io ctrl drive s).2.1 := by
  unfold ataIdentify at h
  dsimp only at h
  have lt := reportedSectors_lt (identifyBlock bus polls io ctrl drive s).2.1
  split at h
  · cases h
  · rename_i rc
    split at h
    · cases h
    · rw [if_neg (Nat.not_lt.mpr (Nat.le_of_lt_succ lt))] at h
      cases h
      exact ⟨by simpa using rc, rfl⟩

/-- For a disk that `ata_identify` records, the task file of every accepted request is exact if and
    only if the drive reports at most 2^28 sectors. -/
theorem lba_exact_iff {σ : Type} (bus : Bus σ) (io ctrl : Nat) (drive : Byte) (out disk : DiskT)
    (s t : σ) (found : ataIdentify bus pollLimit io ctrl drive out s = (0, disk, t)) :
    LbaExact pollLimit { disk with ioBase := io, ctrlBase := ctrl, drive := drive } ↔
      reportedSectors (identifyBlock bus pollLimit io ctrl drive s).2.1 ≤ 2 ^ 28 := by
  rw [← (ataIdentify_sectors found).2]
  exact lbaExact_iff_sectors (by decide) _

/-- A drive that is never busy and answers IDENTIFY with `high` as the high word of its number of
    sectors; the state counts the words read. -/
def reportingBus (high : Word) : Bus Nat where
  inb port s := (if port % 8 = ataRegStatus then ataSrDrq else 0#8, s)
  outb _ _ s := s
  inw _ s := (if s = 61 then high else 0#16, s + 1)
  outw _ _ s := s

/-- A disk of 2^20 sectors. -/
theorem lba_exact_iff_small :
    LbaExact pollLimit ⟨2 ^ 20, 0x1F0, 0x3F6, 0#8, 1⟩ ↔
      reportedSectors (identifyBlock (reportingBus 0x10#16) pollLimit 0x1F0 0x3F6 0#8 0).2.1 ≤
        2 ^ 28 :=
  lba_exact_iff (reportingBus 0x10#16) 0x1F0 0x3F6 0#8 ⟨0, 0, 0, 0#8, 0⟩ ⟨2 ^ 20, 0, 0, 0#8, 1⟩ 0
    256 (by decide +kernel)

/-- On a drive that reports 2^29 sectors, sector 2^28 is addressed as sector 0. -/
theorem large_disk_aliases :
    ataIdentify (reportingBus 0x2000#16) pollLimit 0x1F0 0x3F6 0#8 ⟨0, 0, 0, 0#8, 0⟩ 0 =
      (0, ⟨2 ^ 29, 0, 0, 0#8, 1⟩, 256) ∧
    (∃ tf, Starts pollLimit ⟨2 ^ 29, 0x1F0, 0x3F6, 0#8, 1⟩ (.read ⟨0, 2 ^ 28, 1, 1⟩) tf ∧
      tf.lba28 = 0) ∧
    ¬ LbaExact pollLimit ⟨2 ^ 29, 0x1F0, 0x3F6, 0#8, 1⟩ := by
  have starts := starts_ready (show 0 < pollLimit by decide)
    ⟨2 ^ 29, 0x1F0, 0x3F6, 0#8, 1⟩ (2 ^ 28) 1 (by decide) (by decide) (by decide)
  refine ⟨by decide +kernel, ⟨_, starts, by decide⟩, fun exact => ?_⟩
  exact absurd (exact.decodes _ _ starts).1 (by decide)

end TRS.Disk
