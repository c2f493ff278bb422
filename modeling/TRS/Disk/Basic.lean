import TRS.Lib.Loop
import TRS.Lib.Port
import TRS.Lib.Word

/-!
# The ATA driver

`kernel/driver/disk.c`, over any port bus. The functions keep the order of the port accesses and the
tests of the source; a polling loop that runs out of its `polls` polls (`pollLimit` in the source)
returns -1, as every other failure does.

`Args.check` is the test that both functions begin with; a `Request` is a call of either of them
with its arguments.
-/

namespace TRS.Disk
open TRS.Lib

/-- The registers of a channel, as offsets from its I/O base. -/
abbrev ataRegData : Nat := 0
abbrev ataRegFeatures : Nat := 1
abbrev ataRegSecCount : Nat := 2
abbrev ataRegLba0 : Nat := 3
abbrev ataRegLba1 : Nat := 4
abbrev ataRegLba2 : Nat := 5
abbrev ataRegDrive : Nat := 6
abbrev ataRegStatus : Nat := 7
abbrev ataRegCommand : Nat := 7

/-- The bits of the status register. -/
abbrev ataSrBsy : Byte := 0x80#8
abbrev ataSrDf : Byte := 0x20#8
abbrev ataSrDrq : Byte := 0x08#8
abbrev ataSrErr : Byte := 0x01#8

/-- The commands. -/
abbrev ataCmdReadPio : Byte := 0x20#8
abbrev ataCmdIdentify : Byte := 0xEC#8
abbrev ataCmdWritePio : Byte := 0x30#8
abbrev ataCmdFlush : Byte := 0xE7#8

/-- `ATA_LBA28_MAX`, as the source writes it. -/
abbrev ataLba28Max : Nat := 0x0FFFFFFFF

/-- `DISK_MAX`. -/
abbrev diskMax : Nat := 4

/-- The number of polls before a wait gives up. -/
def pollLimit : Nat := 10000000

/-- `disk_t`. -/
structure DiskT where
  sectors : Nat
  ioBase : Nat
  ctrlBase : Nat
  drive : Byte
  present : Nat
  deriving DecidableEq, Repr

/-- The arguments that `read_disk` and `write_disk` share. -/
structure Args where
  id : Nat
  lba : Nat
  count : Nat
  buf : Nat
  deriving DecidableEq, Repr

/-- The checks that both make before they touch a port: the disk, if the arguments pass. -/
def Args.check (a : Args) (disks : List DiskT) : Option DiskT :=
  match disks[a.id]? with
  | none => none
  | some disk =>
    if a.buf = 0 then none
    else if a.count = 0 ∨ a.count > 255 then none
    else if u64 (a.lba + a.count) > disk.sectors then none
    else some disk

/-- The arguments of a call on `disk` pass its checks. -/
structure Args.Passes (a : Args) (disk : DiskT) : Prop where
  buf : a.buf ≠ 0
  pos : 0 < a.count
  le : a.count ≤ 255
  fits : u64 (a.lba + a.count) ≤ disk.sectors

/-- The checks of a request pass on the disk that it names. -/
lemma Args.check_eq_some {a : Args} {disks : List DiskT} {disk : DiskT} :
    a.check disks = some disk ↔ disks[a.id]? = some disk ∧ a.Passes disk := by
  unfold Args.check
  cases e : disks[a.id]? with
  | none => simp
  | some d =>
    dsimp only
    constructor
    · intro h
      split at h
      · cases h
      · split at h
        · cases h
        · split at h
          · cases h
          · cases h
            exact ⟨rfl, by assumption, by omega, by omega, by omega⟩
    · rintro ⟨e', p⟩
      cases e'
      have := p.pos
      have := p.le
      rw [if_neg p.buf, if_neg (by omega), if_neg (Nat.not_lt.mpr p.fits)]

section Driver
variable {σ : Type*} (bus : Bus σ) (polls : Nat)

/-- `ata_delay400(ctrl)`. -/
def ataDelay400 (ctrl : Nat) (s : σ) : σ :=
  let (_, s) := bus.inb ctrl s
  let (_, s) := bus.inb ctrl s
  let (_, s) := bus.inb ctrl s
  let (_, s) := bus.inb ctrl s
  s

/-- The loop of `ata_wait_bsy` with `n` polls left. -/
def waitBsy (io : Nat) : (n : Nat) → σ → Int × σ
  | 0, s => (-1, s)
  | n + 1, s =>
    let (st, s) := bus.inb (io + ataRegStatus) s
    if st &&& ataSrBsy = 0#8 then (0, s) else waitBsy io n s

/-- `ata_wait_bsy(io)`. -/
def ataWaitBsy (io : Nat) (s : σ) : Int × σ := waitBsy bus io polls s

/-- The loop of `ata_wait_drq` with `n` polls left. -/
def waitDrq (io : Nat) : (n : Nat) → σ → Int × σ
  | 0, s => (-1, s)
  | n + 1, s =>
    let (st, s) := bus.inb (io + ataRegStatus) s
    if st &&& (ataSrErr ||| ataSrDf) ≠ 0#8 then (-1, s)
    else if st &&& ataSrDrq ≠ 0#8 then (0, s)
    else waitDrq io n s

/-- `ata_wait_drq(io)`. -/
def ataWaitDrq (io : Nat) (s : σ) : Int × σ := waitDrq bus io polls s

/-- The accesses by which `ata_identify` starts its command. -/
def startIdentify (io ctrl : Nat) (drive : Byte) (s : σ) : σ :=
  let s := bus.outb ctrl 0x02#8 s
  let s := bus.outb (io + ataRegDrive) (0xA0#8 ||| drive <<< 4) s
  let s := ataDelay400 bus ctrl s
  let s := bus.outb (io + ataRegSecCount) 0#8 s
  let s := bus.outb (io + ataRegLba0) 0#8 s
  let s := bus.outb (io + ataRegLba1) 0#8 s
  let s := bus.outb (io + ataRegLba2) 0#8 s
  let s := bus.outb (io + ataRegCommand) ataCmdIdentify s
  ataDelay400 bus ctrl s

/-- `ata_identify` up to the block of 256 words that the drive answers. -/
def identifyBlock (io ctrl : Nat) (drive : Byte) (s : σ) : Int × List Word × σ :=
  let s := startIdentify bus io ctrl drive s
  let (st, s) := bus.inb (io + ataRegStatus) s
  if st = 0x00#8 ∨ st = 0xFF#8 then (-1, [], s)
  else
    let (rc, s) := ataWaitBsy bus polls io s
    if rc ≠ 0 then (-1, [], s)
    else
      let (lba1, s) := bus.inb (io + ataRegLba1) s
      if lba1 ≠ 0#8 then (-1, [], s)
      else
        let (lba2, s) := bus.inb (io + ataRegLba2) s
        if lba2 ≠ 0#8 then (-1, [], s)
        else
          let (rc, s) := ataWaitDrq bus polls io s
          if rc ≠ 0 then (-1, [], s)
          else
            let (id, s) := bus.inWords (io + ataRegData) 256 s
            (0, id, s)

/-- The number of sectors in words 60 and 61 of an IDENTIFY block. -/
def reportedSectors (id : List Word) : Nat :=
  (id.getD 61 0#16).toNat <<< 16 ||| (id.getD 60 0#16).toNat

/-- `ata_identify(io, ctrl, drive, out)`: its return value and what it leaves in `*out`. -/
def ataIdentify (io ctrl : Nat) (drive : Byte) (out : DiskT) (s : σ) : Int × DiskT × σ :=
  let (rc, id, s) := identifyBlock bus polls io ctrl drive s
  if rc ≠ 0 then (-1, out, s)
  else
    let sectors := reportedSectors id
    if sectors = 0 then (-1, out, s)
    else
      let sectors := if sectors > ataLba28Max then ataLba28Max else sectors
      (0, { out with sectors, present := 1 }, s)

/-- `io_bases`. -/
def ioBases (ch : Nat) : Nat := if ch = 0 then 0x1F0 else 0x170

/-- `ctrl_bases`. -/
def ctrlBases (ch : Nat) : Nat := if ch = 0 then 0x3F6 else 0x376

/-- One round of the inner loop of `disk_init`, on `disks` and the devices. -/
def initDrive (ch drive : Nat) (st : List DiskT × σ) : List DiskT × σ :=
  let (disks, s) := st
  if disks.length ≥ diskMax then (disks, s)
  else
    let disk : DiskT := ⟨0, 0, 0, 0#8, 0⟩
    let (rc, disk, s) :=
      ataIdentify bus polls (ioBases ch) (ctrlBases ch) (BitVec.ofNat 8 drive) disk s
    if rc = 0 then
      (disks ++ [{ disk with
        ioBase := ioBases ch, ctrlBase := ctrlBases ch, drive := BitVec.ofNat 8 drive }], s)
    else (disks, s)

/-- `disk_init()`: the table `disks` it leaves. -/
def diskInit (s : σ) : List DiskT × σ :=
  forRange 0 2 (fun ch st => forRange 0 2 (initDrive bus polls ch) st) ([], s)

/-- The accesses by which `read_disk` and `write_disk` start a command. -/
def startCommand (disk : DiskT) (lba count : Nat) (cmd : Byte) (s : σ) : σ :=
  let s := bus.outb (disk.ioBase + ataRegDrive)
    (0xE0#8 ||| disk.drive <<< 4 ||| BitVec.ofNat 8 ((lba >>> 24) &&& 0x0F)) s
  let s := ataDelay400 bus disk.ctrlBase s
  let s := bus.outb (disk.ioBase + ataRegFeatures) 0#8 s
  let s := bus.outb (disk.ioBase + ataRegSecCount) (BitVec.ofNat 8 count) s
  let s := bus.outb (disk.ioBase + ataRegLba0) (BitVec.ofNat 8 (lba &&& 0xFF)) s
  let s := bus.outb (disk.ioBase + ataRegLba1) (BitVec.ofNat 8 ((lba >>> 8) &&& 0xFF)) s
  let s := bus.outb (disk.ioBase + ataRegLba2) (BitVec.ofNat 8 ((lba >>> 16) &&& 0xFF)) s
  bus.outb (disk.ioBase + ataRegCommand) cmd s

/-- The loop of `read_disk` with `n` sectors left: the words it stores. -/
def readSectors (io ctrl : Nat) : (n : Nat) → σ → Int × List Word × σ
  | 0, s => (0, [], s)
  | n + 1, s =>
    let (rc, s) := ataWaitBsy bus polls io s
    if rc ≠ 0 then (-1, [], s)
    else
      let (rc, s) := ataWaitDrq bus polls io s
      if rc ≠ 0 then (-1, [], s)
      else
        let (ws, s) := bus.inWords (io + ataRegData) 256 s
        let s := ataDelay400 bus ctrl s
        let (rc, rest, s) := readSectors io ctrl n s
        (rc, ws ++ rest, s)

/-- The loop of `write_disk` with `n` sectors left, from word `p` of the buffer on. -/
def writeSectors (io ctrl : Nat) (data : Nat → Word) : (n p : Nat) → σ → Int × σ
  | 0, _, s => (0, s)
  | n + 1, p, s =>
    let (rc, s) := ataWaitBsy bus polls io s
    if rc ≠ 0 then (-1, s)
    else
      let (rc, s) := ataWaitDrq bus polls io s
      if rc ≠ 0 then (-1, s)
      else
        let s := bus.outWords (io + ataRegData) data 256 p s
        let s := ataDelay400 bus ctrl s
        writeSectors io ctrl data n (p + 256) s

/-- `read_disk(id, lba, count, buf)`: its return value and the words it stores from `buf` on. -/
def readDisk (disks : List DiskT) (a : Args) (s : σ) : Int × List Word × σ :=
  match a.check disks with
  | none => (-1, [], s)
  | some disk =>
    let (rc, s) := ataWaitBsy bus polls disk.ioBase s
    if rc ≠ 0 then (-1, [], s)
    else
      let s := startCommand bus disk a.lba a.count ataCmdReadPio s
      readSectors bus polls disk.ioBase disk.ctrlBase a.count s

/-- `write_disk(id, lba, count, buf)`, with the words that `buf` points to. -/
def writeDisk (disks : List DiskT) (a : Args) (data : Nat → Word) (s : σ) : Int × σ :=
  match a.check disks with
  | none => (-1, s)
  | some disk =>
    let (rc, s) := ataWaitBsy bus polls disk.ioBase s
    if rc ≠ 0 then (-1, s)
    else
      let s := startCommand bus disk a.lba a.count ataCmdWritePio s
      let (rc, s) := writeSectors bus polls disk.ioBase disk.ctrlBase data a.count 0 s
      if rc ≠ 0 then (-1, s)
      else
        let (rc, s) := ataWaitBsy bus polls disk.ioBase s
        if rc ≠ 0 then (-1, s)
        else
          let s := bus.outb (disk.ioBase + ataRegCommand) ataCmdFlush s
          let (rc, s) := ataWaitBsy bus polls disk.ioBase s
          if rc ≠ 0 then (-1, s) else (0, s)

end Driver

/-- A call of `read_disk`, or of `write_disk` with the words that its buffer points to. -/
inductive Request where
  | read (a : Args)
  | write (a : Args) (data : Nat → Word)

namespace Request

/-- The arguments of a call. -/
def args : Request → Args
  | read a | write a _ => a

/-- The command that a call starts. -/
def cmd : Request → Byte
  | read _ => ataCmdReadPio
  | write _ _ => ataCmdWritePio

/-- The call itself: its return value with the words it stores, and the devices after it. -/
def perform {σ : Type*} (bus : Bus σ) (polls : Nat) (disks : List DiskT) (s : σ) :
    Request → (Int × List Word) × σ
  | read a =>
    let (rc, ws, s) := readDisk bus polls disks a s
    ((rc, ws), s)
  | write a data =>
    let (rc, s) := writeDisk bus polls disks a data s
    ((rc, []), s)

end Request

end TRS.Disk
