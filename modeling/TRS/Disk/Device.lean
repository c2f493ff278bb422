import TRS.Disk.TaskFile

/-!
# ATA drives

Two channels of two drives each, as a conforming PIO device shows them on its ports. A command
latches the selected drive, the 28-bit LBA and the count from the task file; READ and WRITE SECTORS
then transfer their blocks of 256 words in LBA order, raising DRQ for each block and BSY before each
block for a time that the `delays` of the channel give, counted in polls of the status register. The
drives are not told anything about the driver.
-/

namespace TRS.Disk
open TRS.Lib

/-- The contents of a sector. -/
structure Sector where
  words : List Word
  length : words.length = 256

/-- A drive: its answer to IDENTIFY, and its sectors. -/
structure Drive where
  ident : Sector
  data : Nat → Sector

/-- Word `p` of a buffer and the 255 words after it. -/
def Sector.of (data : Nat → Word) (p : Nat) : Sector where
  words := (List.range 256).map fun i => data (p + i)
  length := by rw [List.length_map, List.length_range]

/-- The number of sectors of a drive is the one that it reports. -/
def Drive.capacity (d : Drive) : Nat := reportedSectors d.ident.words

/-- A store to a sector. -/
def Drive.write (d : Drive) (lba : Nat) (b : Sector) : Drive :=
  { d with data := fun l => if l = lba then b else d.data l }

/-- The `n` sectors from `lba` on. -/
def Drive.blocks (d : Drive) (lba n : Nat) : List Sector :=
  (List.range n).map fun i => d.data (lba + i)

/-- Stores to the `n` sectors from `lba` on, of the words from word `p` of a buffer on. -/
def Drive.writeBlocks (d : Drive) (data : Nat → Word) (lba p : Nat) : Nat → Drive
  | 0 => d
  | n + 1 => (d.write lba (.of data p)).writeBlocks data (lba + 1) (p + 256) n

/-- The transfer a channel is in. -/
inductive Phase where
  | idle
  /-- The words of the block the host is reading that are still to come, and the blocks after it. -/
  | dataIn (block : List Word) (blocks : List Sector)
  /-- The words of the block the host is writing to sector `lba`; `left` blocks are still to
      come. -/
  | dataOut (block : List Word) (lba left : Nat)

/-- A channel. `busy` is the number of polls that still show BSY, `delays` gives the times that it
    will be set, and `floating` is what an undriven bus reads as. -/
structure Channel where
  drives : Nat → Option Drive
  regs : TaskFile
  phase : Phase
  busy : Nat
  failed : Bool
  delays : Nat → Nat
  floating : Byte

namespace Channel

/-- The selected drive. -/
def selected (c : Channel) : Option Drive := c.drives c.regs.sel

/-- The status register. A drive 0 answers for an absent drive 1. -/
def status (c : Channel) : Byte :=
  match c.selected with
  | none => if c.regs.sel ≠ 0 ∧ (c.drives 0).isSome then 0x00#8 else c.floating
  | some _ =>
    if 0 < c.busy then ataSrBsy
    else if c.failed then 0x40#8 ||| ataSrErr
    else
      match c.phase with
      | .idle => 0x40#8
      | _ => 0x40#8 ||| ataSrDrq

/-- One poll of the status register. -/
def poll (c : Channel) : Channel := { c with busy := c.busy - 1 }

/-- Become busy, and then be in a phase. -/
def enter (c : Channel) (phase : Phase) : Channel :=
  { c with phase, busy := c.delays 0, delays := fun n => c.delays (n + 1) }

/-- The number of blocks a command transfers; 0 stands for 256. -/
def blockCount (c : Channel) : Nat :=
  if c.regs.secCount = 0#8 then 256 else c.regs.secCount.toNat

/-- A data command that drive `d` accepts. -/
def InRange (c : Channel) (d : Drive) : Prop :=
  c.regs.lbaMode = true ∧ c.regs.lba28 + c.blockCount ≤ d.capacity

instance (c : Channel) (d : Drive) : Decidable (c.InRange d) := by unfold InRange; infer_instance

/-- Go on to the next block to read, or finish. -/
def nextIn (c : Channel) : List Sector → Channel
  | [] => { c with phase := .idle }
  | b :: bs => c.enter (.dataIn b.words bs)

/-- Go on to the next of `left` blocks to write, or finish. -/
def nextOut (c : Channel) (lba left : Nat) : Channel :=
  if left = 0 then c.enter .idle else c.enter (.dataOut [] lba left)

/-- A store to the command register. -/
def command (c : Channel) (v : Byte) : Channel :=
  match c.selected with
  | none => c
  | some d =>
    let c := { c with failed := false, phase := .idle }
    if v = ataCmdIdentify then c.nextIn [d.ident]
    else if v = ataCmdReadPio ∧ c.InRange d then
        c.nextIn (d.blocks c.regs.lba28 c.blockCount)
    else if v = ataCmdWritePio ∧ c.InRange d then c.nextOut c.regs.lba28 c.blockCount
    else if v = ataCmdFlush then c.enter .idle
    else { c with failed := true }

/-- A load from the data register. -/
def dataWord (c : Channel) : Word × Channel :=
  match c.phase with
  | .dataIn (w :: ws) bs =>
    if 0 < c.busy then (0xFFFF#16, c)
    else if ws = [] then (w, c.nextIn bs)
    else (w, { c with phase := .dataIn ws bs })
  | _ => (0xFFFF#16, c)

/-- Replace the selected drive. -/
def setSelected (c : Channel) (d : Drive) : Channel :=
  { c with drives := fun i => if i = c.regs.sel then some d else c.drives i }

/-- A store to the data register; the last word of a block writes its sector. -/
def storeWord (c : Channel) (w : Word) : Channel :=
  match c.selected, c.phase with
  | some d, .dataOut block lba left =>
    if 0 < c.busy then c
    else if full : (block ++ [w]).length = 256 then
      (c.setSelected (d.write lba ⟨block ++ [w], full⟩)).nextOut (lba + 1) (left - 1)
    else { c with phase := .dataOut (block ++ [w]) lba left }
  | _, _ => c

/-- A load of a byte from the register at offset `reg`. -/
def inb (c : Channel) (reg : Nat) : Byte × Channel :=
  if reg = ataRegStatus then (c.status, c.poll)
  else if reg = ataRegLba1 then (c.regs.lba1, c)
  else if reg = ataRegLba2 then (c.regs.lba2, c)
  else (0xFF#8, c)

/-- A store of a byte to the register at offset `reg`; a busy drive ignores it. -/
def outb (c : Channel) (reg : Nat) (v : Byte) : Channel :=
  if 0 < c.busy then c
  else if reg = ataRegCommand then c.command v
  else { c with regs := c.regs.store reg v }

end Channel

/-- The two channels of a machine. -/
abbrev Machine := Nat → Channel

namespace Machine

/-- Replace channel `ch`. -/
def set (m : Machine) (ch : Nat) (c : Channel) : Machine := fun i => if i = ch then c else m i

@[simp] lemma set_same (m : Machine) (ch : Nat) (c : Channel) : m.set ch c ch = c := if_pos rfl

@[simp] lemma set_set (m : Machine) (ch : Nat) (c d : Channel) :
    (m.set ch c).set ch d = m.set ch d := by
  funext i
  by_cases e : i = ch <;> simp [set, e]

lemma set_other (m : Machine) {ch i : Nat} (c : Channel) (ne : i ≠ ch) : m.set ch c i = m i :=
  if_neg ne

lemma set_self (m : Machine) (ch : Nat) : m.set ch (m ch) = m := by
  funext i
  by_cases e : i = ch
  · rw [e, set_same]
  · rw [set_other m _ e]

end Machine

/-- The channel and the register of an I/O port. -/
def ioPort (port : Nat) : Option (Nat × Nat) :=
  if ioBases 0 ≤ port ∧ port < ioBases 0 + 8 then some (0, port - ioBases 0)
  else if ioBases 1 ≤ port ∧ port < ioBases 1 + 8 then some (1, port - ioBases 1)
  else none

/-- The channel whose alternate status a control port reads. -/
def ctrlPort (port : Nat) : Option Nat :=
  if port = ctrlBases 0 then some 0 else if port = ctrlBases 1 then some 1 else none

/-- The bus of the machine. Reading the alternate status changes nothing, and neither does the
    device control register, which only turns interrupts off. -/
def ataBus : Bus Machine where
  inb port m :=
    match ioPort port, ctrlPort port with
    | some (ch, reg), _ => (((m ch).inb reg).1, m.set ch ((m ch).inb reg).2)
    | none, some ch => ((m ch).status, m)
    | none, none => (0xFF#8, m)
  outb port v m :=
    match ioPort port with
    | some (ch, reg) => m.set ch ((m ch).outb reg v)
    | none => m
  inw port m :=
    match ioPort port with
    | some (ch, 0) => ((m ch).dataWord.1, m.set ch (m ch).dataWord.2)
    | _ => (0xFFFF#16, m)
  outw w port m :=
    match ioPort port with
    | some (ch, 0) => m.set ch ((m ch).storeWord w)
    | _ => m

end TRS.Disk
