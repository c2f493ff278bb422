import TRS.Disk.Basic
import TRS.Libc.String

/-!
# The GPT lookup

`kernel/driver/gpt.c`. The header is a pointer to the sector buffer `sec`, so that `headerLba` and
`headerCount` are read from the sector that lies there at the time; a read of an entry that runs
past the buffer is a fault.

The rounds of the loop are counted by a fuel of 2^32, which the 32-bit counter of the source cannot
pass; no result depends on it.
-/

namespace TRS.Disk
open TRS.Lib TRS.Libc

/-- `gpt_part_t`. -/
structure GptPart where
  fristLba : Nat
  lastLba : Nat
  deriving DecidableEq, Repr

/-- `DISK_SECTOR_SIZE`. -/
abbrev diskSectorSize : Nat := 512

/-- `sizeof(gpt_entry_t)`. -/
abbrev gptEntrySize : Nat := 128

/-- The fields of `gpt_header_t` that the lookup reads, in the bytes of a sector. -/
def headerLba (sec : List Byte) : Nat := leNat ((sec.drop 72).take 8)
def headerCount (sec : List Byte) : Nat := leNat ((sec.drop 80).take 4)
def headerSize (sec : List Byte) : Nat := leNat ((sec.drop 84).take 4)

/-- The loop that looks for a nonzero byte among the first `n` of a type GUID. -/
def guidEmpty : (n : Nat) → List Byte → Except Fault Bool
  | 0, _ => .ok true
  | n + 1, p => do
    let c ← deref p
    if c ≠ 0#8 then return false else guidEmpty n (p.drop 1)

/-- The body of the loop on an entry: the partition, if the entry has the type. -/
def matchEntry (typeGuid entry : List Byte) : Except Fault (Option GptPart) := do
  let empty ← guidEmpty 16 entry
  if empty then return none
  else
    let c ← memcmp 16 entry typeGuid
    if c = 0 then
      let fristLba ← load 8 (entry.drop 32)
      let lastLba ← load 8 (entry.drop 40)
      return some ⟨fristLba, lastLba⟩
    else return none

/-- The bytes that words take up in memory. -/
def wordBytes (ws : List Word) : List Byte :=
  ws.flatMap fun w => [BitVec.setWidth 8 w, BitVec.setWidth 8 (w >>> 8)]

section Lookup
variable {σ : Type} (bus : Bus σ) (polls : Nat) (disks : List DiskT) (id : Nat)

/-- `read_disk(disk_id, lba, 1, sec)`: the contents of `sec`, if it succeeds. The address of an
    array is not null. -/
def readSector (lba : Nat) (s : σ) : Option (List Byte) × σ :=
  let (rc, ws, s) := readDisk bus polls disks ⟨id, lba, 1, 1⟩ s
  (if rc ≠ 0 then none else some (wordBytes ws), s)

/-- The loop over the entries from `i` on, with `n` rounds left. -/
def gptScan (partsPerSector : Nat) (typeGuid : List Byte) (out : GptPart) :
    (n i : Nat) → (sec : List Byte) → σ → Except Fault ((Int × GptPart) × σ)
  | 0, _, _, s => .ok ((-1, out), s)
  | n + 1, i, sec, s =>
    if i < headerCount sec then
      let (sec, s) :=
        if i % partsPerSector = 0 then
          readSector bus polls disks id (u64 (headerLba sec + i / partsPerSector)) s
        else (some sec, s)
      match sec with
      | none => .ok ((-1, out), s)
      | some sec => do
        let entry := sec.drop (i % partsPerSector * headerCount sec)
        let found ← matchEntry typeGuid entry
        match found with
        | some part => return ((0, part), s)
        | none => gptScan partsPerSector typeGuid out n (i + 1) sec s
    else .ok ((-1, out), s)

/-- `gpt_find_partition(disk_id, type_guid, out)`: its return value and what it leaves in `*out`. A
    `parts_count` is below 2^32, so that this many rounds never run out. -/
def gptFindPartition (typeGuid : List Byte) (out : GptPart) (s : σ) :
    Except Fault ((Int × GptPart) × σ) :=
  let (sec, s) := readSector bus polls disks id 1 s
  match sec with
  | none => .ok ((-1, out), s)
  | some sec => do
    let c ← memcmp 8 sec (text "EFI PART")
    if c ≠ 0 then return ((-1, out), s)
    else if headerCount sec = 0 ∨ headerCount sec > 512 then return ((-1, out), s)
    else if headerSize sec < gptEntrySize ∨ headerSize sec > diskSectorSize then
      return ((-1, out), s)
    else
      gptScan bus polls disks id (diskSectorSize / headerSize sec) typeGuid out (2 ^ 32) 0 sec s

end Lookup

end TRS.Disk
