import TRS.Fat.Area
import TRS.Fat.Timestamp
import TRS.Lib.Striped

/-!
# Files

`fat_file_seek`, `fat_file_read`, `fat_file_write`, `fat_file_sync` and `fat_file_close` of the FAT
library (`trfs/fat32/fat.c`). An open file keeps the sector that it is at in `file->buf`, and reads
and writes it past the sector buffer of the volume. `fat_file_seek` is what moves it: it writes the
buffer back, follows the chain, extends it where it ends, and reads the next sector.

Every function has its loops as rounds over the open file. Their specifications are in
`TRS.Fat.Seek`, `TRS.Fat.Read`, `TRS.Fat.Write` and `TRS.Fat.Sync`.
-/

namespace TRS.Fat
open TRS.Lib TRS.Lib.Program

/-- `FAT_ERR_DENIED`. -/
abbrev errDenied : Int := -7

/-- `FAT_ATTR_ARCHIVE`. -/
abbrev attrArchive : Byte := 0x20#8

/-- The flags of a file: `FAT_WRITE`, `FAT_READ`, `FAT_APPEND`, `FAT_TRUNC`, `FAT_CREATE`, and the
    internal ones `FAT_ACCESSED`, `FAT_MODIFIED` and `FAT_FILE_DIRTY`. -/
structure FileFlags where
  write : Bool
  read : Bool
  append : Bool
  trunc : Bool
  create : Bool
  accessed : Bool
  modified : Bool
  dirty : Bool
  deriving DecidableEq, Repr

/-- `File`; `fat` says that the pointer of this name is not null. -/
structure File where
  fat : Bool
  dirSect : Nat
  sclust : Nat
  clust : Nat
  sect : Nat
  size : Nat
  offset : Nat
  dirIdx : Nat
  attr : Byte
  flags : FileFlags
  buf : Sect

/-- `FAT_SEEK_START`, `FAT_SEEK_CURR` and `FAT_SEEK_END`. -/
inductive Seek where
  | start
  | curr
  | end_
  deriving DecidableEq, Repr

/-- The position that a seek starts from. -/
def Seek.base (file : File) : Seek → Nat
  | .start => 0
  | .curr => file.offset
  | .end_ => file.size

/-- `512 << fat->clust_shift`. -/
def FatFs.clustSize (fat : FatFs) : Nat := u32 (512 * 2 ^ fat.clustShift)

/-- A directory entry in a sector, with what `fat_file_sync` notes in it. -/
def stampEntry (file : File) (now : Timestamp) (b : Sect) : Sect :=
  let (date, time) := encodeTimestamp now
  let b := if file.flags.accessed then b.store16 (file.dirIdx + 18) date else b
  if file.flags.modified then
    let b := b.store8 (file.dirIdx + 11) (b.bytes (file.dirIdx + 11) ||| attrArchive)
    let b := b.store32 (file.dirIdx + 28) (BitVec.ofNat 32 file.size)
    (b.store16 (file.dirIdx + 24) date).store16 (file.dirIdx + 22) time
  else b

namespace Fs
variable {σ : Type} (ops : Device σ Sect)

/-- `fat->ops.read(buf, sect)`. -/
def readSect (sect : Nat) : Program (Fs σ) (Option Sect) := fun s =>
  let (buf, disk) := ops.read sect s.win.disk
  .ok buf { s with win := { s.win with disk } }

/-- `fat->ops.write(buf, sect)`. -/
def writeSect (buf : Sect) (sect : Nat) : Program (Fs σ) Bool := fun s =>
  let (ok, disk) := ops.write buf sect s.win.disk
  .ok ok { s with win := { s.win with disk } }

end Fs

/-- A volume and an open file on it. -/
structure OpenFile (σ : Type) where
  fs : Fs σ
  file : File

namespace OpenFile
variable {σ α : Type}

/-- A call on the volume. -/
def onFs (x : Program (Fs σ) α) : Program (OpenFile σ) α := within fs (fun s fs => { s with fs }) x

/-- A change of the file. -/
def setFile (f : File → File) (s : OpenFile σ) : OpenFile σ := { s with file := f s.file }

/-- A change of the flags of the file. -/
def setFlags (f : FileFlags → FileFlags) : OpenFile σ → OpenFile σ :=
  setFile fun file => { file with flags := f file.flags }

variable (ops : Device σ Sect) (fuel : Nat) (junk : Byte)

/-- A round of the loop of `fat_file_seek`. -/
def walkRound : Program (OpenFile σ) Unit := do
  let s ← get
  let (next, flags) ← onFs (Fs.getFat ops s.file.clust)
  if flags &&& (clustBad ||| clustFree) ≠ 0#8 then throw (.code errBroken)
  if flags &&& clustLast ≠ 0#8 then
    let next ← onFs (Fs.stretchChain ops fuel junk next s.file.clust)
    modify (setFile fun file => { file with clust := next })
  else modify (setFile fun file => { file with clust := next })

/-- The loop of `fat_file_seek`. -/
def walk : (n : Nat) → Program (OpenFile σ) Unit
  | 0 => pure ()
  | n + 1 => do
    walkRound ops fuel junk
    walk n

/-- What backtracking does: the walk starts again from the first cluster. -/
def rewind (s : OpenFile σ) : OpenFile σ :=
  s.setFile fun file =>
    { file with clust := file.sclust, sect := s.fs.fat.clustToSect file.sclust, offset := 0 }

/-- The file at offset `off`, of its cluster. -/
def arrive (off : Nat) (s : OpenFile σ) : OpenFile σ :=
  s.setFile fun file =>
    { file with
      sect := u32 (s.fs.fat.clustToSect file.clust + (off / 512 &&& s.fs.fat.clustMsk))
      offset := off }

/-- Writing the buffer back to `ssect`. -/
def flush (ssect : Nat) : Program (OpenFile σ) Unit := do
  let s ← get
  if s.file.flags.dirty then
    if ← onFs (Fs.writeSect ops s.file.buf ssect) then
      modify (setFlags fun flags => { flags with dirty := false })
    else throw (.code errIo)

/-- Reading the sector of the file. -/
def fill : Program (OpenFile σ) Unit := do
  let s ← get
  match ← onFs (Fs.readSect ops s.file.sect) with
  | some buf => modify (setFile fun file => { file with buf })
  | none => throw (.code errIo)

/-- The end of `fat_file_seek`; the buffer holds sector `ssect`. -/
def enter (ssect : Nat) : Program (OpenFile σ) Unit := do
  let s ← get
  if s.file.sect ≠ ssect then
    flush ops ssect
    fill ops

/-- `fat_file_seek` once it knows the new offset. -/
def goTo (off : Nat) : Program (OpenFile σ) Unit := do
  let s ← get
  let dstClust := off / s.fs.fat.clustSize
  let srcClust := s.file.offset / s.fs.fat.clustSize
  if dstClust < srcClust then
    modify rewind
    walk ops fuel junk dstClust
  else walk ops fuel junk (dstClust - srcClust)
  modify (arrive off)
  enter ops s.file.sect

/-- `fat_file_seek(file, offset, seek)`. -/
def fileSeek (offset : Int) (seek : Seek) : Program (OpenFile σ) Unit := do
  let s ← get
  if ¬ s.file.fat then throw (.code errParam)
  let off64 := seek.base s.file + offset
  if off64 < 0 ∨ off64 > 0xFFFFFFFF then throw (.code errEof)
  goTo ops fuel junk off64.toNat

/-- A round of the loop of `fat_file_read`, with `len` and the bytes that are copied. -/
def readRound : Nat × List Byte →
    Program (OpenFile σ) (Round (Nat × List Byte) (Int × List Byte)) := fun (len, dst) => do
  let s ← get
  if len = 0 ∨ s.file.offset ≥ s.file.size then return .done (errNone, dst)
  else
    let idx := s.file.offset % 512
    let cnt := min len (min (512 - idx) (s.file.size - s.file.offset))
    let dst := dst ++ s.file.buf.slice idx cnt
    match ← attempt (fileSeek ops fuel junk cnt .curr) with
    | .error err => return .done (err, dst)
    | .ok _ => return .again (len - cnt, dst)

/-- `fat_file_read(file, buf, len, bytes)`: its return value, and what it copies to `buf`; `*bytes`
    is the number of these bytes. Since `len` is only compared with unsigned values, it is given as
    its 32 bits. -/
def fileRead (len : Nat) : Program (OpenFile σ) (Int × List Byte) := do
  let s ← get
  if ¬ s.file.fat then return (errParam, [])
  else if ¬ s.file.flags.read then return (errDenied, [])
  else
    modify (setFlags fun flags => { flags with accessed := true })
    -- every round copies a byte
    iterate (readRound ops fuel junk) (len + 1) (len, [])

/-- A round of the loop of `fat_file_write`, with what is left of the data and `*bytes`. The loop
    ends with the `err` of its body, and `*bytes`. -/
def writeRound : List Byte × Nat →
    Program (OpenFile σ) (Round (List Byte × Nat) (Int × Nat)) := fun (src, bytes) => do
  if src = [] then return .done (errNone, bytes)
  else
    let s ← get
    let idx := s.file.offset % 512
    let cnt := min src.length (512 - idx)
    modify (setFile fun file => { file with
      buf := file.buf.splice idx (src.take cnt)
      flags := { file.flags with dirty := true } })
    match ← attempt (fileSeek ops fuel junk cnt .curr) with
    | .error err => return .done (err, bytes + cnt)
    | .ok _ => return .again (src.drop cnt, bytes + cnt)

/-- `fat_file_write` behind its tests, with the `err` of the loop. -/
def writeData (data : List Byte) : Program (OpenFile σ) (Int × Nat) := do
  modify (setFlags fun flags => { flags with modified := true, accessed := true })
  -- every round takes a byte
  let r ← iterate (writeRound ops fuel junk) (data.length + 1) (data, 0)
  modify (setFile fun file => { file with size := max file.size file.offset })
  return r

/-- `fat_file_write(file, buf, len, bytes)` of the data at `buf`: its return value, and `*bytes`.
    The `err` of the loop is a variable of its own, which is not returned. -/
def fileWrite (data : List Byte) : Program (OpenFile σ) (Int × Nat) := do
  let s ← get
  if ¬ s.file.fat then return (errParam, 0)
  else if ¬ s.file.flags.write then return (errDenied, 0)
  else
    let (_, bytes) ← writeData ops fuel junk data
    return (errNone, bytes)

/-- The part of `fat_file_sync` on the directory entry. -/
def syncEntry (now : Timestamp) : Program (OpenFile σ) Unit := do
  let s ← get
  if s.file.flags.accessed ∨ s.file.flags.modified then
    onFs (Fs.updateBuf ops s.file.dirSect)
    modify fun s => { s with fs := s.fs.edit (stampEntry s.file now) }

/-- `fat_file_sync(file)`, at the time `now`. -/
def fileSync (now : Timestamp) : Program (OpenFile σ) Unit := do
  let s ← get
  if ¬ s.file.fat then throw (.code errParam)
  if ← onFs (Fs.writeSect ops s.file.buf s.file.sect) then
    syncEntry ops now
    onFs (Fs.syncFs ops)
    modify (setFlags fun flags => { flags with accessed := false, modified := false })
  else throw (.code errIo)

/-- `fat_file_close(file)`. -/
def fileClose (now : Timestamp) : Program (OpenFile σ) Unit := do
  let s ← get
  if ¬ s.file.fat then throw (.code errParam)
  fileSync ops now

end OpenFile

end TRS.Fat
