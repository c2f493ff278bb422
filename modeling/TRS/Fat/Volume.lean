import TRS.Fat.Handles
import TRS.Fat.Mount

/-!
# Reading a directory of a FAT volume

`fat_dir_next` and `fat_dir_read` of the FAT library (`trfs/fat32/fat.c`) on a mounted volume: the
walk along a cluster chain, and the entry at a position, with a short or a long name.

A read of a long name goes on along the chain with `fat_dir_next`, so that its loop has a fuel; the
library that the driver sees (`Volume.library`) asks for enough of it.
-/

namespace TRS.Fat
open TRS.Lib

/-- `FAT_ERR_BROKEN`. -/
abbrev errBroken : Int := -2

/-- `SFN_FREE`. -/
abbrev sfnFree : Byte := 0xE5#8

/-- `SFN_LAST`. -/
abbrev sfnLast : Byte := 0x00#8

/-- `SFN_PAD`. -/
abbrev sfnPad : Byte := 0x20#8

/-- `LFN_HEAD_MSK`. -/
abbrev lfnHeadMsk : Byte := 0x40#8

/-- `LFN_SEQ_MSK`. -/
abbrev lfnSeqMsk : Byte := 0x1F#8

/-- `FAT_ATTR_LFN`. -/
abbrev attrLfn : Byte := 0x0F#8

/-- `CLUST_FREE`. -/
abbrev clustFree : Byte := 0x01#8

/-- `CLUST_USED`. -/
abbrev clustUsed : Byte := 0x02#8

/-- `CLUST_LAST`. -/
abbrev clustLast : Byte := 0x04#8

/-- `CLUST_BAD`. -/
abbrev clustBad : Byte := 0x08#8

/-- `g_lfn_indices`. -/
def lfnIndices : List Nat := [1, 3, 5, 7, 9, 14, 16, 18, 20, 22, 24, 28, 30]

/-- A mounted volume, the disk under it (`ops.read`, through the buffer of one sector), and what the
    global `g_buf` holds. -/
structure Volume where
  fat : FatFs
  sector : Nat → Option (Nat → Byte)
  gBuf : Nat → Byte

/-- `Dir`; `mounted` says that `fat` is not null. -/
structure Dir where
  mounted : Bool
  clust : Nat
  sect : Nat
  idx : Nat
  deriving DecidableEq, Repr

namespace Volume

variable (v : Volume)

/-- `clust_to_sect`. -/
def clustToSect (clust : Nat) : Nat :=
  u32 (u32 (u32 (clust + 2 ^ 32 - 2) * 2 ^ v.fat.clustShift) + v.fat.dataSect)

/-- `get_fat(clust)`: the item and its flags. -/
def getFat (clust : Nat) : Except Int (Nat × Byte) :=
  match v.sector (u32 (v.fat.fatSect0 + clust / 128)) with
  | none => .error errIo
  | some buf =>
    -- the upper nibble is ignored
    let val := leNat ((List.range' (4 * (clust % 128)) 4).map buf) % 2 ^ 28
    if val = 0 then .ok (val, clustFree)
    else if val = 0x0FFFFFF7 then .ok (val, clustBad)
    else if val ≥ 0x0FFFFFF8 then .ok (val, clustUsed ||| clustLast)
    else if val ≥ 2 ∧ val < v.fat.clustCnt then .ok (val, clustUsed)
    else .error errBroken

/-- `dir_at_clust`. -/
def dirAtClust (dir : Dir) (clust : Nat) : Dir :=
  { dir with clust, sect := v.clustToSect clust, idx := 0 }

/-- The end of `dir_next`, past the last sector of a cluster. -/
def nextClust (dir : Dir) : Int × Dir :=
  match v.getFat dir.clust with
  | .error err => (err, dir)
  | .ok (next, flags) =>
    if flags &&& (clustBad ||| clustFree) ≠ 0#8 then (errBroken, dir)
    else if flags &&& clustLast ≠ 0#8 then (errEof, dir)
    else (errNone, v.dirAtClust dir next)

/-- `dir_next(dir)`. -/
def dirNext (dir : Dir) : Int × Dir :=
  if (dir.idx + 32) % 2 ^ 16 < 512 then (errNone, { dir with idx := (dir.idx + 32) % 2 ^ 16 })
  else
    let dir := { dir with idx := 0, sect := u32 (dir.sect + 1) }
    if dir.sect &&& v.fat.clustMsk ≠ 0 then (errNone, dir) else v.nextClust dir

/-- `fat_dir_next(dir)`. -/
def fatDirNext (dir : Dir) : Int × Dir :=
  if dir.mounted then v.dirNext dir else (errParam, dir)

/-- `update_buf(dir->fat, dir->sect)` and `dir_ptr(dir)`. -/
def entry (dir : Dir) : Option (Nat → Byte) :=
  (v.sector dir.sect).map fun buf i => buf (dir.idx + i)

/-- `parse_sfn_name`: what it leaves in `g_buf`. -/
def parseSfnName (sfn : Nat → Byte) : List Byte :=
  ((List.range 8).map sfn).takeWhile (· ≠ sfnPad) ++ (if sfn 8 ≠ sfnPad then [0x2E#8] else []) ++
    ((List.range' 8 3).map sfn).takeWhile (· ≠ sfnPad)

/-- `get_crc`. -/
def getCrc (sfn : Nat → Byte) : Byte :=
  (List.range 11).foldl (fun sum i => ((sum &&& 1#8) <<< 7) + (sum >>> 1) + sfn i) 0#8

/-- The characters that a part of a long name stores: the test for 0xff compares a signed `char`
    with 255, which never holds. -/
def lfnChars (lfn : Nat → Byte) : List Byte :=
  (lfnIndices.map lfn).takeWhile (· ≠ 0#8)

/-- `g_crc`, `g_len` and `g_buf`. -/
structure Name where
  crc : Byte
  len : Nat
  buf : Nat → Byte

/-- The loop of `parse_lfn_name`, with `cnt` parts left and the bytes of the part at `dir`. -/
def parseParts : (cnt : Nat) → (lfn : Nat → Byte) → Name → Dir → Int × Name × Dir
  | 0, _, name, dir => (errNone, name, dir)
  | cnt + 1, lfn, name, dir =>
    if lfn 11 ≠ attrLfn ∨ lfn 13 ≠ name.crc then (errBroken, name, dir)
    else
      let part := lfnChars lfn
      let buf := fun i =>
        if 13 * cnt ≤ i ∧ i < 13 * cnt + part.length then part.getD (i - 13 * cnt) 0#8
        else name.buf i
      let name := { name with len := name.len + part.length, buf }
      let next := v.dirNext dir
      if next.1 ≠ errNone then (next.1, name, next.2)
      else
        match v.entry next.2 with
        | none => (errIo, name, next.2)
        | some lfn => parseParts cnt lfn name next.2

/-- `parse_lfn_name(dir)` on the bytes at `dir`. -/
def parseLfnName (lfn : Nat → Byte) (dir : Dir) : Int × Name × Dir :=
  let name := ⟨lfn 13, 0, v.gBuf⟩
  if lfn 0 &&& lfnHeadMsk = 0#8 then (errBroken, name, dir)
  else
    let cnt := (lfn 0 &&& lfnSeqMsk).toNat
    if cnt > 20 then (errBroken, name, dir)
    else
      let r := v.parseParts cnt lfn name dir
      if r.1 ≠ errNone then r
      else (if r.2.1.len ≤ 255 then errNone else errBroken, r.2)

/-- The end of `fat_dir_read`: the `DirInfo` of an entry, with the name in `g_buf`. -/
def dirInfo (sfn : Nat → Byte) (name : List Byte) : DirInfo :=
  ⟨leNat ((List.range' 28 4).map sfn), sfn 11, name, name.length⟩

/-- `fat_dir_read` on a long name at `dir`, which a short one must follow. -/
def readLong (lfn : Nat → Byte) (dir : Dir) : Int × Option DirInfo × Dir :=
  let r := v.parseLfnName lfn dir
  if r.1 ≠ errNone then (r.1, none, r.2.2)
  else
    match v.entry r.2.2 with
    | none => (errIo, none, r.2.2)
    | some sfn =>
      if (sfn 0 = sfnLast ∨ sfn 0 = sfnFree) ∨ r.2.1.crc ≠ getCrc sfn then (errBroken, none, r.2.2)
      else (errNone, some (dirInfo sfn ((List.range r.2.1.len).map r.2.1.buf)), r.2.2)

/-- At most `fuel` rounds of the loop of `fat_dir_read`. -/
def readLoop : (fuel : Nat) → Dir → Option (Int × Option DirInfo × Dir)
  | 0, _ => none
  | fuel + 1, dir =>
    match v.entry dir with
    | none => some (errIo, none, dir)
    | some sfn =>
      if sfn 0 = sfnLast then some (errEof, none, dir)
      else if sfn 0 = sfnFree then
        -- `continue`
        let next := v.dirNext dir
        if next.1 ≠ errNone then some (next.1, none, next.2) else readLoop fuel next.2
      else if sfn 11 = attrLfn then some (v.readLong sfn dir)
      else some (errNone, some (dirInfo sfn (parseSfnName sfn)), dir)

/-- `fat_dir_read(dir, info)`. -/
def fatDirRead (fuel : Nat) (dir : Dir) : Option (Int × Option DirInfo × Dir) :=
  if dir.mounted then v.readLoop fuel dir else some (errParam, none, dir)

/-- The library on a volume where every read ends within `fuel` rounds; `open_` is what
    `fat_dir_open` does. -/
def library (open_ : Dir → List Byte → Int × Dir) (fuel : Nat)
    (ends : ∀ dir, (v.fatDirRead fuel dir).isSome) : FatDir Dir where
  fatDirOpen := open_
  fatDirRead dir := (v.fatDirRead fuel dir).get (ends dir)
  fatDirNext := v.fatDirNext
  zero := ⟨false, 0, 0, 0⟩

end Volume

end TRS.Fat
