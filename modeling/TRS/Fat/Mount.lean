import TRS.Fat.Basic
import TRS.Lib.CString
import TRS.Lib.Loop
import TRS.Lib.Word

/-!
# Mounting a FAT volume

`fat_mount` of the FAT library (`trfs/fat32/fat.c`): it looks for the parameters of a FAT32 volume
in sector 0, or in the partition that an MBR there names, and takes over what they say.

The headline `fatMount_ok` says that a FAT32 volume without an MBR mounts; the sector reads are a
parameter, as the library has them from its user.
-/

namespace TRS.Fat
open TRS.Lib

/-- `FAT_ERR_NOFAT`. -/
abbrev errNofat : Int := -1

/-- What stops the processor. -/
inductive Trap where
  | access (f : Fault)
  | divide
  deriving DecidableEq, Repr

/-- `Fat`, without its buffer and its list. -/
structure FatFs where
  clustMsk : Nat
  clustCnt : Nat
  infoSect : Nat
  fatSect0 : Nat
  fatSect1 : Nat
  dataSect : Nat
  rootClust : Nat
  lastUsed : Nat
  freeCnt : Nat
  clustShift : Nat
  name : List Byte
  deriving DecidableEq, Repr

/-- The `n`-byte field at offset `off` of a sector. -/
def field (n off : Nat) (buf : List Byte) : Nat := leNat ((buf.drop off).take n)

/-- The fields of `Bpb` that the library reads. -/
def bytesPerSect : List Byte → Nat := field 2 11
def sectPerClust : List Byte → Nat := field 1 13
def resSectCnt : List Byte → Nat := field 2 14
def fatCnt : List Byte → Nat := field 1 16
def rootEntCnt : List Byte → Nat := field 2 17
def sectCnt16 : List Byte → Nat := field 2 19
def sectPerFat16 : List Byte → Nat := field 2 22
def sectCnt32 : List Byte → Nat := field 4 32
def sectPerFat32 : List Byte → Nat := field 4 36
def extFlags : List Byte → Nat := field 2 40
def rootCluster : List Byte → Nat := field 4 44
def bpbInfoSect : List Byte → Nat := field 2 48
def fsType (buf : List Byte) : List Byte := (buf.drop 82).take 8

/-- `get_part_lba(buf, partition, lba)`: what it stores, if it succeeds. -/
def getPartLba (buf : List Byte) (partition : Nat) : Option Nat :=
  if field 2 510 buf ≠ 0xAA55 then none
  else if field 1 (446 + 16 * partition + 4) buf ≠ 0x0C then none
  else some (field 4 (446 + 16 * partition + 8) buf)

/-- The sectors of the clusters, as `check_fat` counts them. -/
def clusterSectors (buf : List Byte) : Nat :=
  u32 (sectCnt32 buf + 2 ^ 32 - u32 (resSectCnt buf + fatCnt buf * sectPerFat32 buf))

/-- `check_fat(buf)`. -/
def checkFat (buf : List Byte) : Except Trap Bool :=
  if field 1 0 buf ≠ 0xEB ∧ field 1 0 buf ≠ 0xE9 then .ok false
  else if fatCnt buf ≠ 2 then .ok false
  else if rootEntCnt buf ≠ 0 ∨ sectCnt16 buf ≠ 0 ∨ sectPerFat16 buf ≠ 0 then .ok false
  else if bpbInfoSect buf ≠ 1 then .ok false
  else if fsType buf ≠ text "FAT32   " then .ok false
  else if bytesPerSect buf ≠ 512 then .ok false
  else if extFlags buf &&& 2 ^ 7 = 0 ∧ extFlags buf &&& 0x000F > 1 then .ok false
  else if sectPerClust buf = 0 then .error .divide
  else .ok (clusterSectors buf / sectPerClust buf ≥ 65525)

/-- `__builtin_ctz` of a byte. -/
def ctz (n : Nat) : Nat := ((List.range 8).find? n.testBit).getD 8

/-- The fields that `fat_mount` takes over from the parameters in `buf`, of a volume at `lba`. -/
def FatFs.setBpb (fat : FatFs) (buf : List Byte) (lba : Nat) : FatFs :=
  let mirror := extFlags buf &&& 2 ^ 7 ≠ 0
  let useFirst := extFlags buf &&& 0x0001 = 0
  let fat0 := u32 (lba + resSectCnt buf)
  let fat1 := u32 (lba + resSectCnt buf + sectPerFat32 buf)
  { fat with
    clustShift := ctz (sectPerClust buf)
    clustMsk := sectPerClust buf - 1
    clustCnt := u32 (sectPerFat32 buf * 128)
    rootClust := rootCluster buf
    fatSect0 := if useFirst then fat0 else fat1
    fatSect1 := if mirror then (if useFirst then fat1 else fat0) else 0
    infoSect := u32 (lba + bpbInfoSect buf)
    dataSect := u32 (lba + resSectCnt buf + fatCnt buf * sectPerFat32 buf) }

/-- The tests of `fat_mount` on `FsInfo`. -/
def fsInfoBad (buf : List Byte) : Prop :=
  field 4 508 buf ≠ 0xAA550000 ∨ field 4 0 buf ≠ 0x41615252 ∨ field 4 484 buf ≠ 0x61417272 ∨
    field 4 492 buf = 0xFFFFFFFF ∨ field 4 488 buf = 0xFFFFFFFF

instance (buf : List Byte) : Decidable (fsInfoBad buf) := by unfold fsInfoBad; infer_instance

section Mount
variable {σ : Type} (read : Nat → σ → Option (List Byte) × σ)

/-- `probe(ops, partition, lba)`, with `read` for `ops->read`: its return value, what it stores in
    `*lba`, and `g_buf`. -/
def probe (partition : Nat) (s : σ) : Except Trap ((Int × Nat × List Byte) × σ) :=
  match read 0 s with
  | (none, s) => .ok ((errIo, 0, []), s)
  | (some buf, s) => do
    if ← checkFat buf then return ((if partition = 0 then errNone else errNofat, 0, buf), s)
    else
      match getPartLba buf partition with
      | none => return ((errNofat, 0, buf), s)
      | some lba =>
        match read lba s with
        | (none, s) => return ((errIo, lba, buf), s)
        | (some buf, s) => return ((if ← checkFat buf then errNone else errNofat, lba, buf), s)

/-- `fat_mount(ops, partition, fat, name)`: its return value, and `*fat`. -/
def fatMount (partition : Nat) (fat : FatFs) (name : List Byte) (s : σ) :
    Except Trap ((Int × FatFs) × σ) := do
  let ((err, lba, buf), s) ← probe read partition s
  if err ≠ errNone then return ((err, fat), s)
  else
    let fat := fat.setBpb buf lba
    match read fat.infoSect s with
    | (none, s) => return ((errIo, fat), s)
    | (some buf, s) =>
      if fsInfoBad buf then return ((errNofat, fat), s)
      else
        let fat := { fat with lastUsed := field 4 492 buf, freeCnt := field 4 488 buf }
        if name.length > 32 then return ((errParam, fat), s)
        else return ((errNone, { fat with name }), s)

/-- A FAT32 volume without an MBR mounts. -/
lemma fatMount_ok (read : Nat → σ → Option (List Byte) × σ) (fat : FatFs) (name : List Byte)
    {s s1 s2 : σ} {bpb info : List Byte} (first : read 0 s = (some bpb, s1))
    (fat32 : checkFat bpb = .ok true)
    (second : read (fat.setBpb bpb 0).infoSect s1 = (some info, s2)) (good : ¬ fsInfoBad info)
    (short : name.length ≤ 32) :
    ∃ fat', fatMount read 0 fat name s = .ok ((errNone, fat'), s2) := by
  have found : probe read 0 s = .ok ((errNone, 0, bpb), s1) := by
    unfold probe
    rw [first]
    dsimp only
    rw [fat32]
    rfl
  unfold fatMount
  rw [found, ok_bind]
  dsimp only
  rw [if_neg (not_not.mpr rfl), second]
  dsimp only
  rw [if_neg good, if_neg (Nat.not_lt.mpr short)]
  exact ⟨_, rfl⟩

end Mount

end TRS.Fat
