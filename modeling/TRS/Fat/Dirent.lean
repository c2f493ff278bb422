import TRS.Fat.Handles
import TRS.Lib.Word

/-!
# Directories of a program

`SYS_OPENDIR`, `SYS_READDIR` and `SYS_CLOSEDIR` of `kernel/sys.c`, and `libc/dirent.c` above them.
The library structure `DirInfo` has the layout of the kernel's `AbiDirInfo`.

The descriptor goes through a 64-bit register and is an `int` again behind it (`intOf_toRax`).
-/

namespace TRS.Fat
open TRS.Lib

variable {δ : Type*}

/-- `ABI_NAME_MAX`. -/
abbrev abiNameMax : Nat := 32

/-- `AbiDirInfo`. -/
structure AbiDirInfo where
  name : List Byte
  size : Nat
  attr : Byte
  nameLen : Nat
  deriving DecidableEq, Repr

/-- `(unsigned long long)(long long)rc`. -/
def toRax (rc : Int) : Nat := (rc % 2 ^ 64).toNat

/-- `(int)` of a register. -/
def intOf (rax : Nat) : Int := i32 (u32 rax)

/-- What `SYS_READDIR` stores: at most 32 bytes of the name, in an array of zeros. -/
def abiDirInfo (info : DirInfo) : AbiDirInfo :=
  let n := if info.nameLen > abiNameMax then abiNameMax else info.nameLen
  ⟨info.name.take n ++ List.replicate (abiNameMax + 1 - n) 0#8, info.size, info.attr, n⟩

/-- The address of the local `info`, which is not null. -/
abbrev infoAddr : Nat := 1

/-- `SYS_OPENDIR`: `rax`, and the table. -/
def FatDir.sysOpendir (F : FatDir δ) (g : Fat32 δ) (path : Option (List Byte)) : Nat × Fat32 δ :=
  match path with
  | none => (toRax errParam, g)
  | some path => (toRax (F.fat32DirOpen g (some path)).1, (F.fat32DirOpen g (some path)).2)

/-- `SYS_READDIR` for the handle in `rdx` and the structure at `rdi`: `rax`, what the structure
    holds then, and the table. A read that succeeds has stored its answer in `info`. -/
def FatDir.sysReaddir (F : FatDir δ) (g : Fat32 δ) (rdx rdi : Nat) (out : AbiDirInfo) :
    Nat × AbiDirInfo × Fat32 δ :=
  if rdi = 0 then (toRax errParam, out, g)
  else
    let ((rc, info), g) := F.fat32DirRead g (intOf rdx) infoAddr
    if rc ≠ errNone then (toRax rc, out, g)
    else (0, (info.map abiDirInfo).getD out, g)

/-- `SYS_CLOSEDIR`. -/
def FatDir.sysClosedir (F : FatDir δ) (g : Fat32 δ) (rdx : Nat) : Nat × Fat32 δ :=
  (toRax (F.fat32DirClose g (intOf rdx)).1, (F.fat32DirClose g (intOf rdx)).2)

/-- `opendir(dir, name)`: its return value, what it stores in `dir->fd`, and the table. -/
def FatDir.opendir (F : FatDir δ) (g : Fat32 δ) (dir : Nat) (name : Option (List Byte)) :
    Int × Option Int × Fat32 δ :=
  if dir = 0 ∨ name = none then (-1, none, g)
  else
    let (rax, g) := F.sysOpendir g name
    let fd := intOf rax
    if fd < 0 then (fd, none, g) else (0, some fd, g)

/-- `ATTR_LABEL`. -/
abbrev attrLabel : Byte := 0x08#8

/-- The two tests of the loop of `readdir`: a volume label, or one of the names `.` and `..`. -/
def skipped (inf : AbiDirInfo) : Bool :=
  inf.attr &&& attrLabel ≠ 0#8 ∨
    inf.name.getD 0 0#8 = 0x2E#8 ∧ (inf.name.getD 1 0#8 = 0#8 ∨
      inf.name.getD 1 0#8 = 0x2E#8 ∧ inf.name.getD 2 0#8 = 0#8)

/-- At most `fuel` rounds of the loop of `readdir` on the descriptor `fd`: the return value, what is
    stored in `*info`, and the table. -/
def FatDir.readdirLoop (F : FatDir δ) (fd : Int) :
    (fuel : Nat) → (inf : AbiDirInfo) → Fat32 δ → Option (Int × Option AbiDirInfo × Fat32 δ)
  | 0, _, _ => none
  | fuel + 1, inf, g =>
    let (rax, inf, g) := F.sysReaddir g (toRax fd) infoAddr inf
    let rc := intOf rax
    if rc ≠ 0 then some (rc, none, g)
    -- `continue`: the local `inf` keeps what the call stored
    else if skipped inf then F.readdirLoop fd fuel inf g
    else some (0, some inf, g)

/-- `readdir(dir, info)` on a `DIR` with the descriptor `fd`. -/
def FatDir.readdir (F : FatDir δ) (fuel : Nat) (g : Fat32 δ) (dir : Nat) (fd : Int) (info : Nat)
    (inf : AbiDirInfo) : Option (Int × Option AbiDirInfo × Fat32 δ) :=
  if dir = 0 ∨ info = 0 then some (-1, none, g) else F.readdirLoop fd fuel inf g

/-- `closedir(dir)`: its return value, what it stores in `dir->fd`, and the table. -/
def FatDir.closedir (F : FatDir δ) (g : Fat32 δ) (dir : Nat) (fd : Int) :
    Int × Option Int × Fat32 δ :=
  if dir = 0 then (-1, none, g)
  else (intOf (F.sysClosedir g (toRax fd)).1, some (-1), (F.sysClosedir g (toRax fd)).2)

/-! ## Codes through registers -/

/-- A code survives the way through `rax`. -/
lemma intOf_toRax {rc : Int} (lo : -2 ^ 31 ≤ rc) (hi : rc < 2 ^ 31) : intOf (toRax rc) = rc := by
  unfold intOf toRax i32 u32
  split <;> omega

end TRS.Fat
