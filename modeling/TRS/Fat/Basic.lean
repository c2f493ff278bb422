import Mathlib.Logic.Function.Basic
import TRS.Lib.Mem
import TRS.Lib.Run

/-!
# Open directories

The directory part of `driver/fat32.c`: a table of ten slots over the directory functions of the FAT
library. The library and the disk under it are a parameter (`FatDir`): functions of the `Dir` that
they are given, as on a disk that does not change.

* `readSlot_stuck`, `readSlot_stepped`: a read, by whether the step before it succeeds.
* `openFrom_first`: the loop of `fat32_dir_open` takes the first free slot.
-/

namespace TRS.Fat
open TRS.Lib

/-- `FAT_ERR_NONE`. -/
abbrev errNone : Int := 0

/-- `FAT_ERR_IO`. -/
abbrev errIo : Int := -3

/-- `FAT_ERR_PARAM`. -/
abbrev errParam : Int := -4

/-- `FAT_ERR_EOF`. -/
abbrev errEof : Int := -6

/-- `FAT_ERR_FULL`. -/
abbrev errFull : Int := -8

/-- `DirInfo` of the FAT library, without its timestamps. -/
structure DirInfo where
  size : Nat
  attr : Byte
  name : List Byte
  nameLen : Nat
  deriving DecidableEq, Repr

/-- `fat_dir_open`, `fat_dir_read` (with the `DirInfo` that it stores) and `fat_dir_next`, and the
    `Dir` whose bytes are zero. -/
structure FatDir (δ : Type*) where
  fatDirOpen : δ → List Byte → Int × δ
  fatDirRead : δ → Int × Option DirInfo × δ
  fatDirNext : δ → Int × δ
  zero : δ

/-- `DirSlot`. -/
structure DirSlot (δ : Type*) where
  dir : δ
  used : Bool
  needNext : Bool

/-- `MAX_OPENDIRS`. -/
abbrev maxOpendirs : Nat := 10

/-- `g_mounted` and `g_dirs`. -/
structure Fat32 (δ : Type*) where
  mounted : Bool
  dirs : Nat → DirSlot δ

variable {δ : Type*}

/-- Store a slot. -/
def Fat32.setDir (g : Fat32 δ) (i : Nat) (s : DirSlot δ) : Fat32 δ :=
  { g with dirs := Function.update g.dirs i s }

/-- The slot whose bytes are zero. -/
def FatDir.zeroSlot (F : FatDir δ) : DirSlot δ := ⟨F.zero, false, false⟩

/-- What `fat32_init` leaves when it succeeds for the first time. -/
def FatDir.fat32Init (F : FatDir δ) : Fat32 δ := ⟨true, fun _ => F.zeroSlot⟩

/-- The body of the loop of `fat32_dir_open` on a free slot, which ends the call. -/
def FatDir.openSlot (F : FatDir δ) (g : Fat32 δ) (path : List Byte) (i : Nat) : Int × Fat32 δ :=
  let r := F.fatDirOpen (g.dirs i).dir path
  -- where the open fails, the slot stays free but its `Dir` keeps what was stored in it
  if r.1 ≠ errNone then (r.1, g.setDir i { g.dirs i with dir := r.2 })
  else (i, g.setDir i ⟨r.2, true, false⟩)

/-- The loop of `fat32_dir_open` from slot `i` on, with `n` slots left. -/
def FatDir.openFrom (F : FatDir δ) (g : Fat32 δ) (path : List Byte) : (n i : Nat) → Int × Fat32 δ
  | 0, _ => (errFull, g)
  | n + 1, i =>
    if (g.dirs i).used then F.openFrom g path n (i + 1) else F.openSlot g path i

/-- `fat32_dir_open(path)`; the path may be `NULL`. -/
def FatDir.fat32DirOpen (F : FatDir δ) (g : Fat32 δ) (path : Option (List Byte)) : Int × Fat32 δ :=
  match path with
  | none => (errParam, g)
  | some path => if g.mounted then F.openFrom g path maxOpendirs 0 else (errParam, g)

/-- `fat32_dir_read(slot, info)` behind its checks: the slot may have to step on first. -/
def FatDir.readSlot (F : FatDir δ) (s : DirSlot δ) : (Int × Option DirInfo) × DirSlot δ :=
  let next := if s.needNext then F.fatDirNext s.dir else (errNone, s.dir)
  if next.1 ≠ errNone then ((next.1, none), { s with dir := next.2 })
  else
    let read := F.fatDirRead next.2
    ((read.1, read.2.1), { s with dir := read.2.2, needNext := true })

/-- Where a slot is read: its `Dir`, or the next position. -/
def FatDir.stepped (F : FatDir δ) (s : DirSlot δ) : Int × δ :=
  if s.needNext then F.fatDirNext s.dir else (errNone, s.dir)

/-- `fat32_dir_read(slot, info)`. -/
def FatDir.fat32DirRead (F : FatDir δ) (g : Fat32 δ) (slot : Int) (info : Nat) :
    (Int × Option DirInfo) × Fat32 δ :=
  if slot < 0 ∨ slot ≥ maxOpendirs ∨ info = 0 ∨ !(g.dirs slot.toNat).used then ((errParam, none), g)
  else
    let (ans, s) := F.readSlot (g.dirs slot.toNat)
    (ans, g.setDir slot.toNat s)

/-- `fat32_dir_close(slot)`. -/
def FatDir.fat32DirClose (F : FatDir δ) (g : Fat32 δ) (slot : Int) : Int × Fat32 δ :=
  if slot < 0 ∨ slot ≥ maxOpendirs ∨ !(g.dirs slot.toNat).used then (errParam, g)
  else (errNone, g.setDir slot.toNat F.zeroSlot)

/-- A read whose step fails goes no further. -/
lemma readSlot_stuck {F : FatDir δ} {s : DirSlot δ} (bad : (F.stepped s).1 ≠ errNone) :
    F.readSlot s = (((F.stepped s).1, none), { s with dir := (F.stepped s).2 }) := if_pos bad

/-- A read that has stepped on reports what it finds. -/
lemma readSlot_stepped {F : FatDir δ} {s : DirSlot δ} (ok : (F.stepped s).1 = errNone) :
    F.readSlot s = (((F.fatDirRead (F.stepped s).2).1, (F.fatDirRead (F.stepped s).2).2.1),
      ⟨(F.fatDirRead (F.stepped s).2).2.2, s.used, true⟩) := if_neg (not_not.mpr ok)

@[simp] lemma setDir_same (g : Fat32 δ) (i : Nat) (s : DirSlot δ) : (g.setDir i s).dirs i = s :=
  Function.update_self ..

lemma setDir_other (g : Fat32 δ) {i j : Nat} (s : DirSlot δ) (ne : j ≠ i) :
    (g.setDir i s).dirs j = g.dirs j := Function.update_of_ne ne ..

/-- The loop of `fat32_dir_open` takes the first free slot, if there is one. -/
lemma openFrom_first (F : FatDir δ) (g : Fat32 δ) (path : List Byte) (n i : Nat) :
    (∃ j, i ≤ j ∧ j < i + n ∧ (g.dirs j).used = false ∧
      F.openFrom g path n i = F.openSlot g path j) ∨
    ((∀ j, i ≤ j → j < i + n → (g.dirs j).used = true) ∧ F.openFrom g path n i = (errFull, g)) := by
  induction n generalizing i with
  | zero => exact .inr ⟨fun j h1 h2 => by omega, rfl⟩
  | succ n ih =>
    rw [FatDir.openFrom]
    by_cases used : (g.dirs i).used = true
    · rw [if_pos used]
      rcases ih (i + 1) with ⟨j, h1, h2, rest⟩ | ⟨all, e⟩
      · exact .inl ⟨j, by omega, by omega, rest⟩
      · refine .inr ⟨fun j h1 h2 => ?_, e⟩
        rcases Nat.eq_or_lt_of_le h1 with rfl | lt
        · exact used
        · exact all j lt (by omega)
    · rw [if_neg used]
      exact .inl ⟨i, Nat.le_refl i, by omega, Bool.eq_false_iff.mpr used, rfl⟩

/-- `fat32_dir_open` on a mounted volume. -/
lemma fat32DirOpen_first (F : FatDir δ) {g : Fat32 δ} (mounted : g.mounted = true)
    (path : List Byte) :
    (∃ j < maxOpendirs, (g.dirs j).used = false ∧
      F.fat32DirOpen g (some path) = F.openSlot g path j) ∨
    ((∀ j < maxOpendirs, (g.dirs j).used = true) ∧
      F.fat32DirOpen g (some path) = (errFull, g)) := by
  have loop : F.fat32DirOpen g (some path) = F.openFrom g path maxOpendirs 0 := if_pos mounted
  rw [loop]
  rcases openFrom_first F g path maxOpendirs 0 with ⟨j, _, lt, free, e⟩ | ⟨all, e⟩
  · exact .inl ⟨j, by omega, free, e⟩
  · exact .inr ⟨fun j lt => all j (Nat.zero_le j) (by omega), e⟩

end TRS.Fat
