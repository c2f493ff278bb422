import TRS.Disk.Basic

/-!
# The task file

The registers from which a drive takes a 28-bit LBA and a count, and what the driver's seven stores
leave in them.

* `programmed_lba28`, `programmed_secCount`: the LBA modulo 2^28 and the count are read back.
* `programmed_sel`, `programmed_lbaMode`: the drive and the LBA mode are read back.

All are about single bits of the drive register, by the bits of its three parts.
-/

namespace TRS.Disk
open TRS.Lib

/-- The registers that a drive latches with a command. -/
structure TaskFile where
  secCount : Byte
  lba0 : Byte
  lba1 : Byte
  lba2 : Byte
  drive : Byte
  deriving DecidableEq, Repr

namespace TaskFile

/-- A store to a register. -/
def store (r : TaskFile) (reg : Nat) (v : Byte) : TaskFile :=
  if reg = ataRegSecCount then { r with secCount := v }
  else if reg = ataRegLba0 then { r with lba0 := v }
  else if reg = ataRegLba1 then { r with lba1 := v }
  else if reg = ataRegLba2 then { r with lba2 := v }
  else if reg = ataRegDrive then { r with drive := v }
  else r

/-- The LBA: the low nibble of the drive register, LBA2, LBA1 and LBA0. -/
def lba28 (r : TaskFile) : Nat :=
  r.drive.toNat % 2 ^ 4 * 2 ^ 24 + r.lba2.toNat * 2 ^ 16 + r.lba1.toNat * 2 ^ 8 + r.lba0.toNat

/-- The drive that the drive register selects. -/
def sel (r : TaskFile) : Nat := if r.drive.getLsbD 4 then 1 else 0

/-- The drive register selects LBA addressing. -/
def lbaMode (r : TaskFile) : Bool := r.drive.getLsbD 6

/-- What `startCommand` leaves in the registers. -/
def programmed (drive : Byte) (lba count : Nat) : TaskFile where
  secCount := BitVec.ofNat 8 count
  lba0 := BitVec.ofNat 8 (lba &&& 0xFF)
  lba1 := BitVec.ofNat 8 ((lba >>> 8) &&& 0xFF)
  lba2 := BitVec.ofNat 8 ((lba >>> 16) &&& 0xFF)
  drive := 0xE0#8 ||| drive <<< 4 ||| BitVec.ofNat 8 ((lba >>> 24) &&& 0x0F)

/-- The low nibble of the drive register is that of the address. -/
lemma drive_nibble (d : Byte) (x : Nat) :
    (0xE0#8 ||| d <<< 4 ||| BitVec.ofNat 8 (x &&& 0x0F)).toNat % 2 ^ 4 = x % 2 ^ 4 := by
  have high : (d.toNat <<< 4 % 2 ^ 8) % 2 ^ 4 = 0 := by
    rw [Nat.shiftLeft_eq]
    omega
  have low : (x &&& 0x0F) % 2 ^ 8 % 2 ^ 4 = x % 2 ^ 4 := by
    rw [show (0x0F : Nat) = 2 ^ 4 - 1 from rfl, and_mask]
    omega
  rw [BitVec.toNat_or, BitVec.toNat_or, BitVec.toNat_shiftLeft, BitVec.toNat_ofNat,
    BitVec.toNat_ofNat, Nat.or_mod_two_pow, Nat.or_mod_two_pow, high, low]
  exact Nat.zero_or _

/-- The value of the low byte of a number. -/
lemma byte_toNat (x : Nat) : (BitVec.ofNat 8 (x &&& 0xFF)).toNat = x % 2 ^ 8 := by
  rw [BitVec.toNat_ofNat, show (0xFF : Nat) = 2 ^ 8 - 1 from rfl, and_mask, Nat.mod_mod]

/-- The registers hold the LBA without the bits from 28 on. -/
lemma programmed_lba28 (drive : Byte) (lba count : Nat) :
    (programmed drive lba count).lba28 = lba % 2 ^ 28 := by
  simp only [lba28, programmed, drive_nibble, byte_toNat, Nat.shiftRight_eq_div_pow]
  omega

/-- The count register holds the count. -/
lemma programmed_secCount (drive : Byte) (lba : Nat) {count : Nat} (le : count ≤ 255) :
    (programmed drive lba count).secCount.toNat = count := by
  rw [programmed, BitVec.toNat_ofNat]
  omega

/-- The high bits of the drive register are the fixed ones and those of the drive. -/
lemma drive_bit (d : Byte) (x : Nat) {i : Nat} (ge : 4 ≤ i) (lt : i < 8) :
    (0xE0#8 ||| d <<< 4 ||| BitVec.ofNat 8 (x &&& 0x0F)).getLsbD i =
      ((0xE0#8).getLsbD i || d.getLsbD (i - 4)) := by
  have low : (BitVec.ofNat 8 (x &&& 0x0F)).getLsbD i = false := by
    rw [BitVec.getLsbD_ofNat, Nat.testBit_and, Nat.testBit_lt_two_pow (x := 0x0F) (i := i),
      Bool.and_false, Bool.and_false]
    exact Nat.lt_of_lt_of_le (by decide) (Nat.pow_le_pow_right (by decide) ge)
  have high : (decide (i < 8) && !decide (i < 4)) = true := by simp [lt, ge]
  rw [BitVec.getLsbD_or, BitVec.getLsbD_or, BitVec.getLsbD_shiftLeft, low, high, Bool.true_and,
    Bool.or_false]

/-- The drive register selects a drive by the low bit of `disk->drive`. -/
lemma programmed_sel_eq (drive : Byte) (lba count : Nat) :
    (programmed drive lba count).sel = if drive.getLsbD 0 then 1 else 0 := by
  rw [sel, programmed, drive_bit _ _ (by decide) (by decide)]
  rfl

/-- The drive register selects the drive it was programmed with. -/
lemma programmed_sel {dr : Nat} (lt : dr < 2) (lba count : Nat) :
    (programmed (BitVec.ofNat 8 dr) lba count).sel = dr := by
  rw [programmed_sel_eq]
  rcases (by omega : dr = 0 ∨ dr = 1) with rfl | rfl
  · rfl
  · rfl

/-- The access is by LBA. -/
lemma programmed_lbaMode (drive : Byte) (lba count : Nat) :
    (programmed drive lba count).lbaMode = true := by
  rw [lbaMode, programmed, drive_bit _ _ (by decide) (by decide)]
  rfl

end TaskFile

end TRS.Disk
