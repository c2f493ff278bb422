import Mathlib.Tactic.IntervalCases
import TRS.Lib.Word

/-!
# Timestamps

`encode_timestamp` and `decode_timestamp` of the FAT library (`trfs/fat32/fat.c`), which pack a date
and a time of day into 16 bits each.

* `decode_date`, `decode_time`: the packed fields do not overlap, bit by bit.
* `field_eq`: a field that fits its bits survives the mask.

The headline `decodeTimestamp_encode` says that a moment from 1980 to 2043 is read back in even
seconds.
-/

namespace TRS.Fat

/-- `Timestamp`. -/
structure Timestamp where
  hour : BitVec 8
  min : BitVec 8
  sec : BitVec 8
  day : BitVec 8
  month : BitVec 8
  year : BitVec 16
  deriving DecidableEq, Repr

/-- A field of a timestamp, as an `int`. -/
abbrev int32 {w : Nat} (x : BitVec w) : BitVec 32 := x.setWidth 32

/-- `encode_timestamp`, of the time `ts`: the date and the time. -/
def encodeTimestamp (ts : Timestamp) : BitVec 16 × BitVec 16 :=
  (((((int32 ts.year - 1980#32) &&& 0x3F#32) <<< 9) ||| ((int32 ts.month &&& 0xF#32) <<< 5) |||
      (int32 ts.day &&& 0x1F#32)).setWidth 16,
    (((int32 ts.sec / 2#32) &&& 0x1F#32) ||| ((int32 ts.min &&& 0x3F#32) <<< 5) |||
      ((int32 ts.hour &&& 0x1F#32) <<< 11)).setWidth 16)

/-- `decode_timestamp(date, time, ts)`. -/
def decodeTimestamp (date time : BitVec 16) : Timestamp where
  day := (int32 date &&& 0x1F#32).setWidth 8
  month := ((int32 date >>> 5) &&& 0xF#32).setWidth 8
  year := (((int32 date >>> 9) &&& 0x3F#32) + 1980#32).setWidth 16
  hour := ((int32 time >>> 11) &&& 0x1F#32).setWidth 8
  min := ((int32 time >>> 5) &&& 0x3F#32).setWidth 8
  sec := (2#32 * (int32 time &&& 0x1F#32)).setWidth 8

/-- The fields fit the bits that the directory has for them. -/
structure Timestamp.Fits (ts : Timestamp) : Prop where
  year_ge : 1980 ≤ ts.year.toNat
  year_lt : ts.year.toNat < 2044
  month : ts.month.toNat < 16
  day : ts.day.toNat < 32
  hour : ts.hour.toNat < 32
  min : ts.min.toNat < 64
  sec : ts.sec.toNat < 64

/-- The moment in even seconds. -/
def Timestamp.evened (ts : Timestamp) : Timestamp :=
  { ts with sec := BitVec.ofNat 8 (2 * (ts.sec.toNat / 2)) }

section Fields
variable (a b c : BitVec 32)

/-- The fields of a date are apart. -/
lemma decode_date :
    let date : BitVec 16 :=
      (((a &&& 0x3F#32) <<< 9) ||| ((b &&& 0xF#32) <<< 5) ||| (c &&& 0x1F#32)).setWidth 16
    int32 date &&& 0x1F#32 = c &&& 0x1F#32 ∧ (int32 date >>> 5) &&& 0xF#32 = b &&& 0xF#32 ∧
      (int32 date >>> 9) &&& 0x3F#32 = a &&& 0x3F#32 := by
  intro date
  refine ⟨?_, ?_, ?_⟩
  · ext i lt
    simp only [date, BitVec.getElem_and, BitVec.getElem_setWidth, BitVec.getLsbD_setWidth,
      BitVec.getLsbD_or, BitVec.getLsbD_and, BitVec.getLsbD_shiftLeft]
    interval_cases i <;> simp
  · ext i lt
    simp only [date, BitVec.getElem_and, BitVec.getElem_ushiftRight, BitVec.getLsbD_setWidth,
      BitVec.getLsbD_or, BitVec.getLsbD_and, BitVec.getLsbD_shiftLeft]
    interval_cases i <;> simp
  · ext i lt
    simp only [date, BitVec.getElem_and, BitVec.getElem_ushiftRight, BitVec.getLsbD_setWidth,
      BitVec.getLsbD_or, BitVec.getLsbD_and, BitVec.getLsbD_shiftLeft]
    interval_cases i <;> simp

/-- The fields of a time of day are apart. -/
lemma decode_time :
    let time : BitVec 16 :=
      ((a &&& 0x1F#32) ||| ((b &&& 0x3F#32) <<< 5) ||| ((c &&& 0x1F#32) <<< 11)).setWidth 16
    int32 time &&& 0x1F#32 = a &&& 0x1F#32 ∧ (int32 time >>> 5) &&& 0x3F#32 = b &&& 0x3F#32 ∧
      (int32 time >>> 11) &&& 0x1F#32 = c &&& 0x1F#32 := by
  intro time
  refine ⟨?_, ?_, ?_⟩
  · ext i lt
    simp only [time, BitVec.getElem_and, BitVec.getElem_setWidth, BitVec.getLsbD_setWidth,
      BitVec.getLsbD_or, BitVec.getLsbD_and, BitVec.getLsbD_shiftLeft]
    interval_cases i <;> simp
  · ext i lt
    simp only [time, BitVec.getElem_and, BitVec.getElem_ushiftRight, BitVec.getLsbD_setWidth,
      BitVec.getLsbD_or, BitVec.getLsbD_and, BitVec.getLsbD_shiftLeft]
    interval_cases i <;> simp
  · ext i lt
    simp only [time, BitVec.getElem_and, BitVec.getElem_ushiftRight, BitVec.getLsbD_setWidth,
      BitVec.getLsbD_or, BitVec.getLsbD_and, BitVec.getLsbD_shiftLeft]
    interval_cases i <;> simp

end Fields

/-- A number below `2 ^ k` survives a mask of `k` bits. -/
lemma and_mask_of_lt {x mask : BitVec 32} {k : Nat} (eq : mask.toNat = 2 ^ k - 1)
    (lt : x.toNat < 2 ^ k) : x &&& mask = x := by
  refine BitVec.eq_of_toNat_eq ?_
  rw [BitVec.toNat_and, eq, Nat.and_two_pow_sub_one_eq_mod, Nat.mod_eq_of_lt lt]

/-- A field that fits its bits is read back. -/
lemma field_eq {w k : Nat} {x : BitVec w} {mask : BitVec 32} (eq : mask.toNat = 2 ^ k - 1)
    (lt : x.toNat < 2 ^ k) (le : w ≤ 32) : (int32 x &&& mask).setWidth w = x := by
  have wide : (int32 x).toNat = x.toNat := BitVec.toNat_setWidth_of_le le
  rw [and_mask_of_lt eq (wide.trans_lt lt)]
  refine BitVec.eq_of_toNat_eq ?_
  rw [BitVec.toNat_setWidth, wide, Nat.mod_eq_of_lt x.isLt]

/-- What is decoded of an encoded moment is the moment in even seconds. -/
theorem decodeTimestamp_encode {ts : Timestamp} (fits : ts.Fits) :
    decodeTimestamp (encodeTimestamp ts).1 (encodeTimestamp ts).2 = ts.evened := by
  obtain ⟨day, month, year⟩ := decode_date (int32 ts.year - 1980#32) (int32 ts.month) (int32 ts.day)
  obtain ⟨sec, min, hour⟩ := decode_time (int32 ts.sec / 2#32) (int32 ts.min) (int32 ts.hour)
  have years : (int32 ts.year).toNat = ts.year.toNat := BitVec.toNat_setWidth_of_le (by decide)
  have secs : (int32 ts.sec).toNat = ts.sec.toNat := BitVec.toNat_setWidth_of_le (by decide)
  have ge := fits.year_ge
  have lt := fits.year_lt
  have short := fits.sec
  have evened : (2#32 * (int32 ts.sec / 2#32 &&& 0x1F#32)).setWidth 8 =
      BitVec.ofNat 8 (2 * (ts.sec.toNat / 2)) := by
    have half : (int32 ts.sec / 2#32).toNat = ts.sec.toNat / 2 := by
      rw [BitVec.toNat_udiv, secs]
      rfl
    rw [and_mask_of_lt (k := 5) rfl (by omega)]
    refine BitVec.eq_of_toNat_eq ?_
    rw [BitVec.toNat_setWidth, BitVec.toNat_mul, half, BitVec.toNat_ofNat, BitVec.toNat_ofNat]
    omega
  have since : ((int32 ts.year - 1980#32 &&& 0x3F#32) + 1980#32).setWidth 16 = ts.year := by
    have diff : (int32 ts.year - 1980#32).toNat = ts.year.toNat - 1980 := by
      rw [BitVec.toNat_sub, years, BitVec.toNat_ofNat]
      omega
    rw [and_mask_of_lt (k := 6) rfl (by omega), BitVec.sub_add_cancel]
    refine BitVec.eq_of_toNat_eq ?_
    rw [BitVec.toNat_setWidth, years, Nat.mod_eq_of_lt ts.year.isLt]
  unfold decodeTimestamp encodeTimestamp Timestamp.evened
  dsimp only
  rw [day, month, year, sec, min, hour, field_eq (k := 5) rfl fits.hour (by decide),
    field_eq (k := 6) rfl fits.min (by decide), field_eq (k := 5) rfl fits.day (by decide),
    field_eq (k := 4) rfl fits.month (by decide), evened, since]

end TRS.Fat
