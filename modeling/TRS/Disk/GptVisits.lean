import TRS.Disk.Gpt
import TRS.Lib.Logged

/-!
# The visits of the GPT lookup

`kernel/driver/gpt.c` with the sectors that the lookup asks for and the entries that it examines.

* `gptFindPartitionLog_val`: the logged lookup is the lookup.
* `gptFindPartitionLog_refused`, `gptFindPartitionLog_accepted`: its visits, by the header.
-/

namespace TRS.Disk
open TRS.Lib TRS.Libc

/-- What the lookup does with the disk and the table. -/
inductive Visit where
  | sector (lba : Nat)
  | entry
  deriving DecidableEq, Repr

/-- The header passes the checks of the lookup. -/
structure HeaderOk (hdr : List Byte) : Prop where
  sig : hdr.take 8 = text "EFI PART"
  pos : headerCount hdr ≠ 0
  le : headerCount hdr ≤ 512
  size_ge : gptEntrySize ≤ headerSize hdr
  size_le : headerSize hdr ≤ diskSectorSize

section Log
variable {σ : Type} (bus : Bus σ) (polls : Nat) (disks : List DiskT) (id : Nat)

/-- The loop over the entries, with its visits. -/
def gptScanLog (partsPerSector : Nat) (typeGuid : List Byte) (out : GptPart) :
    (n i : Nat) → (sec : List Byte) → σ → Logged (Except Fault ((Int × GptPart) × σ)) Visit
  | 0, _, _, s => ⟨.ok ((-1, out), s), []⟩
  | n + 1, i, sec, s =>
    if i < headerCount sec then
      let lba := u64 (headerLba sec + i / partsPerSector)
      let asked := if i % partsPerSector = 0 then [Visit.sector lba] else []
      let (sec, s) :=
        if i % partsPerSector = 0 then readSector bus polls disks id lba s else (some sec, s)
      match sec with
      | none => ⟨.ok ((-1, out), s), asked⟩
      | some sec =>
        match matchEntry typeGuid (sec.drop (i % partsPerSector * headerCount sec)) with
        | .error f => ⟨.error f, asked ++ [.entry]⟩
        | .ok (some part) => ⟨.ok ((0, part), s), asked ++ [.entry]⟩
        | .ok none =>
          let rest := gptScanLog partsPerSector typeGuid out n (i + 1) sec s
          ⟨rest.val, asked ++ .entry :: rest.log⟩
    else ⟨.ok ((-1, out), s), []⟩

/-- `gpt_find_partition(disk_id, type_guid, out)`, with its visits. -/
def gptFindPartitionLog (typeGuid : List Byte) (out : GptPart) (s : σ) :
    Logged (Except Fault ((Int × GptPart) × σ)) Visit :=
  let (sec, s) := readSector bus polls disks id 1 s
  match sec with
  | none => ⟨.ok ((-1, out), s), [.sector 1]⟩
  | some sec =>
    match memcmp 8 sec (text "EFI PART") with
    | .error f => ⟨.error f, [.sector 1]⟩
    | .ok c =>
      if c ≠ 0 then ⟨.ok ((-1, out), s), [.sector 1]⟩
      else if headerCount sec = 0 ∨ headerCount sec > 512 then ⟨.ok ((-1, out), s), [.sector 1]⟩
      else if headerSize sec < gptEntrySize ∨ headerSize sec > diskSectorSize then
        ⟨.ok ((-1, out), s), [.sector 1]⟩
      else
        let rest := gptScanLog bus polls disks id (diskSectorSize / headerSize sec) typeGuid out
          (2 ^ 32) 0 sec s
        ⟨rest.val, .sector 1 :: rest.log⟩

variable {bus polls disks id}

/-- The visits change nothing. -/
lemma gptScanLog_val (pps : Nat) (g : List Byte) (out : GptPart) (n i : Nat) (sec : List Byte)
    (s : σ) : (gptScanLog bus polls disks id pps g out n i sec s).val =
      gptScan bus polls disks id pps g out n i sec s := by
  induction n generalizing i sec s with
  | zero => rfl
  | succ n ih =>
    rw [gptScanLog, gptScan]
    dsimp only
    split
    · generalize (if i % pps = 0 then readSector bus polls disks id
        (u64 (headerLba sec + i / pps)) s else (some sec, s)) = r
      obtain ⟨sec', s'⟩ := r
      cases sec' with
      | none => rfl
      | some sec' =>
        dsimp only
        cases matchEntry g (sec'.drop (i % pps * headerCount sec')) with
        | error f => rfl
        | ok found =>
          cases found with
          | none => exact ih (i + 1) sec' s'
          | some part => rfl
    · rfl

/-- The logged search is the search. -/
lemma gptFindPartitionLog_val (g : List Byte) (out : GptPart) (s : σ) :
    (gptFindPartitionLog bus polls disks id g out s).val =
      gptFindPartition bus polls disks id g out s := by
  unfold gptFindPartitionLog gptFindPartition
  generalize readSector bus polls disks id 1 s = r
  obtain ⟨sec, s⟩ := r
  cases sec with
  | none => rfl
  | some sec =>
    dsimp only
    cases memcmp 8 sec (text "EFI PART") with
    | error f => rfl
    | ok c =>
      dsimp only
      rw [ok_bind]
      split
      · rfl
      · split
        · rfl
        · split
          · rfl
          · exact gptScanLog_val ..

end Log

/-- What a round asks for. -/
def asked (partsPerSector i : Nat) (sec : List Byte) : List Visit :=
  if i % partsPerSector = 0 then [.sector (u64 (headerLba sec + i / partsPerSector))] else []

section Header
variable {σ : Type} {bus : Bus σ} {polls : Nat} {disks : List DiskT} {id : Nat} {g hdr : List Byte}
  {out : GptPart} {s s' : σ}

/-- A sector that is no header ends the lookup. -/
lemma gptFindPartitionLog_refused (read : readSector bus polls disks id 1 s = (some hdr, s'))
    (long : 8 ≤ hdr.length) (bad : ¬ HeaderOk hdr) :
    gptFindPartitionLog bus polls disks id g out s = ⟨.ok ((-1, out), s'), [.sector 1]⟩ := by
  obtain ⟨c, cmp, zero⟩ := memcmp_ok (n := 8) (a := hdr) (b := text "EFI PART") long (by decide)
  unfold gptFindPartitionLog
  rw [read]
  dsimp only
  rw [cmp]
  dsimp only
  split
  · rfl
  · next c0 =>
    split
    · rfl
    · next count =>
      split
      · rfl
      · next size =>
        rw [not_or] at count size
        exact absurd ⟨(zero.mp (Decidable.not_not.mp c0)).trans rfl, count.1,
          Nat.le_of_not_lt count.2, Nat.le_of_not_lt size.1, Nat.le_of_not_lt size.2⟩ bad

/-- A header starts the search. -/
lemma gptFindPartitionLog_accepted (read : readSector bus polls disks id 1 s = (some hdr, s'))
    (long : 8 ≤ hdr.length) (ok : HeaderOk hdr) :
    gptFindPartitionLog bus polls disks id g out s =
      ⟨(gptScanLog bus polls disks id (diskSectorSize / headerSize hdr) g out (2 ^ 32) 0 hdr
          s').val,
        .sector 1 :: (gptScanLog bus polls disks id (diskSectorSize / headerSize hdr) g out (2 ^ 32)
          0 hdr s').log⟩ := by
  obtain ⟨c, cmp, zero⟩ := memcmp_ok (n := 8) (a := hdr) (b := text "EFI PART") long (by decide)
  have c0 : c = 0 := zero.mpr (ok.sig.trans rfl)
  have count : ¬ (headerCount hdr = 0 ∨ headerCount hdr > 512) :=
    not_or.mpr ⟨ok.pos, Nat.not_lt.mpr ok.le⟩
  have size : ¬ (headerSize hdr < gptEntrySize ∨ headerSize hdr > diskSectorSize) :=
    not_or.mpr ⟨Nat.not_lt.mpr ok.size_ge, Nat.not_lt.mpr ok.size_le⟩
  unfold gptFindPartitionLog
  rw [read]
  dsimp only
  rw [cmp]
  dsimp only
  rw [if_neg (not_not_intro c0), if_neg count, if_neg size]

end Header

end TRS.Disk
