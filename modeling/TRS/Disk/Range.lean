import TRS.Disk.Lba28

/-!
# Commands and the end of the disk

`read_disk` and `write_disk` refuse a request whose `lba + count` passes the number of sectors of
the disk. The sum is taken modulo 2^64, so that a request near the end of the 64-bit range passes
and its command goes to the disk; all other requests stay on the disk or touch no register.

* `Request.refused_of_not_reaches`: a call that does not get past the busy wait stores nothing.
* `Request.issues_iff`: a call issues its command exactly if it does.

The headline `commands_on_disk_iff` compares the check modulo 2^64 with the range of the disk;
`last_lba_passes` is a request at the last address.
-/

namespace TRS.Disk
open TRS.Lib

section Range
variable {σ : Type*} (bus : Bus σ) (polls : Nat) (disks : List DiskT) (s : σ)

namespace Request

/-- The call stores to the command register of its disk. -/
def Issues (r : Request) : Prop :=
  ∃ disk v, disks[r.args.id]? = some disk ∧
    (disk.ioBase + ataRegCommand, v) ∈ r.stores bus polls disks s

/-- The arguments pass the checks, and the channel stops being busy. -/
def Reaches (r : Request) : Prop :=
  ∃ disk, r.args.check disks = some disk ∧ (ataWaitBsy bus polls disk.ioBase s).1 = 0

/-- The range of the request, over the natural numbers, lies on its disk. -/
def InRange (r : Request) : Prop :=
  ∃ disk, disks[r.args.id]? = some disk ∧ r.args.lba + r.args.count ≤ disk.sectors

/-- A command goes to a range on the disk, and a call without a command returns -1 and has stored
    nothing. -/
structure OnDisk (r : Request) : Prop where
  inside : r.Issues bus polls disks s → r.InRange disks
  refused : ¬ r.Issues bus polls disks s →
    (r.perform bus polls disks s).1.1 = -1 ∧ r.stores bus polls disks s = []

end Request

variable {bus polls disks s} {r : Request}

/-- A call that does not get past the busy wait returns -1 and stores nothing. -/
lemma Request.refused_of_not_reaches (no : ¬ r.Reaches bus polls disks s) :
    (r.perform bus polls disks s).1.1 = -1 ∧ r.stores bus polls disks s = [] := by
  have busy : ∀ disk, r.args.check disks = some disk →
      (ataWaitBsy bus polls disk.ioBase s).1 ≠ 0 := fun disk e free => no ⟨disk, e, free⟩
  constructor
  · cases e : r.args.check disks with
    | none =>
      cases r with
      | read a =>
        change a.check disks = none at e
        simp only [perform, readDisk, e]
      | write a data =>
        change a.check disks = none at e
        simp only [perform, writeDisk, e]
    | some disk =>
      have wait := busy disk e
      cases r with
      | read a =>
        change a.check disks = some disk at e
        simp only [perform, readDisk, e]
        rw [if_pos wait]
      | write a data =>
        change a.check disks = some disk at e
        simp only [perform, writeDisk, e]
        rw [if_pos wait]
  · rcases r.stores_cases bus polls disks s with ⟨none, _⟩ | ⟨disk, rest, e, stores, _⟩
    · exact none
    · cases r with
      | read a => exact (readDisk_record bus polls e (s, [])).trans (if_pos (busy disk e))
      | write a data => exact writeDisk_record_busy bus polls e data (s := (s, [])) (busy disk e)

/-- A call issues its command exactly if it gets past the busy wait. -/
lemma Request.issues_iff : r.Issues bus polls disks s ↔ r.Reaches bus polls disks s := by
  constructor
  · rintro ⟨disk, v, _, mem⟩
    by_contra no
    rw [(refused_of_not_reaches no).2] at mem
    cases mem
  · rintro ⟨disk, e, free⟩
    rcases r.stores_cases bus polls disks s with ⟨_, busy⟩ | ⟨d, rest, e', stores, _⟩
    · exact absurd free (busy disk e)
    · rw [e] at e'
      cases e'
      refine ⟨disk, r.cmd, (Args.check_eq_some.mp e).1, ?_⟩
      rw [stores]
      exact List.mem_append_left rest (by simp [startStores])

/-- A call whose `lba + count` does not wrap around stays on its disk. -/
lemma Request.onDisk (fits : r.Reaches bus polls disks s → r.args.lba + r.args.count < 2 ^ 64) :
    r.OnDisk bus polls disks s where
  inside issues := by
    have reaches := issues_iff.mp issues
    obtain ⟨disk, e, _⟩ := id reaches
    obtain ⟨at_, passes⟩ := Args.check_eq_some.mp e
    refine ⟨disk, at_, ?_⟩
    -- without a wrap, the sum that was compared is the sum
    have sum := passes.fits
    rwa [u64_of_lt (fits reaches)] at sum
  refused quiet := refused_of_not_reaches fun reaches => quiet (issues_iff.mpr reaches)

end Range

/-- The commands of a call stay on the disk if and only if, whenever the call passes its checks and
    finds the channel free, `lba + count` does not pass 2^64. -/
theorem commands_on_disk_iff {σ : Type*} (bus : Bus σ) (polls : Nat) (disks : List DiskT) (s : σ)
    (r : Request) (sectors : ∀ disk ∈ disks, disk.sectors < 2 ^ 64) :
    r.OnDisk bus polls disks s ↔
      (r.Reaches bus polls disks s → r.args.lba + r.args.count < 2 ^ 64) := by
  constructor
  · intro on reaches
    obtain ⟨disk, e, le⟩ := on.inside (Request.issues_iff.mpr reaches)
    exact Nat.lt_of_le_of_lt le (sectors disk (List.mem_of_getElem? e))
  · exact Request.onDisk

/-- Reading the last sector of a disk of a hundred, on devices that are never busy. -/
theorem commands_on_disk_iff_last :
    (Request.read ⟨0, 99, 1, 1⟩).OnDisk readyBus pollLimit [⟨100, 0x1F0, 0x3F6, 0#8, 1⟩] () ↔
      ((Request.read ⟨0, 99, 1, 1⟩).Reaches readyBus pollLimit [⟨100, 0x1F0, 0x3F6, 0#8, 1⟩] () →
        99 + 1 < 2 ^ 64) :=
  commands_on_disk_iff readyBus pollLimit [⟨100, 0x1F0, 0x3F6, 0#8, 1⟩] () (.read ⟨0, 99, 1, 1⟩)
    (by decide)

/-- A read of sector 2^64 - 1 of a disk of a hundred sectors sends its command. -/
theorem last_lba_passes :
    ¬ (Request.read ⟨0, 2 ^ 64 - 1, 1, 1⟩).OnDisk readyBus pollLimit
      [⟨100, 0x1F0, 0x3F6, 0#8, 1⟩] () := by
  intro on
  have reaches : (Request.read ⟨0, 2 ^ 64 - 1, 1, 1⟩).Reaches readyBus pollLimit
      [⟨100, 0x1F0, 0x3F6, 0#8, 1⟩] () :=
    ⟨⟨100, 0x1F0, 0x3F6, 0#8, 1⟩, by decide, by decide +kernel⟩
  obtain ⟨disk, e, le⟩ := on.inside (Request.issues_iff.mpr reaches)
  cases e
  exact absurd le (by decide)

end TRS.Disk
