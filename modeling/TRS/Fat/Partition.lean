import TRS.Disk.GptSearch
import TRS.Disk.Range
import TRS.Fat.Mount

/-!
# The sectors of the partition

`fat32_init`, `fat32_read_sect` and `fat32_write_sect` of `driver/fat32.c`: the FAT library works on
the sectors of the EFI system partition, counted from its first one. The first sector of the
partition is all that is kept of its entry.

* `Glue.request_args`: the request that a sector of the library becomes.
* `Addresses`: the absolute sector, the count, and the LBA that the command carries.
* `fat32ReadSect_refines`, `fat32WriteSect_refines`: such a request on a store of sectors.

The headline `partition_sectors` follows the addresses from the lookup to the command;
`sector_behind_partition` is a sector beyond the end of the partition, which is read all the same.
-/

namespace TRS.Fat
open TRS.Lib TRS.Disk

/-- `esp_type_guid`. -/
def espTypeGuid : List Byte :=
  [0x28#8, 0x73#8, 0x2A#8, 0xC1#8, 0x1F#8, 0xF8#8, 0xD2#8, 0x11#8, 0xBA#8, 0x4B#8, 0x00#8, 0xA0#8,
    0xC9#8, 0x3E#8, 0xC9#8, 0x3B#8]

/-- `g_disk_id`, `g_base_lba`, `g_mounted` and `g_fat`. -/
structure Glue where
  diskId : Nat
  baseLba : Nat
  mounted : Bool
  fat : FatFs

/-- What `fat32_read_sect(buf, sect)` calls, or `fat32_write_sect` with the words at `buf`. -/
def Glue.request (g : Glue) (buf sect : Nat) (data : Option (Nat → Word)) : Request :=
  match data with
  | none => .read ⟨g.diskId, u64 (g.baseLba + sect), 1, buf⟩
  | some data => .write ⟨g.diskId, u64 (g.baseLba + sect), 1, buf⟩ data

/-- The address of a sector does not wrap around. -/
lemma Glue.request_args {g : Glue} {buf sect : Nat} (base : g.baseLba < 2 ^ 32) (lt : sect < 2 ^ 32)
    (data : Option (Nat → Word)) :
    (g.request buf sect data).args = ⟨g.diskId, g.baseLba + sect, 1, buf⟩ := by
  have lba : u64 (g.baseLba + sect) = g.baseLba + sect := u64_of_lt (by omega)
  cases data with
  | none => exact congrArg (Args.mk _ · _ _) lba
  | some data => exact congrArg (Args.mk _ · _ _) lba

section Init
variable {σ : Type} (bus : Bus σ) (polls : Nat) (disks : List DiskT)

/-- `gpt_find_esp(disk_id, out)`. -/
def gptFindEsp (id : Nat) (out : GptPart) (s : σ) : Except Fault ((Int × GptPart) × σ) :=
  gptFindPartition bus polls disks id espTypeGuid out s

/-- `fat32_read_sect(buf, sect)`: what it stores, if it succeeds. -/
def fat32ReadSect (g : Glue) (buf sect : Nat) (s : σ) : Option (List Byte) × σ :=
  let ((rc, ws), s) := (g.request buf sect none).perform bus polls disks s
  (if rc ≠ 0 then none else some (wordBytes ws), s)

/-- `fat32_write_sect(buf, sect)`. -/
def fat32WriteSect (g : Glue) (buf : Nat) (data : Nat → Word) (sect : Nat) (s : σ) : Bool × σ :=
  let ((rc, _), s) := (g.request buf sect (some data)).perform bus polls disks s
  (rc = 0, s)

/-- `fat32_init(disk_id)`. -/
def fat32Init (g : Glue) (id : Nat) (s : σ) : Except Trap ((Int × Glue) × σ) := do
  -- the local `esp` is stored before it is read
  let ((rc, esp), s) ← (gptFindEsp bus polls disks id ⟨0, 0⟩ s).mapError Trap.access
  if rc ≠ 0 then return ((errNofat, g), s)
  else
    let g := { g with diskId := id, baseLba := u32 esp.fristLba }
    let ((err, fat), s) ← fatMount (fat32ReadSect bus polls disks g 1) 0 g.fat (text "dsk") s
    if err ≠ errNone then return ((err, { g with fat }), s)
    else return ((errNone, { g with fat, mounted := true }), s)

/-- A call asks for sector `lba` of disk `id`, sends its command if the disk has this sector and is
    not busy, and otherwise reports a failure and stores nothing. On a disk within 28 bits, the
    command that it sends selects its drive and carries this LBA and the count 1, and at most
    flushes follow it. -/
structure Addresses (r : Request) (ok : Bool) (id lba buf : Nat) (s : σ) : Prop where
  args : r.args = ⟨id, lba, 1, buf⟩
  issued : r.Issues bus polls disks s ↔ buf ≠ 0 ∧ ∃ disk, disks[id]? = some disk ∧
    lba < disk.sectors ∧ (ataWaitBsy bus polls disk.ioBase s).1 = 0
  command : r.Issues bus polls disks s → ∀ disk, disks[id]? = some disk →
    disk.sectors ≤ 2 ^ 28 → ∀ regs, ∃ tf flush,
      commands disk.ioBase regs (r.stores bus polls disks s) = (r.cmd, tf) :: flush ∧
      tf.lba28 = lba ∧ tf.secCount.toNat = 1 ∧ tf.lbaMode = true ∧
      tf.sel = (if disk.drive.getLsbD 0 then 1 else 0) ∧ ∀ c ∈ flush, c.1 = ataCmdFlush
  refused : ¬ r.Issues bus polls disks s → ok = false ∧ r.stores bus polls disks s = []

variable {bus polls disks} {g g' : Glue} {id : Nat} {s s' : σ}

/-- A mount leaves the disk and the first sector of the partition. -/
lemma fat32Init_base (init : fat32Init bus polls disks g id s = .ok ((errNone, g'), s')) :
    ∃ esp s1, gptFindEsp bus polls disks id ⟨0, 0⟩ s = .ok ((0, esp), s1) ∧
      g'.diskId = id ∧ g'.baseLba = u32 esp.fristLba := by
  obtain ⟨⟨⟨rc, esp⟩, s1⟩, find, init⟩ := bind_eq_ok.mp init
  have found := mapError_eq_ok.mp find
  dsimp only at init
  split at init
  · cases init
  · next ok =>
    obtain rfl : rc = 0 := not_not.mp ok
    obtain ⟨⟨⟨err, fat⟩, s2⟩, _, init⟩ := bind_eq_ok.mp init
    refine ⟨esp, s1, found, ?_⟩
    dsimp only at init
    split at init
    · next bad =>
      obtain rfl : err = errNone := congrArg (fun r => r.1.1) (Except.ok.inj init)
      exact absurd rfl bad
    · cases init
      exact ⟨rfl, rfl⟩

/-- A read into an array is a read of the lookup, at the translated address. -/
lemma fat32ReadSect_eq {sect lba : Nat} (disk : g.diskId = id)
    (base : u64 (g.baseLba + sect) = lba) :
    fat32ReadSect bus polls disks g 1 sect s = readSector bus polls disks id lba s := by
  subst disk
  subst base
  rfl

/-- A request for one sector at an address that does not wrap around. -/
lemma Addresses.of_args {r : Request} {ok : Bool} {lba buf : Nat}
    (args : r.args = ⟨id, lba, 1, buf⟩) (fits : lba + 1 < 2 ^ 64)
    (rc : (r.perform bus polls disks s).1.1 = -1 → ok = false) :
    Addresses bus polls disks r ok id lba buf s := by
  have sum : u64 (lba + 1) = lba + 1 := u64_of_lt fits
  have issued : r.Issues bus polls disks s ↔ buf ≠ 0 ∧ ∃ disk, disks[id]? = some disk ∧
      lba < disk.sectors ∧ (ataWaitBsy bus polls disk.ioBase s).1 = 0 := by
    rw [Request.issues_iff]
    unfold Request.Reaches
    simp only [Args.check_eq_some, args]
    constructor
    · rintro ⟨disk, ⟨e, passes⟩, free⟩
      have fits := passes.fits
      rw [sum] at fits
      exact ⟨passes.buf, disk, e, fits, free⟩
    · rintro ⟨buf0, disk, e, inside, free⟩
      exact ⟨disk, ⟨e, buf0, Nat.one_pos, (by decide : 1 ≤ 255), sum.symm ▸ inside⟩, free⟩
  refine ⟨args, issued, fun sent disk e small regs => ?_, fun quiet => ?_⟩
  · obtain ⟨_, disk', e', inside, _⟩ := issued.mp sent
    rw [e] at e'
    cases e'
    have stored : r.stores bus polls disks s ≠ [] := by
      obtain ⟨_, v, _, mem⟩ := sent
      exact List.ne_nil_of_mem mem
    obtain ⟨flush, all, flushes⟩ := Request.commands_eq (by rw [args]; exact e) stored regs
    refine ⟨_, flush, all, ?_, ?_, TaskFile.programmed_lbaMode _ _ _,
      TaskFile.programmed_sel_eq _ _ _, flushes⟩
    · rw [args, TaskFile.programmed_lba28]
      exact Nat.mod_eq_of_lt (by dsimp only; omega)
    · rw [args]
      exact TaskFile.programmed_secCount _ _ (by decide : 1 ≤ 255)
  · have on : r.OnDisk bus polls disks s := Request.onDisk fun _ => by rw [args]; exact fits
    obtain ⟨fails, none_⟩ := on.refused quiet
    exact ⟨rc fails, none_⟩

end Init

/-- After `fat32_init` has mounted, with a partition whose first sector is below 2^32, an access to
    sector `sect` of the partition is an access to sector `first_lba + sect` of the disk: it sends
    its command if the disk has that sector, with this LBA where the disk is within 28 bits, and
    otherwise reports a failure and touches no register. -/
theorem partition_sectors {σ : Type} {bus : Bus σ} {polls : Nat} {disks : List DiskT} {g g' : Glue}
    {id : Nat} {s s' : σ} (init : fat32Init bus polls disks g id s = .ok ((errNone, g'), s')) :
    ∃ esp s1, gptFindEsp bus polls disks id ⟨0, 0⟩ s = .ok ((0, esp), s1) ∧
      (esp.fristLba < 2 ^ 32 → ∀ sect < 2 ^ 32, ∀ buf t,
        Addresses bus polls disks (g'.request buf sect none)
          (fat32ReadSect bus polls disks g' buf sect t).1.isSome id (esp.fristLba + sect) buf t ∧
        ∀ data, Addresses bus polls disks (g'.request buf sect (some data))
          (fat32WriteSect bus polls disks g' buf data sect t).1 id (esp.fristLba + sect) buf
          t) := by
  obtain ⟨esp, s1, found, disk, base⟩ := fat32Init_base init
  refine ⟨esp, s1, found, fun small sect lt buf t => ?_⟩
  rw [u32_of_lt small] at base
  have args : ∀ data, (g'.request buf sect data).args = ⟨id, esp.fristLba + sect, 1, buf⟩ := by
    rw [← disk, ← base]
    exact Glue.request_args (base ▸ small) lt
  refine ⟨.of_args (args none) (by omega) ?_, fun data => .of_args (args (some data)) (by omega) ?_⟩
  · intro fails
    unfold fat32ReadSect
    dsimp only
    rw [fails]
    rfl
  · intro fails
    unfold fat32WriteSect
    dsimp only
    rw [fails]
    rfl

/-! ## On drives -/

section Drives
variable {polls : Nat} {disks : List DiskT} {m : Machine} {st : Store} {g : Glue} {buf sect : Nat}
  {disk : DiskT}

/-- On drives that hold a store, a read of a sector of the partition yields the sector of the store
    that lies that far behind the first one. -/
lemma fat32ReadSect_refines (ok : TableOk disks) (ref : Refines polls disks m st) (buf0 : buf ≠ 0)
    (base : g.baseLba < 2 ^ 32) (lt : sect < 2 ^ 32) (e : disks[g.diskId]? = some disk)
    (inside : g.baseLba + sect < disk.sectors) :
    ∃ m', fat32ReadSect ataBus polls disks g buf sect m =
        (some (wordBytes (st g.diskId (g.baseLba + sect)).words), m') ∧
      Refines polls disks m' st := by
  have valid : Args.Valid ⟨g.diskId, g.baseLba + sect, 1, buf⟩ disks :=
    ⟨disk, e, buf0, Nat.one_pos, (by decide : 1 ≤ 255), inside⟩
  obtain ⟨m', run, ref'⟩ := read_refines ok ref valid (by dsimp only; omega)
  have request : g.request buf sect none = .read ⟨g.diskId, g.baseLba + sect, 1, buf⟩ :=
    congrArg Request.read (Glue.request_args base lt none)
  refine ⟨m', ?_, ref'⟩
  unfold fat32ReadSect
  rw [request, run]
  simp [Store.read]

/-- And a write stores that sector of the store. -/
lemma fat32WriteSect_refines (ok : TableOk disks) (ref : Refines polls disks m st) (buf0 : buf ≠ 0)
    (base : g.baseLba < 2 ^ 32) (lt : sect < 2 ^ 32) (e : disks[g.diskId]? = some disk)
    (inside : g.baseLba + sect < disk.sectors) (data : Nat → Word) :
    ∃ m', fat32WriteSect ataBus polls disks g buf data sect m = (true, m') ∧
      Refines polls disks m' (st.write ⟨g.diskId, g.baseLba + sect, 1, buf⟩ data) := by
  have valid : Args.Valid ⟨g.diskId, g.baseLba + sect, 1, buf⟩ disks :=
    ⟨disk, e, buf0, Nat.one_pos, (by decide : 1 ≤ 255), inside⟩
  obtain ⟨m', run, ref'⟩ := write_refines ok ref valid (by dsimp only; omega) data
  have request : g.request buf sect (some data) =
      .write ⟨g.diskId, g.baseLba + sect, 1, buf⟩ data :=
    congrArg (Request.write · data) (Glue.request_args base lt (some data))
  refine ⟨m', ?_, ref'⟩
  unfold fat32WriteSect
  rw [request, run]
  rfl

end Drives

/-- A disk with one partition, the EFI system partition in the sectors 3 to 131074: sectors 1 and 2
    hold the table, 3 and 4 the parameters of a FAT32 volume of 131072 sectors. -/
def espDisk (lba : Nat) : Sector :=
  if lba = 1 then
    wordsAt [(0, 0x4645#16), (1, 0x2049#16), (2, 0x4150#16), (3, 0x5452#16), (36, 2#16), (40, 4#16),
      (42, 128#16)]
  else if lba = 2 then
    wordsAt [(0, 0x7328#16), (1, 0xC12A#16), (2, 0xF81F#16), (3, 0x11D2#16), (4, 0x4BBA#16),
      (5, 0xA000#16), (6, 0x3EC9#16), (7, 0x3BC9#16), (16, 3#16), (20, 2#16), (21, 2#16)]
  else if lba = 3 then
    wordsAt [(0, 0x00EB#16), (6, 0x0102#16), (7, 32#16), (8, 2#16), (17, 2#16), (18, 0x0400#16),
      (22, 2#16), (24, 1#16), (41, 0x4146#16), (42, 0x3354#16), (43, 0x2032#16), (44, 0x2020#16)]
  else if lba = 4 then
    wordsAt [(0, 0x5252#16), (1, 0x4161#16), (242, 0x7272#16), (243, 0x6141#16), (244, 1000#16),
      (246, 3#16), (255, 0xAA55#16)]
  else wordsAt []

/-- Its drive, of 2^18 sectors. -/
def espDrive : Drive := ⟨wordsAt [(61, 4#16)], espDisk⟩

/-- A machine with this drive. -/
def espMachine : Machine := driveMachine espDrive

/-- The disk table of this machine. -/
def espDisks : List DiskT := driveTable (2 ^ 18)

/-- The sectors of this disk. -/
def espStore : Store := fun _ => espDisk

/-- The image of this disk. -/
def espImage : Image := Store.image espStore espDisks 0

/-- The disk answers with its sectors. -/
lemma espAnswers : Answers ataBus pollLimit espDisks 0 espImage fun m =>
    Refines pollLimit espDisks m espStore :=
  driveTable_answers (by decide) espStore

/-- The machine holds this disk. -/
lemma espMachine_refines : Refines pollLimit espDisks espMachine espStore := by
  have cap : espDrive.capacity = 2 ^ 18 := by decide +kernel
  have ref := driveMachine_refines espDrive
  rw [cap] at ref
  exact ref

/-- Its table has four entries of 128 bytes. -/
lemma espImage_hasTable : espImage.HasTable 2 4 128 where
  header := ⟨wordBytes (espDisk 1).words, rfl, by decide +kernel⟩
  pos := by decide
  le := by decide
  sizes := .inl rfl
  inside j lt := by
    obtain rfl : j = 0 := by omega
    exact ⟨by decide, rfl⟩

/-- The lookup finds the partition in entry 0. -/
lemma esp_found : ∃ m, Refines pollLimit espDisks m espStore ∧
    gptFindEsp ataBus pollLimit espDisks 0 ⟨0, 0⟩ espMachine = .ok ((0, ⟨3, 131074⟩), m) := by
  obtain ⟨hdr, m1, ref1, start, run⟩ :=
    gptFindPartition_scan espAnswers espImage_hasTable espTypeGuid ⟨0, 0⟩ espMachine_refines
  obtain ⟨n, rounds⟩ : ∃ n, 2 ^ 32 = n + 1 := ⟨2 ^ 32 - 1, by omega⟩
  have first : espImage 2 = some (wordBytes (espDisk 2).words) := rfl
  have entry : matchEntry espTypeGuid (slot (512 / 128) (wordBytes (espDisk 2).words) 0) =
      .ok (some ⟨3, 131074⟩) := by decide +kernel
  rw [rounds] at run
  rcases gptScan_round espAnswers (512 / 128) espTypeGuid ⟨0, 0⟩ n 0 hdr ref1 with
    ⟨none_, _⟩ | ⟨sec, m2, some_, ref2, round⟩
  · rw [start, first] at none_
    cases none_
  · rw [start, first] at some_
    cases some_
    rw [entry] at round
    exact ⟨m2, ref2, run.trans round⟩

/-- The volume mounts. -/
lemma esp_mounts (g : Glue) : ∃ g' m,
    fat32Init ataBus pollLimit espDisks g 0 espMachine = .ok ((errNone, g'), m) ∧
      g'.diskId = 0 ∧ g'.baseLba = 3 ∧ Refines pollLimit espDisks m espStore := by
  obtain ⟨m1, ref1, found⟩ := esp_found
  obtain ⟨m2, bpb, keep⟩ := espAnswers.read 3 m1 (by decide) ref1
  have some3 : espImage 3 = some (wordBytes (espDisk 3).words) := rfl
  have ref2 := keep (by rw [some3]; exact Option.some_ne_none _)
  obtain ⟨m3, info, keep⟩ := espAnswers.read 4 m2 (by decide) ref2
  have some4 : espImage 4 = some (wordBytes (espDisk 4).words) := rfl
  have ref3 := keep (by rw [some4]; exact Option.some_ne_none _)
  rw [some3] at bpb
  rw [some4] at info
  have field_ : bpbInfoSect (wordBytes (espDisk 3).words) = 1 := by decide +kernel
  have sect : (g.fat.setBpb (wordBytes (espDisk 3).words) 0).infoSect = 1 :=
    congrArg (fun n => u32 (0 + n)) field_
  obtain ⟨fat, mount⟩ := fatMount_ok
    (fat32ReadSect ataBus pollLimit espDisks { g with diskId := 0, baseLba := u32 3 } 1) g.fat
    (text "dsk") ((fat32ReadSect_eq rfl rfl).trans bpb) (by decide +kernel)
    (by rw [sect]; exact (fat32ReadSect_eq rfl rfl).trans info) (by decide +kernel) (by decide)
  refine ⟨{ g with diskId := 0, baseLba := u32 3, fat, mounted := true }, m3, ?_, rfl, rfl, ref3⟩
  unfold fat32Init
  rw [found]
  simp only [Except.mapError, ok_bind, ne_eq, not_true_eq_false, if_false]
  rw [mount]
  rfl

/-- The EFI system partition of that disk, mounted. -/
theorem partition_sectors_esp : ∃ g' m,
    fat32Init ataBus pollLimit espDisks ⟨0, 0, false, ⟨0, 0, 0, 0, 0, 0, 0, 0, 0, 0, []⟩⟩ 0
      espMachine = .ok ((errNone, g'), m) ∧
    ∃ esp s1, gptFindEsp ataBus pollLimit espDisks 0 ⟨0, 0⟩ espMachine = .ok ((0, esp), s1) ∧
      (esp.fristLba < 2 ^ 32 → ∀ sect < 2 ^ 32, ∀ buf t,
        Addresses ataBus pollLimit espDisks (g'.request buf sect none)
          (fat32ReadSect ataBus pollLimit espDisks g' buf sect t).1.isSome 0 (esp.fristLba + sect)
          buf t ∧
        ∀ data, Addresses ataBus pollLimit espDisks (g'.request buf sect (some data))
          (fat32WriteSect ataBus pollLimit espDisks g' buf data sect t).1 0 (esp.fristLba + sect)
          buf t) := by
  obtain ⟨g', m, init, _⟩ := esp_mounts ⟨0, 0, false, ⟨0, 0, 0, 0, 0, 0, 0, 0, 0, 0, []⟩⟩
  exact ⟨g', m, init, partition_sectors init⟩

/-- A read of sector 131072 of the partition, which has as many sectors, succeeds: it reads the
    sector behind the partition. -/
theorem sector_behind_partition : ∃ g' m m1 m2,
    fat32Init ataBus pollLimit espDisks ⟨0, 0, false, ⟨0, 0, 0, 0, 0, 0, 0, 0, 0, 0, []⟩⟩ 0
      espMachine = .ok ((errNone, g'), m) ∧
    gptFindEsp ataBus pollLimit espDisks 0 ⟨0, 0⟩ espMachine = .ok ((0, ⟨3, 131074⟩), m1) ∧
    ¬ 3 + 131072 ≤ 131074 ∧
    fat32ReadSect ataBus pollLimit espDisks g' 1 131072 m =
      (some (wordBytes (espStore 0 131075).words), m2) := by
  obtain ⟨g', m, init, disk, base, ref⟩ :=
    esp_mounts ⟨0, 0, false, ⟨0, 0, 0, 0, 0, 0, 0, 0, 0, 0, []⟩⟩
  obtain ⟨m1, _, found⟩ := esp_found
  have here : espDisks[g'.diskId]? = some ⟨2 ^ 18, 0x1F0, 0x3F6, 0#8, 1⟩ := by
    rw [disk]
    rfl
  have lt : 131072 < 2 ^ 32 := by decide
  obtain ⟨m2, read, _⟩ := fat32ReadSect_refines (driveTable_ok (by decide)) ref Nat.one_ne_zero
    (by rw [base]; decide) lt here (by rw [base]; decide)
  have sum : 3 + 131072 = 131075 := rfl
  rw [base, disk, sum] at read
  exact ⟨g', m, m1, m2, init, found, by decide, read⟩

end TRS.Fat
