import TRS.Disk.Protocol
import TRS.Lib.Run

/-!
# The driver implements an array of sectors

The abstract store holds the sectors of every disk; a read answers the sectors of its range and a
write replaces them (`Store.step`). On conforming drives of at most 2^28 sectors the driver refines
it: after `disk_init` every sequence of calls gets the answers of the store and leaves its sectors
on the drives.

* `diskInit_refines`: the table that `disk_init` makes, and the sectors behind it, are a store.
* `read_refines`, `write_refines`: a valid request is one step of the store.
* `perform_refines`: so is any request, valid or not.

The headline `ata_implements_store` is the simulation of runs (`run_simulates`) by that step.
-/

namespace TRS.Disk
open TRS.Lib

/-! ## The store -/

/-- The sectors of every disk. -/
abbrev Store := Nat → Nat → Sector

/-- The arguments of a call name a disk, a buffer, 1 to 255 sectors, and a range inside the disk. -/
def Args.Valid (a : Args) (disks : List DiskT) : Prop :=
  ∃ disk ∈ disks[a.id]?, a.buf ≠ 0 ∧ 0 < a.count ∧ a.count ≤ 255 ∧
    a.lba + a.count ≤ disk.sectors

instance (a : Args) (disks : List DiskT) : Decidable (a.Valid disks) := by
  unfold Args.Valid; infer_instance

/-- Sector `lba` of disk `id` lies in the range of a call. -/
def Args.Covers (a : Args) (id lba : Nat) : Prop :=
  id = a.id ∧ a.lba ≤ lba ∧ lba < a.lba + a.count

instance (a : Args) (id lba : Nat) : Decidable (a.Covers id lba) := by
  unfold Args.Covers; infer_instance

namespace Store

/-- The words of the sectors in the range of a call, in order. -/
def read (st : Store) (a : Args) : List Word :=
  (List.range a.count).flatMap fun i => (st a.id (a.lba + i)).words

/-- The store with the sectors in the range of a call taken from the words of its buffer. -/
def write (st : Store) (a : Args) (data : Nat → Word) : Store := fun id lba =>
  if a.Covers id lba then .of data (256 * (lba - a.lba)) else st id lba

/-- One call. -/
def step (disks : List DiskT) (st : Store) : Request → (Int × List Word) × Store
  | .read a => if a.Valid disks then ((0, st.read a), st) else ((-1, []), st)
  | .write a data => if a.Valid disks then ((0, []), st.write a data) else ((-1, []), st)

end Store

/-- What the latest successful write of a run left in a sector, if one wrote it. -/
def lastWrite (disks : List DiskT) (id lba : Nat) : List Request → Option Sector
  | [] => none
  | .read _ :: rs => lastWrite disks id lba rs
  | .write a data :: rs =>
    (lastWrite disks id lba rs).or
      (if a.Valid disks ∧ a.Covers id lba then some (.of data (256 * (lba - a.lba))) else none)

/-- After a run a sector holds what the latest successful write left there, or what it held
    before. -/
lemma run_step_latest (disks : List DiskT) (st : Store) (rs : List Request) (id lba : Nat) :
    (run (Store.step disks) st rs).2 id lba = (lastWrite disks id lba rs).getD (st id lba) := by
  induction rs generalizing st with
  | nil => rfl
  | cons r rs ih =>
    rw [run_cons]
    dsimp only
    rw [ih]
    cases r with
    | read a =>
      have same : (Store.step disks st (.read a)).2 = st := by
        rw [Store.step]
        split <;> rfl
      rw [same, lastWrite]
    | write a data =>
      rw [lastWrite]
      cases lastWrite disks id lba rs with
      | some s => rfl
      | none =>
        rw [Option.none_or, Option.getD_none, Store.step]
        by_cases v : a.Valid disks
        · rw [if_pos v]
          by_cases c : a.Covers id lba
          · rw [if_pos ⟨v, c⟩]
            exact if_pos c
          · rw [if_neg fun h => c h.2]
            exact if_neg c
        · rw [if_neg v, if_neg fun h => v h.1]
          rfl

/-! ## Detection -/

/-- The entry that `disk_init` makes for a drive. -/
def Machine.entry (m : Machine) (ch dr : Nat) : Option DiskT :=
  match (m ch).drives dr with
  | none => none
  | some d =>
    if d.capacity = 0 then none
    else some ⟨min d.capacity ataLba28Max, ioBases ch, ctrlBases ch, BitVec.ofNat 8 dr, 1⟩

/-- The places of the four drives, in the order of `disk_init`. -/
def places : List (Nat × Nat) := [(0, 0), (0, 1), (1, 0), (1, 1)]

/-- The disks of a machine: its drives that have a sector. -/
def Machine.detected (m : Machine) : List DiskT := places.filterMap fun p => m.entry p.1 p.2

/-- A machine as `disk_init` finds it: nothing is running, every busy time is below the poll limit,
    and no drive has more than 2^28 sectors. -/
structure Machine.Conforms (polls : Nat) (m : Machine) : Prop where
  idle : ∀ ch < 2, (m ch).Idle polls
  small : ∀ ch < 2, ∀ dr < 2, ∀ d, (m ch).drives dr = some d → d.capacity ≤ 2 ^ 28

/-- Both machines have the same drives, and nothing is running on the second. -/
structure Machine.SameDrives (polls : Nat) (m m' : Machine) : Prop where
  drives : ∀ ch < 2, (m' ch).drives = (m ch).drives
  idle : ∀ ch < 2, (m' ch).Idle polls

/-- One round of `disk_init`. -/
lemma initDrive_ok {polls : Nat} {m m' : Machine} (same : m.SameDrives polls m') {ch dr : Nat}
    (lt : ch < 2) (ld : dr < 2) (disks : List DiskT) (room : disks.length < diskMax) :
    ∃ m'', initDrive ataBus polls ch dr (disks, m') = (disks ++ (m.entry ch dr).toList, m'') ∧
      m.SameDrives polls m'' ∧ (m'' ch).regs.sel = dr ∧
      ∀ i, i ≠ ch → m'' i = m' i := by
  have idle := same.idle ch lt
  -- identifying a drive changes its channel only, and leaves it idle with the same drives
  have keep : ∀ c' : Channel, c'.drives = (m' ch).drives → c'.Idle polls →
      m.SameDrives polls (m'.set ch c') := by
    intro c' e h
    refine ⟨fun i li => ?_, fun i li => ?_⟩
    · by_cases eq : i = ch
      · rw [eq, Machine.set_same, e, same.drives ch lt]
      · rw [Machine.set_other _ _ eq, same.drives i li]
    · by_cases eq : i = ch
      · rw [eq, Machine.set_same]
        exact h
      · rw [Machine.set_other _ _ eq]
        exact same.idle i li
  have frame : ∀ c' : Channel, ∀ i, i ≠ ch → m'.set ch c' i = m' i :=
    fun c' i ne => Machine.set_other _ _ ne
  unfold initDrive Machine.entry
  dsimp only
  rw [if_neg (Nat.not_le.mpr room), ← same.drives ch lt]
  cases e : (m' ch).drives dr with
  | none =>
    let c' : Channel := { m' ch with regs := .identify (BitVec.ofNat 8 dr) }
    have id := ataIdentify_absent lt ld m' idle e ⟨0, 0, 0, 0#8, 0⟩
    rw [Machine.set_self] at id
    refine ⟨m'.set ch c', ?_, keep c' rfl ⟨idle.idle, idle.ready, idle.bounded, idle.floats⟩, ?_,
      frame c'⟩
    · simp only [id]
      rw [if_neg (by decide), Option.toList_none, List.append_nil]
    · rw [Machine.set_same]
      exact TaskFile.identify_sel ld
  | some d =>
    let c' : Channel :=
      ({ m' ch with regs := .identify (BitVec.ofNat 8 dr), failed := false } : Channel).done 1
    have id := ataIdentify_present lt ld m' idle e ⟨0, 0, 0, 0#8, 0⟩
    rw [Machine.set_self] at id
    refine ⟨m'.set ch c', ?_,
      keep c' rfl ⟨rfl, rfl, fun n => idle.bounded (n + 1), idle.floats⟩, ?_, frame c'⟩
    · simp only [id]
      by_cases z : d.capacity = 0
      · simp only [z, if_true]
        rw [if_neg (by decide), Option.toList_none, List.append_nil]
      · simp only [z, if_false, if_true]
        rfl
    · rw [Machine.set_same]
      exact TaskFile.identify_sel ld

/-- An option has at most one value. -/
lemma toList_length_le {α : Type*} (o : Option α) : o.toList.length ≤ 1 := by
  cases o <;> simp

/-- `disk_init` finds the drives that have a sector, and leaves every drive as it was, with nothing
    running and drive 1 of each channel selected. -/
theorem diskInit_ok {polls : Nat} {m : Machine} (conf : m.Conforms polls) :
    ∃ m', diskInit ataBus polls m = (m.detected, m') ∧ m.SameDrives polls m' ∧
      ∀ ch < 2, (m' ch).regs.sel = 1 := by
  obtain ⟨m1, e1, same1, _, _⟩ := initDrive_ok ⟨fun _ _ => rfl, conf.idle⟩
    (show 0 < 2 by decide) (show 0 < 2 by decide) [] (by decide)
  have l1 := toList_length_le (m.entry 0 0)
  obtain ⟨m2, e2, same2, sel2, _⟩ := initDrive_ok same1
    (show 0 < 2 by decide) (show 1 < 2 by decide) ([] ++ (m.entry 0 0).toList)
    (by simp only [List.nil_append, diskMax]; omega)
  have l2 := toList_length_le (m.entry 0 1)
  obtain ⟨m3, e3, same3, _, frame3⟩ := initDrive_ok same2
    (show 1 < 2 by decide) (show 0 < 2 by decide)
    ([] ++ (m.entry 0 0).toList ++ (m.entry 0 1).toList)
    (by simp only [List.nil_append, List.length_append, diskMax]; omega)
  have l3 := toList_length_le (m.entry 1 0)
  obtain ⟨m4, e4, same4, sel4, frame4⟩ := initDrive_ok same3
    (show 1 < 2 by decide) (show 1 < 2 by decide)
    ([] ++ (m.entry 0 0).toList ++ (m.entry 0 1).toList ++ (m.entry 1 0).toList)
    (by simp only [List.nil_append, List.length_append, diskMax]; omega)
  refine ⟨m4, ?_, same4, fun ch lt => ?_⟩
  · simp only [diskInit, forRange, rounds]
    rw [e1, e2, e3, e4]
    refine congrArg (fun disks => (disks, m4)) ?_
    simp only [Machine.detected, places, List.filterMap_cons, List.filterMap_nil]
    cases m.entry 0 0 <;> cases m.entry 0 1 <;> cases m.entry 1 0 <;> cases m.entry 1 1 <;> rfl
  · rcases (by omega : ch = 0 ∨ ch = 1) with rfl | rfl
    · rw [frame4 0 (by decide), frame3 0 (by decide)]
      exact sel2
    · exact sel4

/-! ## Refinement -/

/-- The disk is a drive of the machine that holds the sectors `data`. -/
def Machine.Holds (m : Machine) (disk : DiskT) (data : Nat → Sector) : Prop :=
  ∃ ch < 2, ∃ dr < 2, disk.At ch dr ∧
    ∃ d, (m ch).drives dr = some d ∧ d.capacity = disk.sectors ∧ d.data = data

/-- The drives hold the sectors of the store, and nothing is running. -/
structure Refines (polls : Nat) (disks : List DiskT) (m : Machine) (st : Store) : Prop where
  rest : ∀ ch < 2, (m ch).Rest polls
  holds : ∀ id disk, disks[id]? = some disk → m.Holds disk (st id)

/-- No two entries of the table are one drive, and none has more than 2^28 sectors. -/
structure TableOk (disks : List DiskT) : Prop where
  distinct : ∀ (i j : Nat) (a b : DiskT), disks[i]? = some a → disks[j]? = some b → i ≠ j →
    ∀ ch < 2, ∀ dr < 2, a.At ch dr → ¬ b.At ch dr
  small : ∀ (id : Nat) (disk : DiskT), disks[id]? = some disk → disk.sectors ≤ 2 ^ 28

/-- A disk is one drive only. -/
lemma DiskT.At.unique {disk : DiskT} {ch dr ch' dr' : Nat} (h : disk.At ch dr)
    (h' : disk.At ch' dr') (lt : ch < 2) (ld : dr < 2) (lt' : ch' < 2) (ld' : dr' < 2) :
    ch = ch' ∧ dr = dr' := by
  have io : ioBases ch = ioBases ch' := h.io.symm.trans h'.io
  have drive : (BitVec.ofNat 8 dr).toNat = (BitVec.ofNat 8 dr').toNat := by
    rw [← h.drive, ← h'.drive]
  rw [BitVec.toNat_ofNat, BitVec.toNat_ofNat] at drive
  refine ⟨?_, by omega⟩
  unfold ioBases at io
  split at io <;> split at io <;> omega

/-- An entry of the table is a drive of the machine. -/
lemma detected_entry {m : Machine} {id : Nat} {disk : DiskT} (h : m.detected[id]? = some disk) :
    ∃ ch < 2, ∃ dr < 2, disk.At ch dr ∧
      ∃ d, (m ch).drives dr = some d ∧ min d.capacity ataLba28Max = disk.sectors := by
  obtain ⟨⟨ch, dr⟩, mem, e⟩ := List.mem_filterMap.mp (List.mem_of_getElem? h)
  have bounds : ∀ p ∈ places, p.1 < 2 ∧ p.2 < 2 := by decide
  obtain ⟨lt, ld⟩ := bounds _ mem
  refine ⟨ch, lt, dr, ld, ?_⟩
  dsimp only [Machine.entry] at e
  cases ed : (m ch).drives dr with
  | none =>
    rw [ed] at e
    cases e
  | some d =>
    rw [ed] at e
    dsimp only at e
    split at e
    · cases e
    · cases e
      exact ⟨⟨rfl, rfl, rfl⟩, d, rfl, rfl⟩

/-- Two entries of the table of `disk_init` are different drives. -/
lemma detected_distinct (m : Machine) :
    m.detected.Pairwise fun a b => ∀ ch < 2, ∀ dr < 2, a.At ch dr → ¬ b.At ch dr := by
  have apart : places.Pairwise fun p q => p.1 < 2 ∧ p.2 < 2 ∧ q.1 < 2 ∧ q.2 < 2 ∧ p ≠ q := by decide
  refine apart.filterMap _ ?_
  rintro ⟨ch, dr⟩ ⟨ch', dr'⟩ ⟨lt, ld, lt', ld', ne⟩ a ea b eb i li j lj ha hb
  have place : ∀ {ch dr : Nat} {a : DiskT}, m.entry ch dr = some a → a.At ch dr := by
    intro ch dr a e
    unfold Machine.entry at e
    split at e
    · cases e
    · split at e
      · cases e
      · cases e
        exact ⟨rfl, rfl, rfl⟩
  obtain ⟨e1, e2⟩ := ha.unique (place ea) li lj lt ld
  obtain ⟨e3, e4⟩ := hb.unique (place eb) li lj lt' ld'
  exact ne (Prod.ext (e1.symm.trans e3) (e2.symm.trans e4))

/-- The table that `disk_init` makes is in order. -/
lemma detected_tableOk {polls : Nat} {m : Machine} (conf : m.Conforms polls) :
    TableOk m.detected where
  distinct := by
    intro i j a b ei ej ne ch lt dr ld ha hb
    have pw := List.pairwise_iff_getElem.mp (detected_distinct m)
    obtain ⟨li, rfl⟩ := List.getElem?_eq_some_iff.mp ei
    obtain ⟨lj, rfl⟩ := List.getElem?_eq_some_iff.mp ej
    rcases Nat.lt_or_gt_of_ne ne with h | h
    · exact pw i j li lj h ch lt dr ld ha hb
    · exact pw j i lj li h ch lt dr ld hb ha
  small := by
    intro id disk e
    obtain ⟨ch, lt, dr, ld, _, d, ed, cap⟩ := detected_entry e
    have := conf.small ch lt dr ld d ed
    omega

/-- After `disk_init` the drives hold the sectors of any store that agrees with them. -/
lemma diskInit_refines {polls : Nat} {m m' : Machine} (same : m.SameDrives polls m')
    (sel : ∀ ch < 2, (m' ch).regs.sel = 1) {st : Store}
    (init : ∀ id disk, m.detected[id]? = some disk → m.Holds disk (st id)) :
    Refines polls m.detected m' st where
  rest := by
    intro ch lt
    have idle := same.idle ch lt
    refine ⟨idle.idle, idle.ready, idle.bounded, ?_⟩
    rintro ⟨dr, ld, present⟩
    by_cases p : (m' ch).selected.isSome
    · exact Channel.status_ready p idle.ready
    · have absent : (m' ch).selected = none := by simpa using p
      have at1 : (m' ch).drives 1 = none := by
        rw [← sel ch lt]
        exact absent
      have at0 : ((m' ch).drives 0).isSome := by
        rcases (by omega : dr = 0 ∨ dr = 1) with rfl | rfl
        · exact present
        · rw [at1] at present
          cases present
      unfold Channel.status
      rw [absent, sel ch lt, at0]
      dsimp only
      rw [if_pos ⟨by decide, rfl⟩]
      decide
  holds := by
    intro id disk e
    obtain ⟨ch, lt, dr, ld, at_, d, ed, rest⟩ := init id disk e
    exact ⟨ch, lt, dr, ld, at_, d, by rw [same.drives ch lt]; exact ed, rest⟩

/-- Blocks that are written are the data of their sectors. -/
lemma Drive.writeBlocks_data (d : Drive) (data : Nat → Word) (lba p n l : Nat) :
    (d.writeBlocks data lba p n).data l =
      if lba ≤ l ∧ l < lba + n then .of data (p + 256 * (l - lba)) else d.data l := by
  induction n generalizing d lba p with
  | zero => rw [Drive.writeBlocks, if_neg (by omega)]
  | succ n ih =>
    rw [Drive.writeBlocks, ih]
    by_cases tail : lba + 1 ≤ l ∧ l < lba + 1 + n
    · rw [if_pos tail, if_pos (by omega)]
      exact congrArg (Sector.of data) (by omega)
    · rw [if_neg tail]
      by_cases head : l = lba
      · subst head
        rw [if_pos (by omega), Drive.write, Nat.sub_self]
        exact if_pos rfl
      · rw [if_neg (by omega), Drive.write]
        exact if_neg head

/-- They do not change the capacity. -/
lemma Drive.writeBlocks_capacity (d : Drive) (data : Nat → Word) (lba p n : Nat) :
    (d.writeBlocks data lba p n).capacity = d.capacity := by
  induction n generalizing d lba p with
  | zero => rfl
  | succ n ih =>
    rw [Drive.writeBlocks, ih]
    rfl

/-- Arguments that are not valid fail the checks of the driver. -/
lemma Args.check_of_not_valid {a : Args} {disks : List DiskT} (sum : a.lba + a.count < 2 ^ 64)
    (nv : ¬ a.Valid disks) : a.check disks = none := by
  cases e : a.check disks with
  | none => rfl
  | some disk =>
    obtain ⟨ed, p⟩ := Args.check_eq_some.mp e
    have fits := p.fits
    rw [u64_of_lt sum] at fits
    exact absurd ⟨disk, ed, p.buf, p.pos, p.le, fits⟩ nv

/-- A call with invalid arguments fails without touching a port. -/
lemma perform_of_not_valid (polls : Nat) {disks : List DiskT} (m : Machine) {r : Request}
    (sum : r.args.lba + r.args.count < 2 ^ 64) (nv : ¬ r.args.Valid disks) :
    r.perform ataBus polls disks m = ((-1, []), m) := by
  have check := Args.check_of_not_valid sum nv
  cases r with
  | read a =>
    change a.check disks = none at check
    simp only [Request.perform, readDisk, check]
  | write a data =>
    change a.check disks = none at check
    simp only [Request.perform, writeDisk, check]

/-- A valid request is accepted by the drive of its entry. -/
lemma TableOk.accepted {disks : List DiskT} (ok : TableOk disks) {a : Args} {disk : DiskT}
    (e : disks[a.id]? = some disk) (v : a.Valid disks) (sum : a.lba + a.count < 2 ^ 64)
    {ch dr : Nat} (lt : ch < 2) (ld : dr < 2) (place : disk.At ch dr) {d : Drive}
    (cap : d.capacity = disk.sectors) : Accepted disks a disk ch dr d := by
  obtain ⟨disk', e', buf, pos, le, fits⟩ := v
  rw [Option.mem_def, e] at e'
  cases e'
  refine ⟨lt, ld, Args.check_eq_some.mpr ⟨e, buf, pos, le, ?_⟩, place, cap, ok.small _ _ e, sum⟩
  exact Nat.le_trans (u64_le _) fits

/-- A call that changes one drive and the sectors of its disk alone keeps the refinement. -/
lemma Refines.set {polls : Nat} {disks : List DiskT} (ok : TableOk disks) {m : Machine}
    {st st' : Store} (ref : Refines polls disks m st) {id : Nat} {disk : DiskT}
    (e : disks[id]? = some disk) {ch dr : Nat} (lt : ch < 2) (ld : dr < 2) (place : disk.At ch dr)
    {c : Channel} (rest : c.Rest polls) {d : Drive} (here : c.drives dr = some d)
    (cap : d.capacity = disk.sectors) (data : d.data = st' id)
    (drives : ∀ i, i ≠ dr → c.drives i = (m ch).drives i)
    (others : ∀ i, i ≠ id → st' i = st i) : Refines polls disks (m.set ch c) st' where
  rest := by
    intro i li
    by_cases eq : i = ch
    · rw [eq, Machine.set_same]
      exact rest
    · rw [Machine.set_other _ _ eq]
      exact ref.rest i li
  holds := by
    intro i disk' e'
    by_cases eq : i = id
    · subst eq
      rw [e] at e'
      cases e'
      exact ⟨ch, lt, dr, ld, place, d, by rw [Machine.set_same]; exact here, cap, data⟩
    · obtain ⟨ch', lt', dr', ld', place', d', ed', rest'⟩ := ref.holds i disk' e'
      refine ⟨ch', lt', dr', ld', place', d', ?_, by rw [others i eq]; exact rest'⟩
      by_cases eqc : ch' = ch
      · subst eqc
        rw [Machine.set_same, drives dr', ed']
        rintro rfl
        exact ok.distinct i id disk' disk e' e eq _ lt' _ ld' place' place
      · rw [Machine.set_other _ _ eqc, ed']

/-- A valid read is the read of the store. -/
lemma read_refines {polls : Nat} {disks : List DiskT} (ok : TableOk disks) {m : Machine}
    {st : Store} (ref : Refines polls disks m st) {a : Args} (v : a.Valid disks)
    (sum : a.lba + a.count < 2 ^ 64) :
    ∃ m', (Request.read a).perform ataBus polls disks m = ((0, st.read a), m') ∧
      Refines polls disks m' st := by
  obtain ⟨disk, e, _⟩ := id v
  obtain ⟨ch, lt, dr, ld, place, d, ed, cap, hd⟩ := ref.holds _ _ e
  have rest := ref.rest ch lt
  have sel := Channel.programmed_selected (c := m ch) place ld ed a.lba a.count
  have run := readDisk_ok (ok.accepted e v sum lt ld place cap) m rest ed
  rw [Machine.set_self] at run
  have words : (d.blocks a.lba a.count).flatMap Sector.words = st.read a := by
    rw [Drive.blocks, List.flatMap_map, Store.read, hd]
  refine ⟨m.set ch (((m ch).programmed disk a.lba a.count).done a.count), ?_, ?_⟩
  · simp only [Request.perform, run, words]
  · refine ref.set ok e lt ld place ?_ ed cap hd (fun _ _ => rfl) (fun _ _ => rfl)
    exact Channel.done_rest (c := (m ch).programmed disk a.lba a.count) (by rw [sel]; rfl)
      rest.bounded _

/-- A valid write is the write of the store. -/
lemma write_refines {polls : Nat} {disks : List DiskT} (ok : TableOk disks) {m : Machine}
    {st : Store} (ref : Refines polls disks m st) {a : Args} (v : a.Valid disks)
    (sum : a.lba + a.count < 2 ^ 64) (data : Nat → Word) :
    ∃ m', (Request.write a data).perform ataBus polls disks m = ((0, []), m') ∧
      Refines polls disks m' (st.write a data) := by
  obtain ⟨disk, e, _⟩ := id v
  obtain ⟨ch, lt, dr, ld, place, d, ed, cap, hd⟩ := ref.holds _ _ e
  have rest := ref.rest ch lt
  have run := writeDisk_ok (ok.accepted e v sum lt ld place cap) m rest ed data
  rw [Machine.set_self] at run
  have at_dr : ((m ch).programmed disk a.lba a.count).regs.sel = dr := by
    change (TaskFile.programmed disk.drive a.lba a.count).sel = dr
    rw [place.drive, TaskFile.programmed_sel ld]
  refine ⟨m.set ch ((((m ch).programmed disk a.lba a.count).setSelected
    (d.writeBlocks data a.lba 0 a.count)).done (a.count + 2)), ?_, ?_⟩
  · simp only [Request.perform, run]
  · refine ref.set ok e lt ld place (d := d.writeBlocks data a.lba 0 a.count) ?_ ?_ ?_ ?_ ?_ ?_
    · refine Channel.done_rest (c := ((m ch).programmed disk a.lba a.count).setSelected
        (d.writeBlocks data a.lba 0 a.count)) ?_ rest.bounded _
      rw [Channel.setSelected_selected]
      rfl
    · exact if_pos at_dr.symm
    · rw [Drive.writeBlocks_capacity, cap]
    · funext l
      rw [Drive.writeBlocks_data, Nat.zero_add, hd, Store.write]
      by_cases c : a.lba ≤ l ∧ l < a.lba + a.count
      · rw [if_pos c]
        exact (if_pos ⟨rfl, c⟩).symm
      · rw [if_neg c]
        exact (if_neg fun h => c h.2).symm
    · exact fun i ne => if_neg fun h => ne (h.trans at_dr)
    · exact fun i ne => funext fun l => if_neg fun h => ne h.1

/-- One call of the driver is the call of the store. -/
theorem perform_refines {polls : Nat} {disks : List DiskT} (ok : TableOk disks) {m : Machine}
    {st : Store} (ref : Refines polls disks m st) {r : Request}
    (sum : r.args.lba + r.args.count < 2 ^ 64) :
    (r.perform ataBus polls disks m).1 = (st.step disks r).1 ∧
    Refines polls disks (r.perform ataBus polls disks m).2 (st.step disks r).2 := by
  by_cases v : r.args.Valid disks
  · cases r with
    | read a =>
      obtain ⟨m', run, ref'⟩ := read_refines ok ref (a := a) v sum
      rw [run, show st.step disks (.read a) = ((0, st.read a), st) from if_pos v]
      exact ⟨rfl, ref'⟩
    | write a data =>
      obtain ⟨m', run, ref'⟩ := write_refines ok ref (a := a) v sum data
      rw [run, show st.step disks (.write a data) = ((0, []), st.write a data) from if_pos v]
      exact ⟨rfl, ref'⟩
  · have step : st.step disks r = ((-1, []), st) := by
      cases r with
      | read a => exact if_neg v
      | write a data => exact if_neg v
    rw [perform_of_not_valid polls m sum v, step]
    exact ⟨rfl, ref⟩

/-- The ATA driver implements an array of sectors. On conforming drives `disk_init` finds the
    drives, and from then on every sequence of calls gets the answers of the store, the drives hold
    its sectors (which are those of the latest successful writes), and a call with invalid arguments
    fails without touching a drive. -/
theorem ata_implements_store (m : Machine) (conf : m.Conforms pollLimit) :
    ∃ m', diskInit ataBus pollLimit m = (m.detected, m') ∧
    ∀ st : Store, (∀ id disk, m.detected[id]? = some disk → m.Holds disk (st id)) →
    ∀ rs : List Request, (∀ r ∈ rs, r.args.lba + r.args.count < 2 ^ 64) →
      let drives := run (Request.perform ataBus pollLimit m.detected) m' rs
      let store := run (Store.step m.detected) st rs
      drives.1 = store.1 ∧
      (∀ id disk, m.detected[id]? = some disk → drives.2.Holds disk (store.2 id)) ∧
      (∀ id lba, store.2 id lba = (lastWrite m.detected id lba rs).getD (st id lba)) ∧
      ∀ r : Request, r.args.lba + r.args.count < 2 ^ 64 → ¬ r.args.Valid m.detected →
        r.perform ataBus pollLimit m.detected drives.2 = ((-1, []), drives.2) := by
  obtain ⟨m', e, same, sel⟩ := diskInit_ok conf
  refine ⟨m', e, fun st init rs sums => ?_⟩
  have ok := detected_tableOk conf
  obtain ⟨answers, ref⟩ := run_simulates (f := Request.perform ataBus pollLimit m.detected)
    (g := Store.step m.detected) (R := Refines pollLimit m.detected)
    (G := fun r => r.args.lba + r.args.count < 2 ^ 64)
    (fun _ _ _ ref sum => perform_refines ok ref sum) (diskInit_refines same sel init) rs sums
  exact ⟨answers, ref.holds, run_step_latest m.detected st rs,
    fun r sum nv => perform_of_not_valid pollLimit _ sum nv⟩

/-- A sector of zero words but for word 60, which is `w`. -/
def wordSector (w : Word) : Sector where
  words := (List.range 256).map fun i => if i = 60 then w else 0#16
  length := by rw [List.length_map, List.length_range]

/-- A machine with one drive of eight zeroed sectors, drive 0 of channel 0, that is never busy. -/
def oneDrive : Machine := fun ch =>
  { drives := fun dr =>
      if ch = 0 ∧ dr = 0 then some ⟨wordSector 8#16, fun _ => wordSector 0#16⟩ else none
    regs := ⟨0#8, 0#8, 0#8, 0#8, 0#8⟩
    phase := .idle
    busy := 0
    failed := false
    delays := fun _ => 0
    floating := 0xFF#8 }

/-- The machine with one drive conforms. -/
lemma oneDrive_conforms : oneDrive.Conforms pollLimit where
  idle _ _ := ⟨rfl, rfl, fun _ => (by decide : 0 < pollLimit), .inr rfl⟩
  small := by
    intro ch _ dr _ d e
    dsimp only [oneDrive] at e
    split at e
    · cases e
      decide +kernel
    · cases e

/-- It holds a disk of zeros. -/
lemma oneDrive_holds (id : Nat) (disk : DiskT) (e : oneDrive.detected[id]? = some disk) :
    oneDrive.Holds disk fun _ => wordSector 0#16 := by
  obtain ⟨ch, lt, dr, ld, place, d, ed, cap⟩ := detected_entry e
  have small := oneDrive_conforms.small ch lt dr ld d ed
  have le : 2 ^ 28 ≤ ataLba28Max := by decide
  refine ⟨ch, lt, dr, ld, place, d, ed, by omega, ?_⟩
  dsimp only [oneDrive] at ed
  split at ed
  · cases ed
    rfl
  · cases ed

/-- Two sectors written to the drive of `oneDrive`, one of them read back, and a read past its
    end. -/
def oneDriveRun : List Request :=
  [.write ⟨0, 3, 2, 1⟩ fun i => BitVec.ofNat 16 i, .read ⟨0, 4, 1, 1⟩, .read ⟨0, 7, 2, 1⟩]

/-- A run of writes and reads on that machine. -/
theorem ata_implements_store_oneDrive :
    ∃ m', diskInit ataBus pollLimit oneDrive = (oneDrive.detected, m') ∧
      (run (Request.perform ataBus pollLimit oneDrive.detected) m' oneDriveRun).1 =
        (run (Store.step oneDrive.detected) (fun _ _ => wordSector 0#16) oneDriveRun).1 := by
  obtain ⟨m', e, runs⟩ := ata_implements_store oneDrive oneDrive_conforms
  exact ⟨m', e, (runs (fun _ _ => wordSector 0#16) oneDrive_holds oneDriveRun (by decide)).1⟩

end TRS.Disk
