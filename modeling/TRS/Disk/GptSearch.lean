import Mathlib.Data.Nat.Find
import TRS.Disk.GptImage
import TRS.Disk.GptVisits

/-!
# What the GPT lookup finds

The table that a GPT header describes (`Image.HasTable`, `Image.FirstOfType`, `Image.Finds`) beside
the search that `gpt_find_partition` makes: `h` points into `sec`, so that the first sector of the
table overwrites the header, and the loop goes by the fields that lie over it from then on.

* `gptScan_round`: one round of the loop, by the fields in the buffer before it.
* `gptScan_passed`: the rounds that find other types leave the loop at the next round.
* `gptFindPartition_iff`: the lookup answers as the table says exactly if the rounds do
  (`Image.SearchAgrees`); the first round that does not pass decides.

The headline `gpt_lookup_settled` says on which tables round 0 settles the answer, and
`gpt_misses_entry` gives a table on which the lookup misses an entry. The proofs go round by round,
by induction on the rounds that pass.
-/

namespace TRS.Disk
open TRS.Lib TRS.Libc

/-! ## Tables -/

/-- Sector 1 is a GPT header for `count` entries of `size` bytes from `lba` on, and the disk holds
    them. -/
structure Image.HasTable (img : Image) (lba count size : Nat) : Prop where
  header : ∃ sec, img 1 = some sec ∧ sec.take 8 = text "EFI PART" ∧
    headerLba sec = lba ∧ headerCount sec = count ∧ headerSize sec = size
  pos : 1 ≤ count
  le : count ≤ 512
  sizes : size = 128 ∨ size = 256 ∨ size = 512
  inside : ∀ j, j * 512 < count * size → lba + j < 2 ^ 64 ∧ (img (lba + j)).isSome

/-- The bytes from entry `k` of the table on. -/
def Image.entry (img : Image) (lba size k : Nat) : List Byte :=
  ((img (lba + k * size / 512)).getD []).drop (k * size % 512)

/-- The type GUID of an entry. -/
def typeOf (entry : List Byte) : List Byte := entry.take 16

/-- The partition of an entry. -/
def partOf (entry : List Byte) : GptPart :=
  ⟨leNat ((entry.drop 32).take 8), leNat ((entry.drop 40).take 8)⟩

/-- Entry `k` is the lowest-numbered one of the type. -/
structure Image.FirstOfType (img : Image) (lba count size : Nat) (g : List Byte) (k : Nat) :
    Prop where
  lt : k < count
  here : typeOf (img.entry lba size k) = g
  first : ∀ j < k, typeOf (img.entry lba size j) ≠ g

/-- No entry has the type. -/
def Image.NoneOfType (img : Image) (lba count size : Nat) (g : List Byte) : Prop :=
  ∀ k < count, typeOf (img.entry lba size k) ≠ g

/-- A lookup answers the lowest-numbered entry of the type, or -1 with `out` as it was if there is
    none. -/
structure Image.Finds {σ : Type} (img : Image) (lba count size : Nat) (g : List Byte)
    (out : GptPart) (r : Except Fault ((Int × GptPart) × σ)) : Prop where
  found : ∀ k, img.FirstOfType lba count size g k →
    ∃ s, r = .ok ((0, partOf (img.entry lba size k)), s)
  none : img.NoneOfType lba count size g → ∃ s, r = .ok ((-1, out), s)

/-! ## The search that the code makes -/

/-- The sector in the buffer in round `i`, from the sector in it before: what the fields that lie
    over that one ask for, as long as the search goes on. -/
def Image.next (img : Image) (partsPerSector i : Nat) (sec : List Byte) : Option (List Byte) :=
  if i < headerCount sec then
    if i % partsPerSector = 0 then img (u64 (headerLba sec + i / partsPerSector)) else some sec
  else none

/-- The sector in the buffer in round `i`; in round 0 it is the first one of the table. -/
def Image.inBuffer (img : Image) (lba partsPerSector : Nat) : Nat → Option (List Byte)
  | 0 => img lba
  | i + 1 => (img.inBuffer lba partsPerSector i).bind (img.next partsPerSector (i + 1))

/-- The bytes that round `i` takes for its entry. -/
def slot (partsPerSector : Nat) (sec : List Byte) (i : Nat) : List Byte :=
  sec.drop (i % partsPerSector * headerCount sec)

/-- Round `j` finds an entry of another type in its slot. -/
def Image.Passes (img : Image) (lba partsPerSector : Nat) (g : List Byte) (j : Nat) : Prop :=
  ∃ sec, img.inBuffer lba partsPerSector j = some sec ∧
    matchEntry g (slot partsPerSector sec j) = .ok none

/-- The search ends as the table says: after rounds that pass, either with a slot that has the type
    and carries the partition of the lowest-numbered entry of the type, or without another round if
    no entry has the type. -/
def Image.SearchAgrees (img : Image) (lba count size : Nat) (g : List Byte) : Prop :=
  ∃ i, (∀ j < i, img.Passes lba (512 / size) g j) ∧
    ((∃ sec k, img.inBuffer lba (512 / size) i = some sec ∧ img.FirstOfType lba count size g k ∧
        matchEntry g (slot (512 / size) sec i) = .ok (some (partOf (img.entry lba size k)))) ∨
      img.inBuffer lba (512 / size) i = none ∧ img.NoneOfType lba count size g)

/-! ## The search is the loop -/

/-- The entry count is a 32-bit value. -/
lemma headerCount_lt (sec : List Byte) : headerCount sec < 2 ^ 32 := by
  refine Nat.lt_of_lt_of_le (leNat_lt _) (Nat.pow_le_pow_right (by decide) ?_)
  have := List.length_take_le 4 (sec.drop 80)
  omega

/-- The table's address is a 64-bit value. -/
lemma headerLba_lt (sec : List Byte) : headerLba sec < 2 ^ 64 := by
  refine Nat.lt_of_lt_of_le (leNat_lt _) (Nat.pow_le_pow_right (by decide) ?_)
  have := List.length_take_le 8 (sec.drop 72)
  omega

/-- Round 0 reads the first sector of the table. -/
lemma Image.next_zero (img : Image) (pps : Nat) {hdr : List Byte} (pos : 0 < headerCount hdr) :
    img.next pps 0 hdr = img (headerLba hdr) := by
  unfold next
  rw [if_pos pos, if_pos (Nat.zero_mod _), Nat.zero_div, Nat.add_zero, u64_of_lt (headerLba_lt hdr)]

section Scan
variable {σ : Type} {bus : Bus σ} {polls : Nat} {disks : List DiskT} {id : Nat} {img : Image}
  {I : σ → Prop} (ans : Answers bus polls disks id img I) (pps : Nat) (g : List Byte)
  (out : GptPart)
include ans

/-- One logged round: its reads, and then the match or the next round. -/
lemma gptScanLog_round (n i : Nat) (sec : List Byte) {s : σ} (inv : I s)
    (more : i < headerCount sec) :
    (img.next pps i sec = none ∧
      ∃ s', gptScanLog bus polls disks id pps g out (n + 1) i sec s =
        ⟨.ok ((-1, out), s'), asked pps i sec⟩) ∨
    ∃ sec' s', img.next pps i sec = some sec' ∧ I s' ∧
      gptScanLog bus polls disks id pps g out (n + 1) i sec s =
        match matchEntry g (slot pps sec' i) with
        | .error f => ⟨.error f, asked pps i sec ++ [.entry]⟩
        | .ok (some part) => ⟨.ok ((0, part), s'), asked pps i sec ++ [.entry]⟩
        | .ok none =>
          let rest := gptScanLog bus polls disks id pps g out n (i + 1) sec' s'
          ⟨rest.val, asked pps i sec ++ .entry :: rest.log⟩ := by
  rw [gptScanLog, Image.next, asked]
  simp only [if_pos more]
  by_cases turn : i % pps = 0
  · simp only [if_pos turn]
    obtain ⟨s', e, keep⟩ := ans.read _ s (u64_lt (headerLba sec + i / pps)) inv
    rw [e]
    cases e' : img (u64 (headerLba sec + i / pps)) with
    | none => exact .inl ⟨rfl, s', rfl⟩
    | some sec' => exact .inr ⟨sec', s', rfl, keep (by rw [e']; simp), rfl⟩
  · simp only [if_neg turn]
    exact .inr ⟨sec, s, rfl, inv, rfl⟩

/-- One round without the log. -/
lemma gptScan_round (n i : Nat) (sec : List Byte) {s : σ} (inv : I s) :
    (img.next pps i sec = none ∧
      ∃ s', gptScan bus polls disks id pps g out (n + 1) i sec s = .ok ((-1, out), s')) ∨
    ∃ sec' s', img.next pps i sec = some sec' ∧ I s' ∧
      gptScan bus polls disks id pps g out (n + 1) i sec s = (do
        let found ← matchEntry g (slot pps sec' i)
        match found with
        | some part => return ((0, part), s')
        | none => gptScan bus polls disks id pps g out n (i + 1) sec' s') := by
  by_cases more : i < headerCount sec
  · rcases gptScanLog_round ans pps g out n i sec inv more with
      ⟨none_, s', run⟩ | ⟨sec', s', some_, inv', run⟩
    · refine .inl ⟨none_, s', ?_⟩
      rw [← gptScanLog_val, run]
    · refine .inr ⟨sec', s', some_, inv', ?_⟩
      rw [← gptScanLog_val, run]
      cases matchEntry g (slot pps sec' i) with
      | error f => rfl
      | ok found =>
        cases found with
        | none => exact gptScanLog_val ..
        | some part => rfl
  · exact .inl ⟨if_neg more, s, if_neg more⟩

/-- The rounds whose slots are of other types leave the search at the next round. -/
lemma gptScan_passed {lba : Nat} {hdr : List Byte} (start : img.next pps 0 hdr = img lba)
    {s : σ} (inv : I s) (n i : Nat)
    (passed : ∀ j < i, img.Passes lba pps g j) :
    ∃ sec s', I s' ∧ img.next pps i sec = img.inBuffer lba pps i ∧
      gptScan bus polls disks id pps g out (n + i) 0 hdr s =
        gptScan bus polls disks id pps g out n i sec s' := by
  induction i generalizing n with
  | zero => exact ⟨hdr, s, inv, start, rfl⟩
  | succ i ih =>
    obtain ⟨sec, s', inv', e, run⟩ := ih (n + 1) fun j lt => passed j (Nat.lt_succ_of_lt lt)
    obtain ⟨sec', here, other⟩ := passed i (Nat.lt_succ_self i)
    rcases gptScan_round ans pps g out n i sec inv' with ⟨none, _⟩ | ⟨sec1, s1, some_, inv1, round⟩
    · rw [none, here] at e
      cases e
    · rw [some_, here] at e
      have same := Option.some.inj e
      rw [← same] at here other
      refine ⟨sec1, s1, inv1, ?_, ?_⟩
      · rw [Image.inBuffer, here]
        rfl
      · rw [show n + (i + 1) = n + 1 + i by omega, run, round, other]
        rfl

end Scan

/-- The rounds end before they run out. -/
lemma Image.inBuffer_lt {img : Image} {lba pps i : Nat} {sec : List Byte}
    (h : img.inBuffer lba pps i = some sec) : i + 1 < 2 ^ 32 := by
  cases i with
  | zero => decide
  | succ i =>
    obtain ⟨sec', _, e⟩ := Option.bind_eq_some_iff.mp h
    unfold Image.next at e
    split at e
    · have := headerCount_lt sec'
      omega
    · cases e

/-- A first round that does not pass comes before the counter wraps. -/
lemma Image.exists_stop (img : Image) (lba pps : Nat) (g : List Byte) :
    ∃ i < 2 ^ 32, (∀ j < i, img.Passes lba pps g j) ∧ ¬ img.Passes lba pps g i := by
  classical
  have stop : ∃ i, ¬ img.Passes lba pps g i := by
    refine ⟨2 ^ 32, ?_⟩
    rintro ⟨sec, h, _⟩
    have := inBuffer_lt h
    omega
  refine ⟨Nat.find stop, ?_, fun j lt => not_not.mp (Nat.find_min stop lt), Nat.find_spec stop⟩
  by_contra big
  obtain ⟨sec, h, _⟩ := not_not.mp (Nat.find_min stop (m := Nat.find stop - 1) (by omega))
  have := inBuffer_lt h
  omega

/-- The header of a table passes the checks. -/
lemma gptFindPartition_scan {σ : Type} {bus : Bus σ} {polls : Nat} {disks : List DiskT} {id : Nat}
    {img : Image} {I : σ → Prop} (ans : Answers bus polls disks id img I) {lba count size : Nat}
    (table : img.HasTable lba count size) (g : List Byte) (out : GptPart) {s : σ} (inv : I s) :
    ∃ hdr s', I s' ∧ img.next (512 / size) 0 hdr = img lba ∧
      gptFindPartition bus polls disks id g out s =
        gptScan bus polls disks id (512 / size) g out (2 ^ 32) 0 hdr s' := by
  obtain ⟨hdr, e, sig, rfl, rfl, rfl⟩ := table.header
  obtain ⟨s', run, keep⟩ := ans.read 1 s (by decide) inv
  have long : 8 ≤ hdr.length := by
    rw [ans.size _ _ e]
    decide
  have sizes := table.sizes
  have ok : HeaderOk hdr := by
    refine ⟨sig, Nat.ne_of_gt table.pos, table.le, ?_, ?_⟩
    · simp only [gptEntrySize]
      omega
    · simp only [diskSectorSize]
      omega
  rw [e] at run
  refine ⟨hdr, s', keep (by rw [e]; simp), img.next_zero _ table.pos, ?_⟩
  rw [← gptFindPartitionLog_val, gptFindPartitionLog_accepted run long ok]
  exact gptScanLog_val ..

/-- Some entry is the lowest-numbered one of the type, or none is of the type. -/
lemma Image.first_or_none (img : Image) (lba count size : Nat) (g : List Byte) :
    (∃ k, img.FirstOfType lba count size g k) ∨ img.NoneOfType lba count size g := by
  classical
  by_cases h : ∃ k, k < count ∧ typeOf (img.entry lba size k) = g
  · obtain ⟨lt, here⟩ := Nat.find_spec h
    exact .inl ⟨Nat.find h, lt, here, fun j lj e => Nat.find_min h lj ⟨Nat.lt_trans lj lt, e⟩⟩
  · exact .inr fun k lt e => h ⟨k, lt, e⟩

/-- Whether the search agrees with the table shows in the first round that does not pass. -/
lemma Image.searchAgrees_iff {img : Image} {lba count size : Nat} {g : List Byte} {i : Nat}
    (passed : ∀ j < i, img.Passes lba (512 / size) g j) (stop : ¬ img.Passes lba (512 / size) g i) :
    img.SearchAgrees lba count size g ↔
      ((∃ sec k, img.inBuffer lba (512 / size) i = some sec ∧ img.FirstOfType lba count size g k ∧
          matchEntry g (slot (512 / size) sec i) = .ok (some (partOf (img.entry lba size k)))) ∨
        img.inBuffer lba (512 / size) i = none ∧ img.NoneOfType lba count size g) := by
  refine ⟨?_, fun h => ⟨i, passed, h⟩⟩
  rintro ⟨i', passed', h⟩
  have stop' : ¬ img.Passes lba (512 / size) g i' := by
    rintro ⟨sec, e, other⟩
    rcases h with ⟨sec', k, e', _, found⟩ | ⟨none, _⟩
    · rw [e] at e'
      cases e'
      rw [other] at found
      cases found
    · rw [none] at e
      cases e
  have same : i' = i := by
    rcases Nat.lt_trichotomy i' i with lt | eq | lt
    · exact absurd (passed i' lt) stop'
    · exact eq
    · exact absurd (passed' i lt) stop
  rw [← same]
  exact h

section Answer
variable {σ : Type} {img : Image} {lba count size : Nat} {g : List Byte} {out part : GptPart}

/-- There is one first entry of a type. -/
lemma Image.FirstOfType.unique {k k' : Nat} (h : img.FirstOfType lba count size g k)
    (h' : img.FirstOfType lba count size g k') : k = k' := by
  rcases Nat.lt_trichotomy k k' with lt | eq | lt
  · exact absurd h.here (h'.first k lt)
  · exact eq
  · exact absurd h'.here (h.first k' lt)

/-- To report no partition is right exactly if no entry has the type. -/
lemma Image.finds_none_iff (s : σ) :
    img.Finds lba count size g out (.ok ((-1, out), s)) ↔ img.NoneOfType lba count size g := by
  constructor
  · intro finds
    rcases img.first_or_none lba count size g with ⟨k, first⟩ | none
    · obtain ⟨s', e⟩ := finds.found k first
      cases e
    · exact none
  · exact fun none => ⟨fun k first => absurd first.here (none k first.lt), fun _ => ⟨s, rfl⟩⟩

/-- To report a partition is right exactly if it is the first of the type. -/
lemma Image.finds_part_iff (s : σ) :
    img.Finds lba count size g out (.ok ((0, part), s)) ↔
      ∃ k, img.FirstOfType lba count size g k ∧ part = partOf (img.entry lba size k) := by
  constructor
  · intro finds
    rcases img.first_or_none lba count size g with ⟨k, first⟩ | none
    · obtain ⟨s', e⟩ := finds.found k first
      cases e
      exact ⟨k, first, rfl⟩
    · obtain ⟨s', e⟩ := finds.none none
      cases e
  · rintro ⟨k, first, rfl⟩
    refine ⟨fun k' first' => ?_, fun none => absurd first.here (none k first.lt)⟩
    rw [first'.unique first]
    exact ⟨s, rfl⟩

/-- A fault is no answer. -/
lemma Image.not_finds_error (f : Fault) :
    ¬ img.Finds lba count size g out (.error f : Except Fault ((Int × GptPart) × σ)) := by
  intro finds
  rcases img.first_or_none lba count size g with ⟨k, first⟩ | none
  · obtain ⟨s', e⟩ := finds.found k first
    cases e
  · obtain ⟨s', e⟩ := finds.none none
    cases e

end Answer

/-- A lookup on a GPT table answers as it should if and only if the search that the overlaid header
    makes agrees with the table. -/
lemma gptFindPartition_iff {σ : Type} {bus : Bus σ} {polls : Nat} {disks : List DiskT} {id : Nat}
    {img : Image} {I : σ → Prop} (ans : Answers bus polls disks id img I) {lba count size : Nat}
    (table : img.HasTable lba count size) (g : List Byte) (out : GptPart) {s : σ} (inv : I s) :
    img.Finds lba count size g out (gptFindPartition bus polls disks id g out s) ↔
      img.SearchAgrees lba count size g := by
  obtain ⟨hdr, s0, inv0, start, run⟩ := gptFindPartition_scan ans table g out inv
  obtain ⟨i, lt, passed, stop⟩ := img.exists_stop lba (512 / size) g
  obtain ⟨n, rounds⟩ : ∃ n, 2 ^ 32 = n + 1 + i := ⟨2 ^ 32 - i - 1, by omega⟩
  obtain ⟨sec, s1, inv1, next, rest⟩ :=
    gptScan_passed ans (512 / size) g out start inv0 (n + 1) i passed
  rw [run, Image.searchAgrees_iff passed stop, rounds, rest]
  rcases gptScan_round ans (512 / size) g out n i sec inv1 with
    ⟨none_, s2, ended⟩ | ⟨sec', s2, some_, inv2, round⟩
  · rw [ended, ← next, none_, Image.finds_none_iff]
    simp
  rw [round, ← next, some_]
  cases found : matchEntry g (slot (512 / size) sec' i) with
  | error f =>
    refine iff_of_false (Image.not_finds_error f) ?_
    simp [found]
  | ok part? =>
    cases part? with
    | none => exact absurd ⟨sec', by rw [← next, some_], found⟩ stop
    | some part =>
      refine (Image.finds_part_iff s2).trans ?_
      simp [found]

/-! ## Entry 0 and the rest -/

/-- `guid_empty` within the buffer: whether all its bytes are zero. -/
lemma guidEmpty_ok {n : Nat} {p : List Byte} (le : n ≤ p.length) :
    guidEmpty n p = .ok (decide (p.take n = List.replicate n 0#8)) := by
  induction n generalizing p with
  | zero => rfl
  | succ n ih =>
    cases p with
    | nil => cases le
    | cons c cs =>
      rw [guidEmpty, deref, ok_bind, List.drop_succ_cons, List.drop_zero,
        ih (Nat.le_of_succ_le_succ le)]
      by_cases c0 : c = 0#8
      · simp [c0, List.replicate_succ]
      · simp [c0, List.replicate_succ]
        rfl

/-- A load within the buffer: the value of its bytes. -/
lemma load_ok {n : Nat} {b : List Byte} (le : n ≤ b.length) : load n b = .ok (leNat (b.take n)) :=
  if_pos le

/-- An entry that lies in the buffer is compared as a whole. -/
lemma matchEntry_inside {g p : List Byte} (len : g.length = 16) (g0 : g ≠ List.replicate 16 0#8)
    (inside : 48 ≤ p.length) :
    matchEntry g p = .ok (if typeOf p = g then some (partOf p) else none) := by
  obtain ⟨r, cmp, zero⟩ := memcmp_ok (n := 16) (a := p) (b := g) (by omega) (by omega)
  rw [List.take_of_length_le (Nat.le_of_eq len)] at zero
  unfold matchEntry typeOf
  rw [guidEmpty_ok (by omega), ok_bind]
  by_cases e : p.take 16 = List.replicate 16 0#8
  · have ne : p.take 16 ≠ g := fun h => g0 (h.symm.trans e)
    simp only [e, decide_true, if_true]
    rw [if_neg (e ▸ ne)]
    rfl
  · simp only [e, decide_false, Bool.false_eq_true, if_false, cmp, ok_bind]
    by_cases m : p.take 16 = g
    · rw [if_pos (zero.mpr m), if_pos m, load_ok (by rw [List.length_drop]; omega), ok_bind,
        load_ok (by rw [List.length_drop]; omega)]
      rfl
    · rw [if_neg fun h => m (zero.mp h), if_neg m]
      rfl

/-- The `parts_count` that lies over the first sector of the table. -/
def Image.overlaidCount (img : Image) (lba : Nat) : Nat := headerCount ((img lba).getD [])

section Rounds
variable {img : Image} {lba count size : Nat} {g sec : List Byte}

/-- The first entry starts the first sector of the table. -/
lemma Image.entry_zero (first : img lba = some sec) : img.entry lba size 0 = sec := by
  rw [entry, Nat.zero_mul, Nat.zero_div, Nat.add_zero, first]
  rfl

/-- The first slot of a sector is at its start. -/
lemma Image.slot_zero (pps : Nat) (sec : List Byte) : slot pps sec 0 = sec := by
  rw [slot, Nat.zero_mod, Nat.zero_mul, List.drop_zero]

/-- An entry 0 of the type ends the search with the right answer. -/
lemma Image.SearchAgrees.of_entry_zero (first : img lba = some sec) (pos : 0 < count)
    (found : matchEntry g sec = .ok (some (partOf sec))) (here : typeOf sec = g) :
    img.SearchAgrees lba count size g := by
  refine ⟨0, fun j lt => absurd lt (Nat.not_lt_zero j), .inl ⟨sec, 0, first, ⟨pos, ?_, ?_⟩, ?_⟩⟩
  · rw [entry_zero first, here]
  · exact fun j lt => absurd lt (Nat.not_lt_zero j)
  · rw [slot_zero, entry_zero first, found]

/-- A search that ends after round 0 agrees exactly with a table without an entry of the type. -/
lemma Image.searchAgrees_of_overlaidCount_le (first : img lba = some sec)
    (pass : matchEntry g sec = .ok none) (le : headerCount sec ≤ 1) :
    img.SearchAgrees lba count size g ↔ img.NoneOfType lba count size g := by
  have ended : img.inBuffer lba (512 / size) 1 = none := by
    rw [inBuffer, inBuffer, first]
    exact if_neg (by omega)
  rw [searchAgrees_iff (i := 1)]
  · rw [ended]
    simp
  · intro j lt
    obtain rfl : j = 0 := by omega
    exact ⟨sec, first, by rw [slot_zero, pass]⟩
  · rintro ⟨sec', e, _⟩
    rw [ended] at e
    cases e

/-- With several entries a sector, a `parts_count` from 512 on in the first sector of the table puts
    the entry of round 1 behind the buffer. -/
lemma Image.second_slot (first : img lba = some sec) (len : sec.length = 512) {pps : Nat}
    (several : 1 < pps) (ge : 512 ≤ headerCount sec) :
    img.inBuffer lba pps 1 = some sec ∧ slot pps sec 1 = [] := by
  constructor
  · rw [inBuffer, inBuffer, first, Option.bind_some, next, if_pos (by omega), if_neg]
    rw [Nat.mod_eq_of_lt several]
    decide
  · rw [slot, Nat.mod_eq_of_lt several, Nat.one_mul]
    exact List.drop_eq_nil_of_le (by omega)

/-- Such a search never agrees with the table once round 0 has passed. -/
lemma Image.not_searchAgrees_of_le_overlaidCount (first : img lba = some sec)
    (len : sec.length = 512) (pass : matchEntry g sec = .ok none) (several : 1 < 512 / size)
    (ge : 512 ≤ headerCount sec) : ¬ img.SearchAgrees lba count size g := by
  obtain ⟨second, outside⟩ := second_slot first len several ge
  have fault : matchEntry g (slot (512 / size) sec 1) = .error .bounds := by
    rw [outside]
    rfl
  rw [searchAgrees_iff (i := 1)]
  · rw [second]
    simp [fault]
  · intro j lt
    obtain rfl : j = 0 := by omega
    exact ⟨sec, first, by rw [slot_zero, pass]⟩
  · rintro ⟨sec', e, other⟩
    rw [second] at e
    cases e
    rw [fault] at other
    cases other

end Rounds

/-- Round 0 settles what the table says: entry 0 is of the type, or no entry is and the
    `parts_count` that lies over the first sector of the table is at most 1. -/
def Image.SettledAtOnce (img : Image) (lba count size : Nat) (g : List Byte) : Prop :=
  typeOf (img.entry lba size 0) = g ∨
    img.overlaidCount lba ≤ 1 ∧ img.NoneOfType lba count size g

/-- On a GPT table the lookup of a nonzero type answers as it should if round 0 settles what the
    table says. Where the overlaid `parts_count` is at most 1, or at least 512 with several entries
    a sector, it answers so on no other table. -/
theorem gpt_lookup_settled {σ : Type} {bus : Bus σ} {polls : Nat} {disks : List DiskT} {id : Nat}
    {img : Image} {I : σ → Prop} (ans : Answers bus polls disks id img I) {lba count size : Nat}
    (table : img.HasTable lba count size) {g : List Byte} (len : g.length = 16)
    (g0 : g ≠ List.replicate 16 0#8) (out : GptPart) {s : σ} (inv : I s) :
    (img.SettledAtOnce lba count size g →
      img.Finds lba count size g out (gptFindPartition bus polls disks id g out s)) ∧
    (img.overlaidCount lba ≤ 1 ∨ size < 512 ∧ 512 ≤ img.overlaidCount lba →
      img.Finds lba count size g out (gptFindPartition bus polls disks id g out s) →
      img.SettledAtOnce lba count size g) := by
  have pos := table.pos
  have sizes := table.sizes
  obtain ⟨_, there⟩ := table.inside 0 (by
    rw [Nat.zero_mul]
    exact Nat.mul_pos pos (by omega))
  obtain ⟨sec, first⟩ := Option.isSome_iff_exists.mp there
  rw [Nat.add_zero] at first
  have long := ans.size lba sec first
  have match0 := matchEntry_inside (p := sec) len g0 (by rw [long]; decide)
  rw [gptFindPartition_iff ans table g out inv, Image.SettledAtOnce, Image.entry_zero first,
    Image.overlaidCount, first, Option.getD_some]
  by_cases here : typeOf sec = g
  · rw [if_pos here] at match0
    exact ⟨fun _ => .of_entry_zero first pos match0 here, fun _ _ => .inl here⟩
  rw [if_neg here] at match0
  constructor
  · rintro (e | ⟨le, none⟩)
    · exact absurd e here
    · exact (Image.searchAgrees_of_overlaidCount_le first match0 le).mpr none
  · rintro (le | ⟨lt, ge⟩) agrees
    · exact .inr ⟨le, (Image.searchAgrees_of_overlaidCount_le first match0 le).mp agrees⟩
    · -- 128 or 256 bytes an entry
      have several : 1 < 512 / size := by
        rcases sizes with rfl | rfl | rfl
        · decide
        · decide
        · omega
      exact absurd agrees
        (Image.not_searchAgrees_of_le_overlaidCount first long match0 several ge)

/-- A sector of zero words but for the given ones. -/
def wordsAt (ws : List (Nat × Word)) : Sector where
  words := (List.range 256).map fun i => (ws.lookup i).getD 0#16
  length := by rw [List.length_map, List.length_range]

/-- A disk with a table of four entries in sector 2: entry 0 has type 1 and an empty name, entry 1
    has type 2 and the sectors 34 to 100. -/
def gptDisk (lba : Nat) : Sector :=
  if lba = 1 then
    wordsAt [(0, 0x4645#16), (1, 0x2049#16), (2, 0x4150#16), (3, 0x5452#16), (36, 2#16), (40, 4#16),
      (42, 128#16)]
  else if lba = 2 then wordsAt [(0, 1#16), (64, 2#16), (80, 34#16), (84, 100#16)]
  else wordsAt []

/-- A machine with this disk as drive 0 of channel 0. -/
def gptMachine : Machine := fun ch =>
  { oneDrive ch with
    drives := fun dr => if ch = 0 ∧ dr = 0 then some ⟨wordSector 8#16, gptDisk⟩ else none }

/-- The disk table of this machine. -/
def gptDisks : List DiskT := [⟨8, 0x1F0, 0x3F6, 0#8, 1⟩]

/-- The image of this disk. -/
def gptImage : Image := Store.image (fun _ => gptDisk) gptDisks 0

/-- The disk of the example answers with its sectors. -/
lemma gptAnswers : Answers ataBus pollLimit gptDisks 0 gptImage fun m =>
    Refines pollLimit gptDisks m fun _ => gptDisk :=
  driveTable_answers (by decide : 8 < 2 ^ 28) fun _ => gptDisk

/-- Its machine holds that disk. -/
lemma gptMachine_refines : Refines pollLimit gptDisks gptMachine fun _ => gptDisk := by
  have cap : (⟨wordSector 8#16, gptDisk⟩ : Drive).capacity = 8 := by decide +kernel
  have ref := driveMachine_refines ⟨wordSector 8#16, gptDisk⟩
  rw [cap] at ref
  exact ref

/-- Its table has four entries of 128 bytes. -/
lemma gptImage_hasTable : gptImage.HasTable 2 4 128 where
  header := ⟨wordBytes (gptDisk 1).words, rfl, by decide +kernel⟩
  pos := by decide
  le := by decide
  sizes := .inl rfl
  inside j lt := by
    obtain rfl : j = 0 := by omega
    exact ⟨by decide, rfl⟩

/-- The type GUID of one of these entries. -/
def typeGuid (b : Byte) : List Byte := b :: List.replicate 15 0#8

/-- The lookup of the type of entry 0 finds it, and that of a type that no entry has finds
    nothing. -/
theorem gpt_lookup_settled_small :
    gptImage.Finds 2 4 128 (typeGuid 1#8) ⟨0, 0⟩
        (gptFindPartition ataBus pollLimit gptDisks 0 (typeGuid 1#8) ⟨0, 0⟩ gptMachine) ∧
      gptImage.Finds 2 4 128 (typeGuid 3#8) ⟨0, 0⟩
        (gptFindPartition ataBus pollLimit gptDisks 0 (typeGuid 3#8) ⟨0, 0⟩ gptMachine) := by
  have entry0 : typeOf (gptImage.entry 2 128 0) = typeGuid 1#8 := by decide +kernel
  have none_ : gptImage.overlaidCount 2 ≤ 1 ∧ gptImage.NoneOfType 2 4 128 (typeGuid 3#8) := by
    refine ⟨by decide +kernel, ?_⟩
    unfold Image.NoneOfType
    decide +kernel
  exact ⟨(gpt_lookup_settled gptAnswers gptImage_hasTable rfl (by decide) ⟨0, 0⟩
      gptMachine_refines).1 (.inl entry0),
    (gpt_lookup_settled gptAnswers gptImage_hasTable rfl (by decide) ⟨0, 0⟩
      gptMachine_refines).1 (.inr none_)⟩

/-- The lookup of the type of entry 1 stops after entry 0, whose name is empty. -/
theorem gpt_misses_entry : gptImage.HasTable 2 4 128 ∧
    ¬ gptImage.Finds 2 4 128 (typeGuid 2#8) ⟨0, 0⟩
      (gptFindPartition ataBus pollLimit gptDisks 0 (typeGuid 2#8) ⟨0, 0⟩ gptMachine) := by
  refine ⟨gptImage_hasTable, ?_⟩
  have first : gptImage 2 = some (wordBytes (gptDisk 2).words) := rfl
  have pass : matchEntry (typeGuid 2#8) (wordBytes (gptDisk 2).words) = .ok none := by
    decide +kernel
  rw [gptFindPartition_iff gptAnswers gptImage_hasTable _ _ gptMachine_refines,
    Image.searchAgrees_of_overlaidCount_le first pass (by decide +kernel)]
  exact fun none => none 1 (by decide) (by decide +kernel)

end TRS.Disk
