import TRS.Disk.GptSearch

/-!
# What the GPT lookup touches

The sectors that the lookup asks for and the entries that it examines, on any contents of the disk.
The table is described by the header that passed the checks; the loop takes its stride, its bound
and its addresses from what lies over that header in the buffer at the time.

* `matchEntry_decided`: which bytes an entry is examined by.
* `gptScanLog_safe_round`: one round is safe exactly if it keeps to the table, and so on from there.
* `gptFindPartitionLog_safe`: the lookup is safe exactly if all its rounds keep to the table.
* `Image.not_keepsToTable_of_le_overlaidCount`: with several entries a sector, a search that passes
  round 0 leaves the table if the field that lies over `parts_count` is 512 or more.

The headline `gpt_parse_safe_stops` says of which sectors round 0 is the last one, so that the
lookup is safe; `gpt_reads_outside` is a table on which it reads past its buffer. The proofs go
round by round, by induction on the rounds that are left.
-/

namespace TRS.Disk
open TRS.Lib TRS.Libc

/-- The sector is one that the header allows. -/
def TableSector (hdr : List Byte) (lba : Nat) : Prop :=
  ∃ k < headerCount hdr, lba = u64 (headerLba hdr + k)

/-- After `i` entries of the table of `hdr`, a search reads inside the buffer, examines no more
    entries than the table has, and asks only for sector 1 and the sectors of the table. -/
structure Safe {α : Type} (hdr : List Byte) (i : Nat) (r : Logged (Except Fault α) Visit) :
    Prop where
  inside : ∀ f, r.val ≠ .error f
  entries : i + r.log.count .entry ≤ headerCount hdr
  sectors : ∀ lba, .sector lba ∈ r.log → lba = 1 ∨ TableSector hdr lba

/-! ## The bytes of an entry -/

/-- The bytes from the entry on decide whether it has the type, and hold its partition if so. -/
def Decided (g entry : List Byte) : Prop :=
  48 ≤ entry.length ∨
  (16 ≤ entry.length ∧ (typeOf entry = List.replicate 16 0#8 ∨ typeOf entry ≠ g)) ∨
  (entry.length < 16 ∧ (∃ b ∈ entry, b ≠ 0#8) ∧ entry ≠ g.take entry.length)

section Bytes
variable {g p : List Byte}

/-- Fewer bytes than a type GUID has tell that it is not empty if one of them is not zero. -/
lemma guidEmpty_short {n : Nat} (lt : p.length < n) :
    ((∃ b ∈ p, b ≠ 0#8) ∧ guidEmpty n p = .ok false) ∨
      ((¬ ∃ b ∈ p, b ≠ 0#8) ∧ guidEmpty n p = .error .bounds) := by
  induction p generalizing n with
  | nil =>
    obtain ⟨n, rfl⟩ : ∃ m, n = m + 1 := ⟨n - 1, by rw [List.length_nil] at lt; omega⟩
    exact .inr ⟨by simp, rfl⟩
  | cons b p ih =>
    rw [List.length_cons] at lt
    obtain ⟨n, rfl⟩ : ∃ m, n = m + 1 := ⟨n - 1, by omega⟩
    rw [guidEmpty, deref, ok_bind, List.drop_succ_cons, List.drop_zero]
    by_cases b0 : b = 0#8
    · subst b0
      rw [if_neg (not_not.mpr rfl)]
      simpa using ih (n := n) (by omega)
    · rw [if_pos b0]
      exact .inl ⟨⟨b, .head p, b0⟩, rfl⟩

/-- Fewer bytes than `n` are compared up to a difference. -/
lemma memcmp_short {n : Nat} (lt : p.length < n) (le : n ≤ g.length) :
    (p ≠ g.take p.length ∧ ∃ c, memcmp n p g = .ok c ∧ c ≠ 0) ∨
      (p = g.take p.length ∧ memcmp n p g = .error .bounds) := by
  induction p generalizing n g with
  | nil =>
    obtain ⟨n, rfl⟩ : ∃ m, n = m + 1 := ⟨n - 1, by rw [List.length_nil] at lt; omega⟩
    exact .inr ⟨rfl, rfl⟩
  | cons b p ih =>
    rw [List.length_cons] at lt
    obtain ⟨n, rfl⟩ : ∃ m, n = m + 1 := ⟨n - 1, by omega⟩
    cases g with
    | nil => cases le
    | cons c g =>
      rw [List.length_cons] at le
      rw [memcmp, List.length_cons, List.take_succ_cons]
      by_cases e : b = c
      · subst e
        rw [if_neg (not_not.mpr rfl)]
        simpa using ih (n := n) (g := g) (by omega) (by omega)
      · have ne : (b.toNat : Int) - c.toNat ≠ 0 := by
          intro zero
          exact e (BitVec.eq_of_toNat_eq (by omega))
        rw [if_pos e]
        exact .inl ⟨fun same => e (List.cons.inj same).1, _, rfl, ne⟩

/-- An entry whose type GUID is in the buffer: only the partition of an entry of the type is
    loaded. -/
lemma matchEntry_long (len : g.length = 16) (long : 16 ≤ p.length) :
    matchEntry g p = if typeOf p = List.replicate 16 0#8 ∨ typeOf p ≠ g then .ok none else do
      let fristLba ← load 8 (p.drop 32)
      let lastLba ← load 8 (p.drop 40)
      return some ⟨fristLba, lastLba⟩ := by
  obtain ⟨c, cmp, zero⟩ := memcmp_ok (n := 16) (a := p) (b := g) long (by omega)
  rw [List.take_of_length_le (Nat.le_of_eq len)] at zero
  unfold matchEntry typeOf
  rw [guidEmpty_ok long, ok_bind]
  by_cases empty : p.take 16 = List.replicate 16 0#8
  · rw [decide_eq_true empty, if_pos rfl, if_pos (Or.inl empty)]
    rfl
  · rw [decide_eq_false empty, if_neg Bool.false_ne_true, cmp, ok_bind]
    by_cases same : p.take 16 = g
    · rw [if_pos (zero.mpr same), if_neg (not_or.mpr ⟨empty, not_not.mpr same⟩)]
    · rw [if_neg fun h => same (zero.mp h), if_pos (Or.inr same)]
      rfl

/-- The entry is examined without a read outside the buffer exactly if its bytes there decide. -/
lemma matchEntry_decided (len : g.length = 16) :
    (∀ f, matchEntry g p ≠ .error f) ↔ Decided g p := by
  by_cases long : 16 ≤ p.length
  · rw [matchEntry_long len long]
    by_cases other : typeOf p = List.replicate 16 0#8 ∨ typeOf p ≠ g
    · rw [if_pos other]
      exact iff_of_true (fun f e => by cases e) (.inr (.inl ⟨long, other⟩))
    · rw [if_neg other]
      by_cases whole : 48 ≤ p.length
      · rw [load_ok (by rw [List.length_drop]; omega), ok_bind,
          load_ok (by rw [List.length_drop]; omega), ok_bind]
        exact iff_of_true (fun f e => by cases e) (.inl whole)
      · have bad : load 8 (p.drop 40) = .error .bounds :=
          if_neg (by rw [List.length_drop]; omega)
        refine iff_of_false (fun ok => ?_) ?_
        · cases first : load 8 (p.drop 32) with
          | error f => exact ok f (by rw [first]; rfl)
          | ok lba => exact ok .bounds (by rw [first, bad]; rfl)
        · rintro (h | ⟨_, h⟩ | ⟨h, _⟩)
          · exact whole h
          · exact other h
          · omega
  · have short : p.length < 16 := by omega
    unfold matchEntry
    rcases guidEmpty_short short with ⟨some_, e⟩ | ⟨none_, e⟩
    · rw [e, ok_bind]
      rcases memcmp_short short (Nat.le_of_eq len.symm) with ⟨ne, c, cmp, c0⟩ | ⟨same, cmp⟩
      · simp only [Bool.false_eq_true, if_false, cmp, ok_bind, if_neg c0]
        exact iff_of_true (fun f e => by cases e) (.inr (.inr ⟨short, some_, ne⟩))
      · simp only [Bool.false_eq_true, if_false, cmp]
        refine iff_of_false (fun ok => ok .bounds rfl) ?_
        rintro (h | ⟨h, _⟩ | ⟨_, _, ne⟩)
        · omega
        · omega
        · exact ne same
    · rw [e]
      refine iff_of_false (fun ok => ok .bounds rfl) ?_
      rintro (h | ⟨h, _⟩ | ⟨_, some_, _⟩)
      · omega
      · omega
      · exact none_ some_

end Bytes

/-! ## The condition -/

/-- The sector in the buffer before round `i`. -/
def Image.before (img : Image) (hdr : List Byte) (partsPerSector : Nat) : Nat → Option (List Byte)
  | 0 => some hdr
  | i + 1 => img.inBuffer (headerLba hdr) partsPerSector i

/-- The sector that a round asks for, if any, by the fields in `sec`, is sector 1 or one of the
    table. -/
def AsksTable (hdr : List Byte) (partsPerSector i : Nat) (sec : List Byte) : Prop :=
  i % partsPerSector = 0 → u64 (headerLba sec + i / partsPerSector) = 1 ∨
    TableSector hdr (u64 (headerLba sec + i / partsPerSector))

/-- Round `i` keeps to the table: the fields that lie over the header send it to a sector of the
    table, if to any, and unless that fails the table has an entry `i`, and the slot that the round
    examines holds the bytes that decide. -/
structure Image.RoundOk (img : Image) (g hdr : List Byte) (partsPerSector i : Nat)
    (sec : List Byte) : Prop where
  sector : AsksTable hdr partsPerSector i sec
  entry : ∀ sec', img.next partsPerSector i sec = some sec' →
    i < headerCount hdr ∧ Decided g (slot partsPerSector sec' i)

/-- Every round that is reached keeps to the table. -/
def Image.KeepsToTable (img : Image) (g hdr : List Byte) (partsPerSector : Nat) : Prop :=
  ∀ i sec, (∀ j < i, img.Passes (headerLba hdr) partsPerSector g j) →
    img.before hdr partsPerSector i = some sec → i < headerCount sec →
    img.RoundOk g hdr partsPerSector i sec

/-- The rounds from `i` on, `n` of them, keep to the table. -/
def Image.KeepsFrom (img : Image) (g hdr : List Byte) (partsPerSector i n : Nat) : Prop :=
  ∀ r sec, i ≤ r → r < i + n → (∀ j < r, img.Passes (headerLba hdr) partsPerSector g j) →
    img.before hdr partsPerSector r = some sec → r < headerCount sec →
    img.RoundOk g hdr partsPerSector r sec

section Rounds
variable {img : Image} {g hdr sec : List Byte} {pps i n : Nat}

/-- The buffer of a round is what the round before it left, moved on to its own sector. -/
lemma Image.inBuffer_eq (start : img.next pps 0 hdr = img (headerLba hdr)) (i : Nat) :
    img.inBuffer (headerLba hdr) pps i = (img.before hdr pps i).bind (img.next pps i) := by
  cases i with
  | zero => exact start.symm
  | succ i => rfl

/-- The rounds from `i` on are round `i` and those after it. -/
lemma Image.keepsFrom_succ (passed : ∀ j < i, img.Passes (headerLba hdr) pps g j)
    (before : img.before hdr pps i = some sec) :
    img.KeepsFrom g hdr pps i (n + 1) ↔
      (i < headerCount sec → img.RoundOk g hdr pps i sec) ∧ img.KeepsFrom g hdr pps (i + 1) n := by
  constructor
  · intro keep
    refine ⟨keep i sec (Nat.le_refl i) (by omega) passed before, fun r sec' ge lt => ?_⟩
    exact keep r sec' (by omega) (by omega)
  · rintro ⟨here, later⟩ r sec' ge lt passed' before' more
    rcases Nat.eq_or_lt_of_le ge with rfl | gt
    · rw [before] at before'
      cases before'
      exact here more
    · exact later r sec' gt (by omega) passed' before' more

/-- A round that examines an entry. -/
lemma Image.roundOk_iff {sec' : List Byte} (len : g.length = 16)
    (some_ : img.next pps i sec = some sec') :
    img.RoundOk g hdr pps i sec ↔ AsksTable hdr pps i sec ∧ i < headerCount hdr ∧
      ∀ f, matchEntry g (slot pps sec' i) ≠ .error f := by
  rw [matchEntry_decided len]
  constructor
  · exact fun ok => ⟨ok.sector, ok.entry sec' some_⟩
  · rintro ⟨asks, entry⟩
    refine ⟨asks, fun sec2 e => ?_⟩
    rw [some_] at e
    cases e
    exact entry

/-- No round follows one that does not pass. -/
lemma Image.keepsFrom_of_not_passes (stop : ¬ img.Passes (headerLba hdr) pps g i) :
    img.KeepsFrom g hdr pps (i + 1) n :=
  fun _ _ ge _ passed _ _ => absurd (passed i ge) stop

section Visits
variable {α : Type}

/-- A round's reads ask for no entry. -/
lemma asked_count (pps i : Nat) (sec : List Byte) : (asked pps i sec).count .entry = 0 := by
  unfold asked
  split
  · rfl
  · rfl

/-- The reads of a round are in the header or in the table. -/
lemma asksTable_iff : AsksTable hdr pps i sec ↔
    ∀ lba, .sector lba ∈ asked pps i sec → lba = 1 ∨ TableSector hdr lba := by
  unfold AsksTable asked
  split
  · next turn => simp [turn]
  · next turn => simp [turn]

/-- A search that has ended. -/
lemma Safe.ended {a : α} : Safe hdr i ⟨.ok a, []⟩ ↔ i ≤ headerCount hdr := by
  constructor
  · exact fun safe => safe.entries
  · exact fun le => ⟨fun f e => (by cases e), le, fun lba m => (by cases m)⟩

/-- A round whose sector cannot be read. -/
lemma Safe.unread {a : α} (le : i ≤ headerCount hdr) :
    Safe hdr i ⟨.ok a, asked pps i sec⟩ ↔ AsksTable hdr pps i sec := by
  constructor
  · exact fun safe => asksTable_iff.mpr safe.sectors
  · intro asks
    refine ⟨fun f e => (by cases e), ?_, asksTable_iff.mp asks⟩
    rw [asked_count]
    exact le

/-- A round that examines its entry. -/
lemma Safe.round (rest : Logged (Except Fault α) Visit) :
    Safe hdr i ⟨rest.val, asked pps i sec ++ .entry :: rest.log⟩ ↔
      AsksTable hdr pps i sec ∧ Safe hdr (i + 1) rest := by
  have count : i + (asked pps i sec ++ .entry :: rest.log).count .entry =
      i + 1 + rest.log.count .entry := by
    rw [List.count_append, asked_count, List.count_cons_self]
    omega
  constructor
  · intro safe
    have entries := safe.entries
    dsimp only at entries
    rw [count] at entries
    refine ⟨asksTable_iff.mpr fun lba m => safe.sectors lba (List.mem_append_left _ m), safe.inside,
      entries, fun lba m => safe.sectors lba (List.mem_append_right _ (.tail _ m))⟩
  · rintro ⟨asks, safe⟩
    refine ⟨safe.inside, ?_, fun lba m => ?_⟩
    · dsimp only
      rw [count]
      exact safe.entries
    · rcases List.mem_append.mp m with here | later
      · exact asksTable_iff.mp asks lba here
      · cases later with
        | tail _ later => exact safe.sectors lba later

end Visits

end Rounds

section Scan
variable {σ : Type} {bus : Bus σ} {polls : Nat} {disks : List DiskT} {id : Nat} {img : Image}
  {I : σ → Prop} (ans : Answers bus polls disks id img I) (pps : Nat) (g : List Byte)
  (out : GptPart)
/-- A round that examines its entry is safe, and so are those after it, exactly if they keep to the
    table. -/
lemma gptScanLog_safe_round {hdr : List Byte} (len : g.length = 16) {n i : Nat}
    {sec sec' : List Byte} {s s' : σ} (more : i < headerCount sec)
    (some_ : img.next pps i sec = some sec')
    (buffer : img.inBuffer (headerLba hdr) pps i = img.next pps i sec)
    (run : gptScanLog bus polls disks id pps g out (n + 1) i sec s =
      match matchEntry g (slot pps sec' i) with
      | .error f => ⟨.error f, asked pps i sec ++ [.entry]⟩
      | .ok (some part) => ⟨.ok ((0, part), s'), asked pps i sec ++ [.entry]⟩
      | .ok none =>
        let rest := gptScanLog bus polls disks id pps g out n (i + 1) sec' s'
        ⟨rest.val, asked pps i sec ++ .entry :: rest.log⟩)
    (later : img.Passes (headerLba hdr) pps g i → i < headerCount hdr →
      (Safe hdr (i + 1) (gptScanLog bus polls disks id pps g out n (i + 1) sec' s') ↔
        img.KeepsFrom g hdr pps (i + 1) n)) :
    Safe hdr i (gptScanLog bus polls disks id pps g out (n + 1) i sec s) ↔
      (i < headerCount sec → img.RoundOk g hdr pps i sec) ∧ img.KeepsFrom g hdr pps (i + 1) n := by
  have ok : img.RoundOk g hdr pps i sec ↔ AsksTable hdr pps i sec ∧ i < headerCount hdr ∧
      ∀ f, matchEntry g (slot pps sec' i) ≠ .error f := Image.roundOk_iff len some_
  rw [run]
  cases found : matchEntry g (slot pps sec' i) with
  | error f =>
    refine iff_of_false (fun safe => safe.inside f rfl) fun keep => ?_
    exact (ok.mp (keep.1 more)).2.2 f found
  | ok part? =>
    have fine : ∀ f, matchEntry g (slot pps sec' i) ≠ .error f := by
      intro f e
      rw [found] at e
      cases e
    have here : (i < headerCount sec → img.RoundOk g hdr pps i sec) ↔
        AsksTable hdr pps i sec ∧ i < headerCount hdr := by
      rw [ok]
      exact ⟨fun h => ⟨(h more).1, (h more).2.1⟩, fun h _ => ⟨h.1, h.2, fine⟩⟩
    rw [here]
    cases part? with
    | some part =>
      have stop : ¬ img.Passes (headerLba hdr) pps g i := by
        rintro ⟨sec2, e, none_⟩
        rw [buffer, some_] at e
        cases e
        rw [found] at none_
        cases none_
      refine (Safe.round ⟨.ok ((0, part), s'), []⟩).trans ?_
      rw [Safe.ended]
      exact ⟨fun h => ⟨h, Image.keepsFrom_of_not_passes stop⟩, And.left⟩
    | none =>
      have pass : img.Passes (headerLba hdr) pps g i := ⟨sec', buffer.trans some_, found⟩
      refine (Safe.round _).trans ?_
      by_cases room : i < headerCount hdr
      · rw [later pass room, and_assoc]
        exact ⟨fun h => ⟨h.1, room, h.2⟩, fun h => ⟨h.1, h.2.2⟩⟩
      · -- one entry too many has been examined
        refine iff_of_false (fun h => room ?_) fun h => room h.1.2
        have entries := h.2.entries
        omega

include ans

/-- The search from round `i` on is safe exactly if its rounds keep to the table. -/
lemma gptScanLog_safe {hdr : List Byte} (start : img.next pps 0 hdr = img (headerLba hdr))
    (len : g.length = 16) (n i : Nat) {sec : List Byte} {s : σ} (inv : I s)
    (before : img.before hdr pps i = some sec)
    (passed : ∀ j < i, img.Passes (headerLba hdr) pps g j) (le : i ≤ headerCount hdr) :
    Safe hdr i (gptScanLog bus polls disks id pps g out n i sec s) ↔
      img.KeepsFrom g hdr pps i n := by
  induction n generalizing i sec s with
  | zero => exact iff_of_true (Safe.ended.mpr le) fun r _ ge lt => by omega
  | succ n ih =>
    have buffer : img.inBuffer (headerLba hdr) pps i = img.next pps i sec := by
      rw [Image.inBuffer_eq start, before]
      rfl
    have stops : img.next pps i sec = none → ¬ img.Passes (headerLba hdr) pps g i := by
      rintro none_ ⟨sec', e, _⟩
      rw [buffer, none_] at e
      cases e
    rw [Image.keepsFrom_succ passed before]
    by_cases more : i < headerCount sec
    · rcases gptScanLog_round ans pps g out n i sec inv more with
        ⟨none_, s', run⟩ | ⟨sec', s', some_, inv', run⟩
      · -- the sector cannot be read
        rw [run, Safe.unread le]
        constructor
        · refine fun asks => ⟨fun _ => ⟨asks, fun sec' e => ?_⟩, ?_⟩
          · rw [none_] at e
            cases e
          · exact Image.keepsFrom_of_not_passes (stops none_)
        · exact fun keep => (keep.1 more).sector
      · refine gptScanLog_safe_round pps g out len more some_ buffer run fun pass room => ?_
        have passed' : ∀ j < i + 1, img.Passes (headerLba hdr) pps g j := by
          intro j lt
          rcases Nat.lt_succ_iff_lt_or_eq.mp lt with lt' | rfl
          · exact passed j lt'
          · exact pass
        exact ih (i + 1) inv' (buffer.trans some_) passed' room
    · -- the loop ends
      have ended : img.next pps i sec = none := if_neg more
      have run : gptScanLog bus polls disks id pps g out (n + 1) i sec s =
          ⟨.ok ((-1, out), s), []⟩ := if_neg more
      rw [run, Safe.ended]
      exact iff_of_true le
        ⟨fun h => absurd h more, Image.keepsFrom_of_not_passes (stops ended)⟩

end Scan

/-- The request for sector 1 is allowed. -/
lemma Safe.header {α : Type} {hdr : List Byte} (rest : Logged (Except Fault α) Visit) :
    Safe hdr 0 ⟨rest.val, .sector 1 :: rest.log⟩ ↔ Safe hdr 0 rest := by
  have count : (Visit.sector 1 :: rest.log).count .entry = rest.log.count .entry := rfl
  constructor
  · intro safe
    have entries := safe.entries
    dsimp only at entries
    rw [count] at entries
    exact ⟨safe.inside, entries, fun lba m => safe.sectors lba (.tail _ m)⟩
  · intro safe
    refine ⟨safe.inside, ?_, fun lba m => ?_⟩
    · dsimp only
      rw [count]
      exact safe.entries
    · cases m with
      | head => exact .inl rfl
      | tail _ later => exact safe.sectors lba later

/-- Every round that is reached keeps to the table, counted from the first round on. -/
lemma Image.keepsToTable_iff {img : Image} {g hdr : List Byte} {pps : Nat} :
    img.KeepsToTable g hdr pps ↔ img.KeepsFrom g hdr pps 0 (2 ^ 32) := by
  constructor
  · exact fun keep r sec _ _ => keep r sec
  · intro keep r sec passed before more
    have small := headerCount_lt sec
    exact keep r sec (Nat.zero_le r) (by omega) passed before more

/-- The lookup is safe exactly if every round that it reaches keeps to the table of the header that
    passed the checks, going by the fields that lie over the header then. -/
lemma gptFindPartitionLog_safe {σ : Type} {bus : Bus σ} {polls : Nat} {disks : List DiskT}
    {id : Nat} {img : Image} {I : σ → Prop} (ans : Answers bus polls disks id img I) {g : List Byte}
    (len : g.length = 16) (out : GptPart) {s : σ} (inv : I s) :
    Safe ((img 1).getD []) 0 (gptFindPartitionLog bus polls disks id g out s) ↔
      ∀ hdr, img 1 = some hdr → HeaderOk hdr →
        img.KeepsToTable g hdr (diskSectorSize / headerSize hdr) := by
  obtain ⟨s', read, keep⟩ := ans.read 1 s (by decide) inv
  cases e : img 1 with
  | none =>
    have run : gptFindPartitionLog bus polls disks id g out s =
        ⟨.ok ((-1, out), s'), [.sector 1]⟩ := by
      unfold gptFindPartitionLog
      rw [read, e]
    rw [run]
    exact iff_of_true ((Safe.header ⟨.ok _, []⟩).mpr (Safe.ended.mpr (Nat.zero_le _)))
      fun hdr some_ => by cases some_
  | some hdr =>
    have long : 8 ≤ hdr.length := by
      rw [ans.size 1 hdr e]
      decide
    rw [e] at read
    by_cases ok : HeaderOk hdr
    · have start := img.next_zero (diskSectorSize / headerSize hdr) (Nat.pos_of_ne_zero ok.pos)
      rw [gptFindPartitionLog_accepted read long ok]
      refine (Safe.header _).trans ((gptScanLog_safe ans _ g out start len _ 0
        (keep (by rw [e]; exact Option.some_ne_none _)) rfl
        (fun j lt => absurd lt (Nat.not_lt_zero j)) (Nat.zero_le _)).trans ?_)
      rw [← Image.keepsToTable_iff]
      constructor
      · rintro keeps _ ⟨⟩ _
        exact keeps
      · exact fun all => all hdr rfl ok
    · rw [gptFindPartitionLog_refused read long ok]
      refine iff_of_true ((Safe.header ⟨.ok _, []⟩).mpr (Safe.ended.mpr (Nat.zero_le _))) ?_
      rintro _ ⟨⟩ ok'
      exact absurd ok' ok

/-- Round 0 reads the first sector of the table, and its entry lies in the buffer. -/
lemma Image.roundOk_zero {img : Image} {g hdr : List Byte} {pps : Nat}
    (size : ∀ lba sec, img lba = some sec → sec.length = 512) (pos : 0 < headerCount hdr) :
    img.RoundOk g hdr pps 0 hdr := by
  refine ⟨fun _ => .inr ⟨0, pos, by rw [Nat.zero_div]⟩, fun sec' some_ => ⟨pos, .inl ?_⟩⟩
  rw [img.next_zero pps pos] at some_
  rw [Image.slot_zero, size _ _ some_]
  decide

/-- A table keeps the search to itself if the field that lies over `parts_count` in its first sector
    is at most 1. -/
lemma Image.keepsToTable_of_overlaidCount_le {img : Image} {g hdr : List Byte} {pps : Nat}
    (size : ∀ lba sec, img lba = some sec → sec.length = 512) (pos : 0 < headerCount hdr)
    (le : img.overlaidCount (headerLba hdr) ≤ 1) : img.KeepsToTable g hdr pps := by
  intro i sec passed before more
  match i with
  | 0 =>
    cases before
    exact Image.roundOk_zero size pos
  | 1 =>
    -- the overlaid count has ended the loop
    have first : img (headerLba hdr) = some sec := before
    rw [overlaidCount, first, Option.getD_some] at le
    omega
  | i + 2 =>
    obtain ⟨sec', here, _⟩ := passed 1 (by omega)
    obtain ⟨sec0, first, next⟩ := Option.bind_eq_some_iff.mp here
    have first : img (headerLba hdr) = some sec0 := first
    rw [overlaidCount, first, Option.getD_some] at le
    have ended : img.next pps 1 sec0 = none := if_neg (by omega)
    rw [ended] at next
    cases next

/-- A table keeps the search to itself if entry 0 is of the type. -/
lemma Image.keepsToTable_of_entry_zero {img : Image} {g hdr : List Byte} {pps : Nat}
    (size : ∀ lba sec, img lba = some sec → sec.length = 512) (len : g.length = 16)
    (g0 : g ≠ List.replicate 16 0#8) (pos : 0 < headerCount hdr)
    (here : typeOf (img.entry (headerLba hdr) (headerSize hdr) 0) = g) :
    img.KeepsToTable g hdr pps := by
  have stop : ¬ img.Passes (headerLba hdr) pps g 0 := by
    rintro ⟨sec, e, other⟩
    have first : img (headerLba hdr) = some sec := e
    rw [Image.entry_zero first] at here
    rw [Image.slot_zero, matchEntry_inside len g0 (by rw [size _ _ first]; decide),
      if_pos here] at other
    cases other
  intro i sec passed before more
  cases i with
  | zero =>
    cases before
    exact Image.roundOk_zero size pos
  | succ i => exact absurd (passed 0 (Nat.succ_pos i)) stop

/-- With several entries a sector, a search that passes round 0 leaves the table if the field that
    lies over `parts_count` is 512 or more. -/
lemma Image.not_keepsToTable_of_le_overlaidCount {img : Image} {g hdr sec : List Byte} {pps : Nat}
    (first : img (headerLba hdr) = some sec) (len : sec.length = 512) (several : 1 < pps)
    (ge : 512 ≤ headerCount sec) (pass : matchEntry g sec = .ok none) :
    ¬ img.KeepsToTable g hdr pps := by
  intro keep
  obtain ⟨second, outside⟩ := Image.second_slot first len several ge
  have passed : ∀ j < 1, img.Passes (headerLba hdr) pps g j := by
    intro j lt
    obtain rfl : j = 0 := by omega
    exact ⟨sec, first, by rw [Image.slot_zero, pass]⟩
  have more : 1 < headerCount sec := by omega
  have next : img.next pps 1 sec = some sec := by
    rw [Image.inBuffer, Image.inBuffer, first] at second
    exact second
  obtain ⟨_, decided⟩ := (keep 1 sec passed first more).entry sec next
  rw [outside] at decided
  rcases decided with h | ⟨h, _⟩ | ⟨_, ⟨b, m, _⟩, _⟩
  · cases h
  · cases h
  · cases m

/-- Round 0 is the last one: the `parts_count` that lies over the first sector of the table of `hdr`
    is at most 1, or the type is not the empty one and entry 0 has it. -/
def Image.StopsAtOnce (img : Image) (g hdr : List Byte) : Prop :=
  img.overlaidCount (headerLba hdr) ≤ 1 ∨
    g ≠ List.replicate 16 0#8 ∧ typeOf (img.entry (headerLba hdr) (headerSize hdr) 0) = g

/-- A search that goes on after round 0 has passed it. -/
lemma Image.passes_zero {img : Image} {g hdr sec : List Byte} (len : g.length = 16)
    (first : img (headerLba hdr) = some sec) (long : sec.length = 512)
    (on : ¬ img.StopsAtOnce g hdr) : matchEntry g sec = .ok none := by
  rw [matchEntry_long len (by omega), if_pos]
  by_contra other
  rw [not_or, not_not] at other
  refine on (.inr ⟨fun zero => other.1 (other.2.trans zero), ?_⟩)
  rw [Image.entry_zero first]
  exact other.2

/-- On any contents of the disk, the lookup reads its entries inside the buffer, examines at most as
    many as the header that passed the checks says, and asks only for sector 1 and the sectors
    behind `parts_lba`, as many as there are entries, if round 0 is the last one. Where the overlaid
    `parts_count` is at most 1, or at least 512 with several entries a sector, it does so on no
    other contents. -/
theorem gpt_parse_safe_stops {σ : Type} {bus : Bus σ} {polls : Nat} {disks : List DiskT} {id : Nat}
    {img : Image} {I : σ → Prop} (ans : Answers bus polls disks id img I) {g : List Byte}
    (len : g.length = 16) (out : GptPart) {s : σ} (inv : I s) :
    ((∀ hdr, img 1 = some hdr → HeaderOk hdr → img.StopsAtOnce g hdr) →
      Safe ((img 1).getD []) 0 (gptFindPartitionLog bus polls disks id g out s)) ∧
    ((∀ hdr, img 1 = some hdr → HeaderOk hdr → img.overlaidCount (headerLba hdr) ≤ 1 ∨
        headerSize hdr ≤ 256 ∧ 512 ≤ img.overlaidCount (headerLba hdr)) →
      Safe ((img 1).getD []) 0 (gptFindPartitionLog bus polls disks id g out s) →
      ∀ hdr, img 1 = some hdr → HeaderOk hdr → img.StopsAtOnce g hdr) := by
  rw [gptFindPartitionLog_safe ans len out inv]
  constructor
  · intro stops hdr e ok
    have pos := Nat.pos_of_ne_zero ok.pos
    rcases stops hdr e ok with le | ⟨g0, here⟩
    · exact Image.keepsToTable_of_overlaidCount_le ans.size pos le
    · exact Image.keepsToTable_of_entry_zero ans.size len g0 pos here
  · intro region keep hdr e ok
    by_contra on
    rcases region hdr e ok with le | ⟨small, ge⟩
    · exact on (.inl le)
    -- round 0 passes, and the entry of round 1 is behind the buffer
    obtain ⟨sec, first⟩ : ∃ sec, img (headerLba hdr) = some sec := by
      refine Option.ne_none_iff_exists'.mp fun none_ => on (.inl ?_)
      rw [Image.overlaidCount, none_]
      decide
    have long := ans.size _ _ first
    have pass := Image.passes_zero len first long on
    rw [Image.overlaidCount, first, Option.getD_some] at ge
    have several : 1 < diskSectorSize / headerSize hdr := by
      have size := ok.size_ge
      simp only [gptEntrySize] at size
      exact (Nat.le_div_iff_mul_le (by omega)).mpr (by simp only [diskSectorSize]; omega)
    exact Image.not_keepsToTable_of_le_overlaidCount first long several ge pass (keep hdr e ok)

/-- The lookup of either type of `gptDisk` is safe: the name of entry 0 is empty. -/
theorem gpt_parse_safe_stops_small :
    Safe ((gptImage 1).getD []) 0
      (gptFindPartitionLog ataBus pollLimit gptDisks 0 (typeGuid 2#8) ⟨0, 0⟩ gptMachine) := by
  have header : ∀ hdr, gptImage 1 = some hdr → headerLba hdr = 2 := by
    rintro _ ⟨⟩
    decide +kernel
  refine (gpt_parse_safe_stops gptAnswers rfl ⟨0, 0⟩ gptMachine_refines).1 fun hdr e _ => .inl ?_
  rw [header hdr e]
  decide +kernel

/-- The disk `gptDisk` with a name in entry 0, "Basic data partition". -/
def namedDisk (lba : Nat) : Sector :=
  if lba = 2 then
    wordsAt [(0, 1#16), (28, 0x42#16), (29, 0x61#16), (30, 0x73#16), (31, 0x69#16), (32, 0x63#16),
      (33, 0x20#16), (34, 0x64#16), (35, 0x61#16), (36, 0x74#16), (37, 0x61#16), (38, 0x20#16),
      (39, 0x70#16), (40, 0x61#16), (41, 0x72#16), (42, 0x74#16), (43, 0x69#16), (44, 0x74#16),
      (45, 0x69#16), (46, 0x6F#16), (47, 0x6E#16), (64, 2#16), (80, 34#16), (84, 100#16)]
  else gptDisk lba

/-- The drive with this disk. -/
def namedDrive : Drive := ⟨wordSector 8#16, namedDisk⟩

/-- The image of this disk. -/
def namedImage : Image := Store.image (fun _ => namedDisk) (driveTable 8) 0

/-- The image with named partitions has a table of four entries. -/
lemma namedImage_hasTable : namedImage.HasTable 2 4 128 where
  header := ⟨wordBytes (namedDisk 1).words, rfl, by decide +kernel⟩
  pos := by decide
  le := by decide
  sizes := .inl rfl
  inside j lt := by
    obtain rfl : j = 0 := by omega
    exact ⟨by decide, rfl⟩

/-- The search for the type of entry 1 takes two letters of the name for the distance of the
    entries, and reads far outside the buffer. -/
theorem gpt_reads_outside : namedImage.HasTable 2 4 128 ∧
    (gptFindPartitionLog ataBus pollLimit (driveTable 8) 0 (typeGuid 2#8) ⟨0, 0⟩
      (driveMachine namedDrive)).val = .error .bounds ∧
    ¬ Safe ((namedImage 1).getD []) 0 (gptFindPartitionLog ataBus pollLimit (driveTable 8) 0
      (typeGuid 2#8) ⟨0, 0⟩ (driveMachine namedDrive)) := by
  have cap : namedDrive.capacity = 8 := by decide +kernel
  have ref := driveMachine_refines namedDrive
  rw [cap] at ref
  have ans : Answers ataBus pollLimit (driveTable 8) 0 namedImage fun m =>
      Refines pollLimit (driveTable 8) m fun _ => namedDisk :=
    driveTable_answers (by decide : 8 < 2 ^ 28) fun _ => namedDisk
  obtain ⟨hdr, m, ref', start, run⟩ :=
    gptFindPartition_scan ans namedImage_hasTable (typeGuid 2#8) ⟨0, 0⟩ ref
  obtain ⟨n, rounds⟩ : ∃ n, 2 ^ 32 = n + 1 + 1 := ⟨2 ^ 32 - 2, by omega⟩
  have first : namedImage 2 = some (wordBytes (namedDisk 2).words) := rfl
  have pass : matchEntry (typeGuid 2#8) (slot (512 / 128) (wordBytes (namedDisk 2).words) 0) =
      .ok none := by decide +kernel
  have count : headerCount (wordBytes (namedDisk 2).words) = 0x720061 := by decide +kernel
  have passed : ∀ j < 1, namedImage.Passes 2 (512 / 128) (typeGuid 2#8) j := by
    intro j lt
    obtain rfl : j = 0 := by omega
    exact ⟨_, first, pass⟩
  obtain ⟨second, outside⟩ := Image.second_slot first
    (by rw [wordBytes_length, (namedDisk 2).length]) (by decide : 1 < 512 / 128)
    (by rw [count]; decide)
  obtain ⟨sec, m1, ref1, next, rest⟩ :=
    gptScan_passed ans (512 / 128) (typeGuid 2#8) ⟨0, 0⟩ start ref' (n + 1) 1 passed
  have fault : gptFindPartition ataBus pollLimit (driveTable 8) 0 (typeGuid 2#8) ⟨0, 0⟩
      (driveMachine namedDrive) = .error .bounds := by
    rw [run, rounds, rest]
    rcases gptScan_round ans (512 / 128) (typeGuid 2#8) ⟨0, 0⟩ n 1 sec ref1 with
      ⟨none_, _⟩ | ⟨sec', m2, some_, _, round⟩
    · rw [next, second] at none_
      cases none_
    · rw [next, second] at some_
      cases some_
      rw [round, outside]
      rfl
  have val := (gptFindPartitionLog_val (typeGuid 2#8) ⟨0, 0⟩ (driveMachine namedDrive)).trans fault
  exact ⟨namedImage_hasTable, val, fun safe => safe.inside .bounds val⟩

end TRS.Disk
