import TRS.Fat.Dirent

/-!
# Listing a directory

What the FAT library promises about positions in a directory (`Positions`), and that `opendir` and
`readdir` list the entries of the directory exactly.

* `skipped_abi`: the tests of `readdir` on the truncated name are tests of the name.
* `readSlot_entry`, `readSlot_end`: one read of a slot, by the entries to come.
* `readdirLoop_spec`: one call of `readdir`, by induction on the entries that it passes.
* `readdirs_spec`: calls of `readdir` in a row, by induction on their number.

The headline `directory_listed` starts them with `opendir`.
-/

namespace TRS.Fat
open TRS.Lib

variable {δ : Type*}

/-- A directory entry. -/
structure Entry where
  name : List Byte
  size : Nat
  attr : Byte
  no_nul : 0#8 ∉ name
  short : name.length ≤ 255

/-- The library reports the entry. -/
structure DirInfo.IsOf (info : DirInfo) (e : Entry) : Prop where
  size : info.size = e.size
  attr : info.attr = e.attr
  nameLen : info.nameLen = e.name.length
  name : info.name.take e.name.length = e.name

/-- Positions of a `Dir`: before a list of entries, or on the first of them. `fat_dir_read` reports
    the entry at the position and leaves the `Dir` on it, `fat_dir_next` steps past it, and at the
    end both report so, or `fat_dir_next` leaves that to the next read. -/
structure FatDir.Positions (F : FatDir δ) where
  Before : δ → List Entry → Prop
  On : δ → List Entry → Prop
  read_entry : ∀ {d e es}, Before d (e :: es) → ∃ info d',
    F.fatDirRead d = (errNone, some info, d') ∧ info.IsOf e ∧ On d' es
  read_end : ∀ {d}, Before d [] → (F.fatDirRead d).1 = errEof ∧ Before (F.fatDirRead d).2.2 []
  next_entry : ∀ {d e es}, On d (e :: es) →
    (F.fatDirNext d).1 = errNone ∧ Before (F.fatDirNext d).2 (e :: es)
  next_last : ∀ {d}, On d [] → ((F.fatDirNext d).1 = errNone ∨ (F.fatDirNext d).1 = errEof) ∧
    Before (F.fatDirNext d).2 []
  next_end : ∀ {d}, Before d [] → ((F.fatDirNext d).1 = errNone ∨ (F.fatDirNext d).1 = errEof) ∧
    Before (F.fatDirNext d).2 []

/-- The entry is listed: it is no volume label and neither `.` nor `..`. -/
def Entry.visible (e : Entry) : Bool :=
  e.attr &&& attrLabel = 0#8 ∧ e.name ≠ [0x2E#8] ∧ e.name ≠ [0x2E#8, 0x2E#8]

/-- The entry as a program sees it: the first 32 bytes of its name, padded with NUL to 33. -/
def Entry.abi (e : Entry) : AbiDirInfo :=
  ⟨e.name.take 32 ++ List.replicate (33 - min e.name.length 32) 0#8, e.size, e.attr,
    min e.name.length 32⟩

/-! ## One entry -/

/-- What the system call hands out of an entry. -/
lemma abiDirInfo_of {info : DirInfo} {e : Entry} (h : info.IsOf e) : abiDirInfo info = e.abi := by
  have n : (if info.nameLen > abiNameMax then abiNameMax else info.nameLen) =
      min e.name.length 32 := by
    rw [h.nameLen]
    simp only [abiNameMax]
    split <;> omega
  have name : info.name.take (min e.name.length 32) = e.name.take 32 := by
    rw [Nat.min_comm, ← List.take_take, h.name]
  unfold abiDirInfo Entry.abi
  dsimp only
  rw [n, name, h.size, h.attr]

/-- The tests of `readdir` on the truncated name are tests of the name. -/
lemma skipped_abi (e : Entry) : skipped e.abi = !e.visible := by
  have dots : ∀ name : List Byte, 0#8 ∉ name →
      ((name.take 32 ++ List.replicate (33 - min name.length 32) 0#8).getD 0 0#8 = 0x2E#8 ∧
        ((name.take 32 ++ List.replicate (33 - min name.length 32) 0#8).getD 1 0#8 = 0#8 ∨
          (name.take 32 ++ List.replicate (33 - min name.length 32) 0#8).getD 1 0#8 = 0x2E#8 ∧
          (name.take 32 ++ List.replicate (33 - min name.length 32) 0#8).getD 2 0#8 = 0#8) ↔
        name = [0x2E#8] ∨ name = [0x2E#8, 0x2E#8]) := by
    intro name no_nul
    match name with
    | [] => simp
    | [a] => simp
    | [a, b] =>
      have b0 : b ≠ 0#8 := fun h => no_nul (by simp [h])
      simp [b0]
    | a :: b :: c :: rest =>
      have b0 : b ≠ 0#8 := fun h => no_nul (by simp [h])
      have c0 : c ≠ 0#8 := fun h => no_nul (by simp [h])
      simp [b0, c0]
  unfold skipped Entry.visible Entry.abi
  dsimp only
  simp only [dots e.name e.no_nul]
  by_cases label : e.attr &&& attrLabel = 0#8 <;> simp [label]

/-! ## One slot -/

/-- A slot whose next read reports the first of the entries. -/
def FatDir.Positions.At {F : FatDir δ} (P : F.Positions) (s : DirSlot δ) (es : List Entry) : Prop :=
  if s.needNext then P.On s.dir es ∨ (es = [] ∧ P.Before s.dir []) else P.Before s.dir es

variable {F : FatDir δ} {P : F.Positions} {s : DirSlot δ}

/-- A slot with an entry to come reports it. -/
lemma readSlot_entry {e : Entry} {es : List Entry} (at_ : P.At s (e :: es)) :
    ∃ info s', F.readSlot s = ((errNone, some info), s') ∧ info.IsOf e ∧ s'.used = s.used ∧
      P.At s' es := by
  obtain ⟨ok, before⟩ : (F.stepped s).1 = errNone ∧ P.Before (F.stepped s).2 (e :: es) := by
    unfold FatDir.Positions.At at at_
    unfold FatDir.stepped
    split at at_
    · next on =>
      rw [if_pos on]
      rcases at_ with on' | ⟨⟨⟩, _⟩
      exact P.next_entry on'
    · next off =>
      rw [if_neg off]
      exact ⟨rfl, at_⟩
  obtain ⟨info, d', read, isOf, on⟩ := P.read_entry before
  refine ⟨info, ⟨d', s.used, true⟩, ?_, isOf, rfl, .inl on⟩
  rw [readSlot_stepped ok, read]

/-- A slot at the end reports that. -/
lemma readSlot_end (at_ : P.At s []) : (F.readSlot s).1.1 = errEof ∧
    (F.readSlot s).2.used = s.used ∧ P.At (F.readSlot s).2 [] := by
  -- stepping on from the end, or from the last entry, leads to the end
  obtain ⟨code, before⟩ : ((F.stepped s).1 = errNone ∨
      (s.needNext = true ∧ (F.stepped s).1 = errEof)) ∧ P.Before (F.stepped s).2 [] := by
    unfold FatDir.Positions.At at at_
    unfold FatDir.stepped
    split at at_
    · next on =>
      rw [if_pos on]
      rcases at_ with last | ⟨_, past⟩
      · exact ⟨(P.next_last last).1.imp_right fun eof => ⟨on, eof⟩, (P.next_last last).2⟩
      · exact ⟨(P.next_end past).1.imp_right fun eof => ⟨on, eof⟩, (P.next_end past).2⟩
    · next off =>
      rw [if_neg off]
      exact ⟨.inl rfl, at_⟩
  rcases code with ok | ⟨on, eof⟩
  · obtain ⟨eof, before'⟩ := P.read_end before
    rw [readSlot_stepped ok]
    exact ⟨eof, rfl, .inr ⟨rfl, before'⟩⟩
  · have bad : (F.stepped s).1 ≠ errNone := by
      rw [eof]
      decide
    rw [readSlot_stuck bad]
    refine ⟨eof, rfl, ?_⟩
    unfold FatDir.Positions.At
    rw [if_pos on]
    exact .inr ⟨rfl, before⟩

/-! ## One call of `readdir` -/

/-- An open handle whose next read reports the first of the entries. -/
def FatDir.Positions.Reads {F : FatDir δ} (P : F.Positions) (g : Fat32 δ) (fd : Int)
    (es : List Entry) : Prop :=
  g.IsOpen fd ∧ P.At (g.dirs fd.toNat) es

variable {g : Fat32 δ} {fd : Int}

/-- A step of the slot keeps the handle open. -/
lemma Reads.set {es es' : List Entry} {s' : DirSlot δ} (h : P.Reads g fd es)
    (used : s'.used = (g.dirs fd.toNat).used) (at_ : P.At s' es') :
    P.Reads (g.setDir fd.toNat s') fd es' := by
  obtain ⟨⟨pos, lt, open_⟩, _⟩ := h
  refine ⟨⟨pos, lt, ?_⟩, ?_⟩
  · rw [setDir_same, used, open_]
  · rw [setDir_same]
    exact at_

/-- A handle survives the way through the register. -/
lemma intOf_fd (op : g.IsOpen fd) : intOf (toRax fd) = fd := by
  obtain ⟨pos, lt, _⟩ := op
  simp only [maxOpendirs] at lt
  exact intOf_toRax (by omega) (by omega)

/-- `SYS_READDIR` on an entry hands it out. -/
lemma sysReaddir_entry {e : Entry} {es : List Entry} (h : P.Reads g fd (e :: es))
    (inf : AbiDirInfo) :
    ∃ g', F.sysReaddir g (toRax fd) infoAddr inf = (0, e.abi, g') ∧ P.Reads g' fd es := by
  obtain ⟨info, s', read, isOf, used, at_⟩ := readSlot_entry h.2
  refine ⟨g.setDir fd.toNat s', ?_, Reads.set h used at_⟩
  unfold FatDir.sysReaddir
  rw [if_neg (by decide), intOf_fd h.1, fat32DirRead_open h.1 (by decide), read]
  dsimp only
  rw [if_neg (not_not.mpr rfl), Option.map_some, Option.getD_some, abiDirInfo_of isOf]

/-- `SYS_READDIR` at the end reports it and stores nothing. -/
lemma sysReaddir_end (h : P.Reads g fd []) (inf : AbiDirInfo) :
    ∃ g', F.sysReaddir g (toRax fd) infoAddr inf = (toRax errEof, inf, g') ∧ P.Reads g' fd [] := by
  obtain ⟨eof, used, at_⟩ := readSlot_end h.2
  refine ⟨g.setDir fd.toNat (F.readSlot (g.dirs fd.toNat)).2, ?_, Reads.set h used at_⟩
  have ne : errEof ≠ errNone := by decide
  unfold FatDir.sysReaddir
  rw [if_neg (by decide), intOf_fd h.1, fat32DirRead_open h.1 (by decide)]
  dsimp only
  rw [eof, if_pos ne]

/-- One call of `readdir` passes the entries that are not listed, and hands out the next one that
    is, or reports the end. -/
lemma readdirLoop_spec {es : List Entry} (h : P.Reads g fd es) {fuel : Nat}
    (enough : es.length < fuel) (inf : AbiDirInfo) :
    (∃ g', es.filter Entry.visible = [] ∧ F.readdirLoop fd fuel inf g = some (errEof, none, g') ∧
      P.Reads g' fd []) ∨
    ∃ g' e es', es.filter Entry.visible = e :: es'.filter Entry.visible ∧ es'.length < es.length ∧
      F.readdirLoop fd fuel inf g = some (0, some e.abi, g') ∧ P.Reads g' fd es' := by
  induction es generalizing g fuel inf with
  | nil =>
    obtain ⟨n, rfl⟩ : ∃ n, fuel = n + 1 := ⟨fuel - 1, by omega⟩
    obtain ⟨g', e, h'⟩ := sysReaddir_end h inf
    have code : intOf (toRax errEof) = errEof := by decide
    have ne : errEof ≠ 0 := by decide
    refine .inl ⟨g', rfl, ?_, h'⟩
    rw [FatDir.readdirLoop, e]
    dsimp only
    rw [code, if_pos ne]
  | cons e es ih =>
    -- one round takes the first entry, and the rest is the loop on the entries behind it
    rw [List.length_cons] at enough
    obtain ⟨n, rfl⟩ : ∃ n, fuel = n + 1 := ⟨fuel - 1, by omega⟩
    obtain ⟨g', eq, h'⟩ := sysReaddir_entry h inf
    have code : ¬ intOf 0 ≠ 0 := by decide
    rw [FatDir.readdirLoop, eq]
    dsimp only
    rw [if_neg code, skipped_abi]
    cases vis : e.visible with
    | true =>
      refine .inr ⟨g', e, es, List.filter_cons_of_pos vis, Nat.lt_succ_self _, ?_, h'⟩
      rfl
    | false =>
      have skip : (e :: es).filter Entry.visible = es.filter Entry.visible :=
        List.filter_cons_of_neg (by rw [vis]; decide)
      have less : es.length < n := by omega
      rw [skip]
      rcases ih h' less e.abi with ⟨g2, none_, loop, h2⟩ | ⟨g2, e2, es2, some_, lt, loop, h2⟩
      · exact .inl ⟨g2, none_, loop, h2⟩
      · exact .inr ⟨g2, e2, es2, some_, Nat.lt_succ_of_lt lt, loop, h2⟩

/-! ## The listing -/

/-- `k` calls of `readdir` on a `DIR` with the descriptor `fd`: their return values, and what they
    store in `*info`. -/
def FatDir.readdirs (F : FatDir δ) (fuel : Nat) (dir : Nat) (fd : Int) (info : Nat)
    (inf : AbiDirInfo) : (k : Nat) → Fat32 δ → Option (List (Int × Option AbiDirInfo))
  | 0, _ => some []
  | k + 1, g =>
    match F.readdir fuel g dir fd info inf with
    | none => none
    | some (rc, out, g) => (F.readdirs fuel dir fd info inf k g).map ((rc, out) :: ·)

/-- The answers that list entries. -/
def listed (es : List Entry) : List (Int × Option AbiDirInfo) :=
  (es.filter Entry.visible).map fun e => (0, some e.abi)

/-- The answers list the entries, as far as they go, and report the end from then on. -/
def Lists (es : List Entry) (answers : List (Int × Option AbiDirInfo)) : Prop :=
  ∃ rest, answers = (listed es).take answers.length ++ rest ∧ ∀ a ∈ rest, a.1 ≠ 0

/-- Calls of `readdir` list the entries to come. -/
lemma readdirs_spec {dir info : Nat} (dir0 : dir ≠ 0) (info0 : info ≠ 0) (inf : AbiDirInfo)
    {fuel : Nat} (k : Nat) {es : List Entry} (h : P.Reads g fd es) (enough : es.length < fuel) :
    ∃ answers, F.readdirs fuel dir fd info inf k g = some answers ∧ answers.length = k ∧
      Lists es answers := by
  have call : ∀ g : Fat32 δ, F.readdir fuel g dir fd info inf = F.readdirLoop fd fuel inf g := by
    intro g
    exact if_neg (by simp [dir0, info0])
  induction k generalizing g es with
  | zero => exact ⟨[], rfl, rfl, [], rfl, by simp⟩
  | succ k ih =>
    rw [FatDir.readdirs, call]
    rcases readdirLoop_spec h enough inf with ⟨g', none_, e, h'⟩ | ⟨g', e, es', some_, lt, eq, h'⟩
    · obtain ⟨answers, run, len, rest, split, ends⟩ := ih h' (by rw [List.length_nil]; omega)
      rw [e]
      refine ⟨(errEof, none) :: answers, by dsimp only; rw [run]; rfl,
        by rw [List.length_cons, len], ?_⟩
      -- at the end every answer belongs to the tail
      have done : listed es = [] := by rw [listed, none_]; rfl
      have all : answers = rest := by simpa [listed] using split
      refine ⟨(errEof, none) :: answers, by rw [done]; simp, ?_⟩
      rw [all]
      simp only [List.forall_mem_cons]
      exact ⟨by decide, ends⟩
    · obtain ⟨answers, run, len, rest, split, ends⟩ := ih h' (by omega)
      rw [eq]
      refine ⟨(0, some e.abi) :: answers, by dsimp only; rw [run]; rfl,
        by rw [List.length_cons, len], rest, ?_, ends⟩
      have next : listed es = (0, some e.abi) :: listed es' := by rw [listed, some_]; rfl
      rw [next, List.length_cons, List.take_succ_cons, List.cons_append]
      exact congrArg _ split

/-- `opendir` opens the first free handle before the entries of the directory. -/
lemma opendir_reads (mounted : g.mounted = true) {path : List Byte} {es : List Entry}
    (opens : ∀ d, (F.fatDirOpen d path).1 = errNone ∧ P.Before (F.fatDirOpen d path).2 es)
    (free : ∃ i < maxOpendirs, (g.dirs i).used = false) {dir : Nat} (dir0 : dir ≠ 0) :
    ∃ fd g', F.opendir g dir (some path) = (0, some fd, g') ∧ P.Reads g' fd es := by
  obtain ⟨j, lt, d, open_, before⟩ : ∃ j < maxOpendirs, ∃ d,
      F.fat32DirOpen g (some path) = ((j : Int), g.setDir j ⟨d, true, false⟩) ∧ P.Before d es := by
    rcases fat32DirOpen_first F mounted path with ⟨j, lt, _, e⟩ | ⟨all, _⟩
    · obtain ⟨rc, before⟩ := opens (g.dirs j).dir
      refine ⟨j, lt, _, ?_, before⟩
      rw [e]
      exact if_neg (not_not.mpr rc)
    · obtain ⟨k, lt, unused⟩ := free
      rw [all k lt] at unused
      cases unused
  have code : intOf (toRax j) = j := by
    simp only [maxOpendirs] at lt
    exact intOf_toRax (by omega) (by omega)
  have pos : ¬ (j : Int) < 0 := by omega
  refine ⟨j, g.setDir j ⟨d, true, false⟩, ?_, ⟨by omega, by omega, ?_⟩, ?_⟩
  · unfold FatDir.opendir FatDir.sysOpendir
    rw [if_neg (by simp [dir0])]
    dsimp only
    rw [open_]
    dsimp only
    rw [code, if_neg pos]
  · rw [Int.toNat_natCast, setDir_same]
  · rw [Int.toNat_natCast, setDir_same]
    exact before

/-- A directory is listed exactly: `opendir` succeeds, and any number of calls of `readdir`, each
    within one more round than the directory has entries, answer the entries that are neither volume
    labels nor `.` nor `..`, in order, and a non-zero code from then on. -/
theorem directory_listed (P : F.Positions) {g : Fat32 δ} (mounted : g.mounted = true)
    {path : List Byte} {es : List Entry}
    (opens : ∀ d, (F.fatDirOpen d path).1 = errNone ∧ P.Before (F.fatDirOpen d path).2 es)
    (free : ∃ i < maxOpendirs, (g.dirs i).used = false) {dir info : Nat} (dir0 : dir ≠ 0)
    (info0 : info ≠ 0) :
    ∃ fd g', F.opendir g dir (some path) = (0, some fd, g') ∧
      ∀ inf k fuel, es.length < fuel → ∃ answers,
        F.readdirs fuel dir fd info inf k g' = some answers ∧ answers.length = k ∧
        Lists es answers := by
  obtain ⟨fd, g', e, reads⟩ := opendir_reads mounted opens free dir0
  exact ⟨fd, g', e, fun inf k fuel enough => readdirs_spec dir0 info0 inf k reads enough⟩

/-- What the library reports of an entry. -/
def Entry.info (e : Entry) : DirInfo := ⟨e.size, e.attr, e.name, e.name.length⟩

/-- The positions of `directory`: before what is left of its entries, or on the entry before it. -/
def directoryPositions (all : List Entry) : (directory (all.map Entry.info)).Positions where
  Before d es := es = all.drop d
  On d es := d < all.length ∧ es = all.drop (d + 1)
  read_entry := by
    rintro d e es before
    have lt : d < all.length := by
      by_contra le
      rw [List.drop_eq_nil_of_le (Nat.le_of_not_lt le)] at before
      cases before
    rw [List.drop_eq_getElem_cons lt] at before
    obtain ⟨rfl, rfl⟩ := List.cons.inj before
    have at_ : (all.map Entry.info)[d]? = some all[d].info := by
      rw [List.getElem?_map, List.getElem?_eq_getElem lt, Option.map_some]
    refine ⟨all[d].info, d, ?_, ⟨rfl, rfl, rfl, List.take_length⟩, lt, rfl⟩
    unfold directory
    dsimp only
    rw [at_]
  read_end := by
    intro d before
    have past : (all.map Entry.info)[d]? = none := by
      rw [List.getElem?_eq_none_iff, List.length_map]
      exact List.drop_eq_nil_iff.mp before.symm
    unfold directory
    dsimp only
    rw [past]
    exact ⟨rfl, before⟩
  next_entry on := ⟨rfl, on.2⟩
  next_last on := ⟨.inl rfl, on.2⟩
  next_end := by
    intro d before
    have past : all.length ≤ d := List.drop_eq_nil_iff.mp before.symm
    exact ⟨.inl rfl, (List.drop_eq_nil_of_le (Nat.le_succ_of_le past)).symm⟩

/-- A volume label, `.` and `..`, a file, and one with a name of 40 bytes. -/
def rootEntries : List Entry :=
  [⟨[0x54#8], 0, 0x08#8, by decide, by decide⟩, ⟨[0x2E#8], 0, 0x10#8, by decide, by decide⟩,
    ⟨[0x2E#8, 0x2E#8], 0, 0x10#8, by decide, by decide⟩,
    ⟨[0x61#8], 5, 0x20#8, by decide, by decide⟩,
    ⟨List.replicate 40 0x62#8, 7, 0x20#8, by decide, by decide⟩]

/-- The root directory. -/
def rootDir : FatDir Nat := directory (rootEntries.map Entry.info)

/-- The two files are listed, the second one under the first 32 bytes of its name. -/
theorem directory_listed_root :
    listed rootEntries = [(0, some ⟨0x61#8 :: List.replicate 32 0#8, 5, 0x20#8, 1⟩),
        (0, some ⟨List.replicate 32 0x62#8 ++ [0#8], 7, 0x20#8, 32⟩)] ∧
      ∃ fd g', rootDir.opendir rootDir.fat32Init 1 (some [0x2F#8]) = (0, some fd, g') ∧
        ∀ inf k fuel, rootEntries.length < fuel → ∃ answers,
          rootDir.readdirs fuel 1 fd 1 inf k g' = some answers ∧ answers.length = k ∧
          Lists rootEntries answers := by
  have opens : ∀ d, (rootDir.fatDirOpen d [0x2F#8]).1 = errNone ∧
      (directoryPositions rootEntries).Before (rootDir.fatDirOpen d [0x2F#8]).2 rootEntries :=
    fun _ => ⟨rfl, rfl⟩
  exact ⟨by decide, directory_listed (directoryPositions rootEntries) rfl opens
    ⟨0, by decide, rfl⟩ Nat.one_ne_zero Nat.one_ne_zero⟩

end TRS.Fat
