import Mathlib.Data.Finset.Card
import TRS.Fat.Basic

/-!
# Directory handles

What each operation does to the set of open handles, and that what is read through a handle depends
on nothing that happens to the others.

* `fat32DirOpen_spec`: an open takes the first free slot, or fails and opens none.
* `tableSpec`: what each operation does to the set of open handles.
* `SameSlot.own`, `SameSlot.other`: one operation, seen through one handle.
* `isolated`: the operations through a handle are those of a table of its own (`run_projects`).

The headline `dir_handles_isolated` says both of every state that operations reach.
-/

namespace TRS.Fat
open TRS.Lib

variable {δ : Type*} {F : FatDir δ} {g : Fat32 δ}

/-- A handle is open. -/
def Fat32.IsOpen (g : Fat32 δ) (slot : Int) : Prop :=
  0 ≤ slot ∧ slot < maxOpendirs ∧ (g.dirs slot.toNat).used = true

instance (g : Fat32 δ) (slot : Int) : Decidable (g.IsOpen slot) := by
  unfold Fat32.IsOpen; infer_instance

/-- The number of open handles. -/
def Fat32.openCount (g : Fat32 δ) : Nat :=
  ((Finset.range maxOpendirs).filter fun i => (g.dirs i).used = true).card

/-- An operation on the table. -/
inductive Op where
  | open_ (path : Option (List Byte))
  | read (slot : Int) (info : Nat)
  | close (slot : Int)
  deriving DecidableEq, Repr

/-- One operation: its return value, the `DirInfo` that it stores, and the table. -/
def FatDir.step (F : FatDir δ) (g : Fat32 δ) : Op → (Int × Option DirInfo) × Fat32 δ
  | .open_ path => (((F.fat32DirOpen g path).1, none), (F.fat32DirOpen g path).2)
  | .read slot info => F.fat32DirRead g slot info
  | .close slot => (((F.fat32DirClose g slot).1, none), (F.fat32DirClose g slot).2)

/-- What the library promises of `fat_dir_open`: its codes are those of `fat.h`, and where it goes
    does not depend on what is in the `Dir` that it is given, whose fields it sets. -/
structure FatDir.Opens (F : FatDir δ) : Prop where
  code : ∀ d path, (F.fatDirOpen d path).1 ≤ errNone
  rc : ∀ d d' path, (F.fatDirOpen d path).1 = (F.fatDirOpen d' path).1
  dir : ∀ d d' path, (F.fatDirOpen d path).1 = errNone →
    (F.fatDirOpen d path).2 = (F.fatDirOpen d' path).2

/-- The path leads to a directory. -/
def FatDir.Resolves (F : FatDir δ) (path : List Byte) : Prop :=
  (F.fatDirOpen F.zero path).1 = errNone

/-- A free slot is opened, or keeps no more than a position. -/
lemma openSlot_spec (o : F.Opens) (g : Fat32 δ) (path : List Byte) (j : Nat) :
    (F.Resolves path ∧ F.openSlot g path j =
      ((j : Int), g.setDir j ⟨(F.fatDirOpen F.zero path).2, true, false⟩)) ∨
    (¬ F.Resolves path ∧ (F.openSlot g path j).1 < 0 ∧
      ∃ dir, (F.openSlot g path j).2 = g.setDir j { g.dirs j with dir }) := by
  have same := o.rc (g.dirs j).dir F.zero path
  unfold FatDir.openSlot
  dsimp only
  by_cases res : F.Resolves path
  · have ok : (F.fatDirOpen (g.dirs j).dir path).1 = errNone := same.trans res
    rw [if_neg (not_not.mpr ok), o.dir _ F.zero path ok]
    exact .inl ⟨res, rfl⟩
  · have bad : (F.fatDirOpen (g.dirs j).dir path).1 ≠ errNone := fun e => res (same.symm.trans e)
    rw [if_pos bad]
    exact .inr ⟨res, lt_of_le_of_ne (o.code _ path) bad, _, rfl⟩

/-! ## The set of open handles -/

/-- What the operations do to the set of open handles. -/
structure FatDir.TableSpec (F : FatDir δ) (g : Fat32 δ) : Prop where
  open_new : ∀ path, 0 ≤ (F.fat32DirOpen g path).1 → ¬ g.IsOpen (F.fat32DirOpen g path).1 ∧
    ∀ k, (F.fat32DirOpen g path).2.IsOpen k ↔ g.IsOpen k ∨ k = (F.fat32DirOpen g path).1
  open_fails : ∀ path, (F.fat32DirOpen g path).1 < 0 →
    ∀ k, (F.fat32DirOpen g path).2.IsOpen k ↔ g.IsOpen k
  open_succeeds : ∀ path, g.openCount < maxOpendirs → F.Resolves path →
    0 ≤ (F.fat32DirOpen g (some path)).1
  read_keeps : ∀ slot info k, (F.fat32DirRead g slot info).2.IsOpen k ↔ g.IsOpen k
  close_own : ∀ slot, g.IsOpen slot → (F.fat32DirClose g slot).1 = errNone ∧
    ∀ k, (F.fat32DirClose g slot).2.IsOpen k ↔ g.IsOpen k ∧ k ≠ slot
  not_open : ∀ slot, ¬ g.IsOpen slot → F.fat32DirClose g slot = (errParam, g) ∧
    ∀ info, F.fat32DirRead g slot info = ((errParam, none), g)

/-- A store to a slot opens or closes its own handle only. -/
lemma isOpen_setDir (g : Fat32 δ) {i : Nat} (lt : i < maxOpendirs) (s : DirSlot δ) (k : Int) :
    (g.setDir i s).IsOpen k ↔ if k = i then s.used = true else g.IsOpen k := by
  unfold Fat32.IsOpen
  by_cases e : k = i
  · subst e
    rw [if_pos rfl, Int.toNat_natCast, setDir_same]
    simp only [maxOpendirs] at *
    constructor
    · exact fun h => h.2.2
    · exact fun h => ⟨by omega, by omega, h⟩
  · rw [if_neg e]
    by_cases neg : 0 ≤ k
    · rw [setDir_other g s (by omega)]
    · simp [neg]

/-- A store to a slot that keeps `used` keeps the open handles. -/
lemma isOpen_setDir_same (g : Fat32 δ) {i : Nat} (lt : i < maxOpendirs) {s : DirSlot δ}
    (used : s.used = (g.dirs i).used) (k : Int) : (g.setDir i s).IsOpen k ↔ g.IsOpen k := by
  rw [isOpen_setDir g lt]
  split
  · next e =>
    subst e
    unfold Fat32.IsOpen
    rw [Int.toNat_natCast, used]
    simp only [maxOpendirs] at *
    exact ⟨fun h => ⟨by omega, by omega, h⟩, fun h => h.2.2⟩
  · rfl

/-- `fat32_dir_open` on a mounted volume: it opens the first free slot, or keeps the open
    handles. -/
lemma fat32DirOpen_spec (o : F.Opens) (mounted : g.mounted = true) (path : List Byte) :
    (∃ j < maxOpendirs, (g.dirs j).used = false ∧ F.Resolves path ∧
      F.fat32DirOpen g (some path) =
        ((j : Int), g.setDir j ⟨(F.fatDirOpen F.zero path).2, true, false⟩)) ∨
    ((F.fat32DirOpen g (some path)).1 < 0 ∧
      (F.Resolves path → ∀ j < maxOpendirs, (g.dirs j).used = true) ∧
      ∀ k, (F.fat32DirOpen g (some path)).2.IsOpen k ↔ g.IsOpen k) := by
  rcases fat32DirOpen_first F mounted path with ⟨j, lt, free, e⟩ | ⟨all, e⟩
  · rw [e]
    rcases openSlot_spec o g path j with ⟨res, slot⟩ | ⟨no, neg, dir, slot⟩
    · exact .inl ⟨j, lt, free, res, slot⟩
    · refine .inr ⟨neg, fun res => absurd res no, fun k => ?_⟩
      rw [slot]
      exact isOpen_setDir_same g (s := { g.dirs j with dir }) lt rfl k
  · have neg : errFull < 0 := by decide
    rw [e]
    exact .inr ⟨neg, fun _ => all, fun _ => Iff.rfl⟩

/-- A slot that is not in use is no open handle. -/
lemma not_open_zero {i : Nat} (free : (g.dirs i).used = false) : ¬ g.IsOpen i := by
  rintro ⟨_, _, used⟩
  rw [Int.toNat_natCast, free] at used
  cases used

/-- A read through an open handle, with room for the answer, is a read of its slot. -/
lemma fat32DirRead_open {slot : Int} (op : g.IsOpen slot) {info : Nat} (ne : info ≠ 0) :
    F.fat32DirRead g slot info = ((F.readSlot (g.dirs slot.toNat)).1,
      g.setDir slot.toNat (F.readSlot (g.dirs slot.toNat)).2) := by
  obtain ⟨pos, lt, used⟩ := op
  unfold FatDir.fat32DirRead
  rw [if_neg]
  rintro (neg | big | null | free)
  · omega
  · omega
  · exact ne null
  · rw [used] at free
    cases free

/-- Any other read changes nothing. -/
lemma fat32DirRead_refused {slot : Int} {info : Nat} (h : ¬ (g.IsOpen slot ∧ info ≠ 0)) :
    F.fat32DirRead g slot info = ((errParam, none), g) := by
  unfold FatDir.fat32DirRead
  rw [if_pos]
  by_contra ok
  simp only [not_or, not_lt, ge_iff_le, not_le, Bool.not_eq_true', Bool.not_eq_false] at ok
  exact h ⟨⟨ok.1, ok.2.1, ok.2.2.2⟩, ok.2.2.1⟩

/-- `fat32_dir_close` on an open handle clears its slot. -/
lemma fat32DirClose_open {slot : Int} (op : g.IsOpen slot) :
    F.fat32DirClose g slot = (errNone, g.setDir slot.toNat F.zeroSlot) := by
  obtain ⟨pos, lt, used⟩ := op
  unfold FatDir.fat32DirClose
  rw [if_neg]
  rintro (neg | big | free)
  · omega
  · omega
  · rw [used] at free
    cases free

/-- It refuses every other handle. -/
lemma fat32DirClose_refused {slot : Int} (h : ¬ g.IsOpen slot) :
    F.fat32DirClose g slot = (errParam, g) := by
  unfold FatDir.fat32DirClose
  rw [if_pos]
  by_contra ok
  simp only [not_or, not_lt, ge_iff_le, not_le, Bool.not_eq_true', Bool.not_eq_false] at ok
  exact h ok

/-- Reading a slot keeps it in use. -/
lemma readSlot_used (F : FatDir δ) (s : DirSlot δ) : (F.readSlot s).2.used = s.used := by
  unfold FatDir.readSlot
  dsimp only
  split <;> split <;> rfl

/-- The operations open and close handles as they should. -/
lemma tableSpec (o : F.Opens) (mounted : g.mounted = true) : F.TableSpec g where
  open_new := by
    intro path pos
    cases path with
    | none =>
      have neg : ¬ 0 ≤ errParam := by decide
      exact absurd pos neg
    | some path =>
      rcases fat32DirOpen_spec o mounted path with ⟨j, lt, free, _, e⟩ | ⟨neg, _⟩
      · rw [e]
        refine ⟨not_open_zero free, fun k => ?_⟩
        rw [isOpen_setDir g lt]
        split
        · next eq => simp [eq]
        · next ne => simp [ne]
      · omega
  open_fails := by
    intro path neg
    cases path with
    | none => exact fun _ => Iff.rfl
    | some path =>
      rcases fat32DirOpen_spec o mounted path with ⟨j, _, _, _, e⟩ | ⟨_, _, keep⟩
      · rw [e] at neg
        dsimp only at neg
        omega
      · exact keep
  open_succeeds := by
    intro path few res
    rcases fat32DirOpen_spec o mounted path with ⟨j, _, _, _, e⟩ | ⟨_, all, _⟩
    · rw [e]
      exact Int.natCast_nonneg j
    · -- the table is full
      have full : g.openCount = maxOpendirs := by
        unfold Fat32.openCount
        rw [Finset.filter_true_of_mem fun i m => all res i (Finset.mem_range.mp m),
          Finset.card_range]
      omega
  read_keeps := by
    intro slot info k
    by_cases h : g.IsOpen slot ∧ info ≠ 0
    · rw [fat32DirRead_open h.1 h.2]
      obtain ⟨pos, lt, _⟩ := h.1
      exact isOpen_setDir_same g (by omega) (readSlot_used F _) k
    · rw [fat32DirRead_refused h]
  close_own := by
    intro slot op
    rw [fat32DirClose_open op]
    obtain ⟨pos, lt, _⟩ := op
    refine ⟨rfl, fun k => ?_⟩
    rw [isOpen_setDir g (by omega), Int.toNat_of_nonneg pos]
    split
    · next eq => simp [eq, FatDir.zeroSlot]
    · next ne => simp [ne]
  not_open := by
    intro slot no
    exact ⟨fat32DirClose_refused no, fun info => fat32DirRead_refused fun h => no h.1⟩

/-! ## Isolation -/

/-- An operation on handle `h`, as the operation on handle 0. -/
def Op.onto (h : Int) : Op → Option Op
  | .open_ _ => none
  | .read slot info => if slot = h then some (.read 0 info) else none
  | .close slot => if slot = h then some (.close 0) else none

/-- Whatever happens to other handles between the open of a handle and its close, the operations
    through it are answered as if it were the only one ever opened. -/
def FatDir.Isolated (F : FatDir δ) (g : Fat32 δ) : Prop :=
  ∀ path h g1, F.fat32DirOpen g (some path) = (h, g1) → 0 ≤ h →
    ∃ g0, F.fat32DirOpen F.fat32Init (some path) = (0, g0) ∧ ∀ mid, .close h ∉ mid →
      answersTo (Op.onto h) mid (run F.step g1 mid).1 =
        (run F.step g0 (mid.filterMap (Op.onto h))).1

/-- `fat32_dir_open` touches one free slot, if any. -/
lemma fat32DirOpen_changes (F : FatDir δ) (g : Fat32 δ) (path : Option (List Byte)) :
    (F.fat32DirOpen g path).2 = g ∨
      ∃ j s, (g.dirs j).used = false ∧ (F.fat32DirOpen g path).2 = g.setDir j s := by
  cases path with
  | none => exact .inl rfl
  | some path =>
    cases mounted : g.mounted with
    | false =>
      have refused : F.fat32DirOpen g (some path) = (errParam, g) := if_neg (by simp [mounted])
      rw [refused]
      exact .inl rfl
    | true =>
      rcases fat32DirOpen_first F mounted path with ⟨j, _, free, e⟩ | ⟨_, e⟩
      · rw [e]
        refine .inr ?_
        unfold FatDir.openSlot
        dsimp only
        split
        · exact ⟨j, _, free, rfl⟩
        · exact ⟨j, _, free, rfl⟩
      · rw [e]
        exact .inl rfl

/-- `fat32_dir_open` leaves the slots in use as they are. -/
lemma fat32DirOpen_frame (F : FatDir δ) (g : Fat32 δ) (path : Option (List Byte)) {k : Nat}
    (used : (g.dirs k).used = true) : (F.fat32DirOpen g path).2.dirs k = g.dirs k := by
  rcases fat32DirOpen_changes F g path with e | ⟨j, s, free, e⟩
  · rw [e]
  · rw [e]
    refine setDir_other g s fun eq => ?_
    rw [eq, free] at used
    cases used

/-- The slot of handle `h` and slot 0 of another table are in the same state. -/
def SameSlot (h : Int) (g g0 : Fat32 δ) : Prop :=
  g.IsOpen h ∧ g0.IsOpen 0 ∧ g.dirs h.toNat = g0.dirs 0

/-- Where the slot stays, the states stay the same. -/
lemma SameSlot.frame {h : Int} {g g' g0 : Fat32 δ} (same : SameSlot h g g0)
    (frame : g'.dirs h.toNat = g.dirs h.toNat) : SameSlot h g' g0 := by
  obtain ⟨⟨pos, lt, used⟩, op0, eq⟩ := same
  exact ⟨⟨pos, lt, by rw [frame]; exact used⟩, op0, frame.trans eq⟩

/-- An operation on other handles leaves the slot of an open handle alone. -/
lemma step_frame {h : Int} (op : g.IsOpen h) {c : Op} (other : c.onto h = none) :
    (F.step g c).2.dirs h.toNat = g.dirs h.toNat := by
  obtain ⟨pos, lt, used⟩ := op
  cases c with
  | open_ path => exact fat32DirOpen_frame F g path used
  | read slot info =>
    have ne : slot ≠ h := fun e => by simp [Op.onto, e] at other
    by_cases ok : g.IsOpen slot ∧ info ≠ 0
    · have pos' := ok.1.1
      rw [FatDir.step, fat32DirRead_open ok.1 ok.2]
      exact setDir_other g _ (by omega)
    · rw [FatDir.step, fat32DirRead_refused ok]
  | close slot =>
    have ne : slot ≠ h := fun e => by simp [Op.onto, e] at other
    by_cases ok : g.IsOpen slot
    · have pos' := ok.1
      rw [FatDir.step, fat32DirClose_open ok]
      exact setDir_other g _ (by omega)
    · rw [FatDir.step, fat32DirClose_refused ok]

/-- An operation on another handle keeps them the same. -/
lemma SameSlot.other {h : Int} {g g0 : Fat32 δ} (same : SameSlot h g g0) {c : Op}
    (other : c.onto h = none) : SameSlot h (F.step g c).2 g0 :=
  same.frame (step_frame same.1 other)

/-- An operation through the handle is answered the same, and keeps them so. -/
lemma SameSlot.own {h : Int} {g g0 : Fat32 δ} (same : SameSlot h g g0) {c k : Op}
    (own : c.onto h = some k) (no : c ≠ .close h) :
    (F.step g c).1 = (F.step g0 k).1 ∧ SameSlot h (F.step g c).2 (F.step g0 k).2 := by
  obtain ⟨op, op0, eq⟩ := same
  cases c with
  | open_ path => cases own
  | close slot =>
    simp only [Op.onto] at own
    split at own
    · next e => exact absurd (by rw [e]) no
    · cases own
  | read slot info =>
    simp only [Op.onto] at own
    split at own
    · next e =>
      cases own
      subst e
      simp only [FatDir.step]
      by_cases ne : info ≠ 0
      · rw [fat32DirRead_open op ne, fat32DirRead_open op0 ne, Int.toNat_zero, eq]
        have keep := readSlot_used F (g0.dirs 0)
        obtain ⟨pos, lt, used⟩ := op
        obtain ⟨pos0, lt0, used0⟩ := op0
        rw [Int.toNat_zero] at used0
        refine ⟨rfl, ⟨pos, lt, ?_⟩, ⟨pos0, lt0, ?_⟩, ?_⟩
        · rw [setDir_same, keep, used0]
        · rw [Int.toNat_zero, setDir_same, keep, used0]
        · rw [setDir_same, setDir_same]
      · rw [fat32DirRead_refused fun h => ne h.2, fat32DirRead_refused fun h => ne h.2]
        exact ⟨rfl, op, op0, eq⟩
    · cases own

/-- What is read through a handle depends on no other handle. -/
lemma isolated (o : F.Opens) (mounted : g.mounted = true) : F.Isolated g := by
  intro path h g1 e pos
  rcases fat32DirOpen_spec o mounted path with ⟨j, lt, _, res, e'⟩ | ⟨neg, _⟩
  · rw [e'] at e
    cases e
    refine ⟨F.fat32Init.setDir 0 ⟨(F.fatDirOpen F.zero path).2, true, false⟩, ?_, fun mid no => ?_⟩
    · have ok : ¬ (F.fatDirOpen F.zero path).1 ≠ errNone := not_not.mpr res
      exact if_neg ok
    · refine run_projects (R := SameSlot j) (G := fun c => c ≠ .close j) ?_ ?_ ?_ mid ?_
      · exact fun s t c k own same no => same.own own no
      · exact fun s t c other same _ => same.other other
      · refine ⟨⟨pos, by exact_mod_cast lt, ?_⟩, ⟨Int.le_refl 0, by decide, ?_⟩, ?_⟩
        · rw [Int.toNat_natCast, setDir_same]
        · rw [Int.toNat_zero, setDir_same]
        · rw [Int.toNat_natCast, setDir_same, setDir_same]
      · exact fun c m e => no (e ▸ m)
  · rw [e] at neg
    dsimp only at neg
    omega

/-- No operation unmounts the volume. -/
lemma step_mounted (F : FatDir δ) (g : Fat32 δ) (c : Op) : (F.step g c).2.mounted = g.mounted := by
  cases c with
  | open_ path =>
    rcases fat32DirOpen_changes F g path with e | ⟨j, s, _, e⟩
    · rw [FatDir.step, e]
    · rw [FatDir.step, e]
      rfl
  | read slot info =>
    rw [FatDir.step]
    unfold FatDir.fat32DirRead
    split <;> rfl
  | close slot =>
    rw [FatDir.step]
    unfold FatDir.fat32DirClose
    split <;> rfl

/-- Directory handles are isolated, after any sequence of operations on any handles: the set of open
    handles changes as the operations say, and what is read through a handle from its open to its
    close is what is read through it where no other handle is ever touched. -/
theorem dir_handles_isolated (o : F.Opens) (ops : List Op) :
    F.TableSpec (run F.step F.fat32Init ops).2 ∧ F.Isolated (run F.step F.fat32Init ops).2 := by
  have mounted : ∀ g : Fat32 δ, g.mounted = true → (run F.step g ops).2.mounted = true := by
    induction ops with
    | nil => exact fun g h => h
    | cons c ops ih => exact fun g h => ih _ ((step_mounted F g c).trans h)
  exact ⟨tableSpec o (mounted _ rfl), isolated o (mounted _ rfl)⟩

/-- A volume with one directory, whose entries the library reports so. A `Dir` is the number of
    entries that it has passed. -/
def directory (infos : List DirInfo) : FatDir Nat where
  fatDirOpen d path := if path = [0x2F#8] then (errNone, 0) else (-5, d + 1)
  fatDirRead d :=
    match infos[d]? with
    | some info => (errNone, some info, d)
    | none => (errEof, none, d)
  fatDirNext d := (errNone, d + 1)
  zero := 0

/-- Such a library opens as promised. -/
lemma directory_opens (infos : List DirInfo) : (directory infos).Opens where
  code d path := by
    unfold directory
    dsimp only
    split
    · exact Int.le_refl _
    · have neg : (-5 : Int) ≤ errNone := by decide
      exact neg
  rc d d' path := by
    unfold directory
    dsimp only
    split <;> rfl
  dir d d' path ok := by
    unfold directory at ok ⊢
    dsimp only at ok ⊢
    split
    · rfl
    · next no =>
      rw [if_neg no] at ok
      cases ok

/-- A directory with two files. -/
def twoFiles : FatDir Nat := directory [⟨5, 0x20#8, [0x61#8], 1⟩, ⟨7, 0x20#8, [0x62#8], 1⟩]

/-- Two handles on the same directory, which are read in turn. The first one is closed, and its slot
    is opened again. -/
def readInTurn : List Op :=
  [.open_ (some [0x2F#8]), .open_ (some [0x2F#8]), .read 0 1, .read 0 1, .read 1 1, .close 0,
    .read 0 1, .open_ none, .open_ (some [0x2F#8]), .read 0 1, .read 1 1]

/-- In this run opens, reads and a close succeed. -/
theorem dir_handles_isolated_twoFiles :
    (run twoFiles.step twoFiles.fat32Init readInTurn).1 =
        [(0, none), (1, none), (0, some ⟨5, 0x20#8, [0x61#8], 1⟩),
          (0, some ⟨7, 0x20#8, [0x62#8], 1⟩), (0, some ⟨5, 0x20#8, [0x61#8], 1⟩), (0, none),
          (errParam, none), (errParam, none), (0, none), (0, some ⟨5, 0x20#8, [0x61#8], 1⟩),
          (0, some ⟨7, 0x20#8, [0x62#8], 1⟩)] ∧
      twoFiles.TableSpec (run twoFiles.step twoFiles.fat32Init readInTurn).2 ∧
      twoFiles.Isolated (run twoFiles.step twoFiles.fat32Init readInTurn).2 :=
  ⟨rfl, dir_handles_isolated (directory_opens _) _⟩

end TRS.Fat
