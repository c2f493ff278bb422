import TRS.Memory.Ownership

/-!
# Loading a program

`start_proc` of `kernel/app.c`. The FAT driver is a parameter; what is assumed of it is that
`fat_file_read` writes `min(len, size)` bytes, consecutively from its destination (`ReadsMin`). The
loader never looks at `PRO_MAX_SIZE`, the size of the window that `pmm_init` reserves for programs,
so that a load stays in the window exactly if the file does.

* `startProc_of_some`: the addresses that a load stores to are as many as the file has bytes.
* `window_avoided`: no page that a reachable allocator hands out lies in the window.

The headline `load_safe_iff` is by cases on what the open of the file reports; `load_leaves_window`
is a file of one byte too many.
-/

namespace TRS.App
open TRS.Lib TRS.Memory

/-- `PRO_BASE`. -/
abbrev proBase : Nat := 0x400000

/-- `PRO_MAX_SIZE`. -/
abbrev proMaxSize : Nat := 1024 * 1024

/-- `FAT_ERR_NONE`. -/
abbrev fatErrNone : Int := 0

/-- The flag `FAT_READ`. -/
abbrev fatRead : BitVec 8 := 0x02

/-- The FAT driver on a mounted disk, over its open files `φ`: `fat_file_open`, the field `size` of
    a `File`, and `fat_file_read` with the bytes it writes from its destination on. The length of a
    read is an `int` that the driver compares with unsigned values, so it is given as its 32
    bits. -/
structure FatDriver (φ : Type*) where
  fileOpen : List Byte → BitVec 8 → Int × φ
  size : φ → BitVec 32
  fileRead : φ → BitVec 32 → Int × List Byte

/-- `fat_file_read` writes `min(len, size)` bytes. -/
def FatDriver.ReadsMin {φ : Type*} (fat : FatDriver φ) : Prop :=
  ∀ file len, (fat.fileRead file len).2.length = min len.toNat (fat.size file).toNat

/-- The bytes `data` stored from address `dst` on, as pairs of an address and a byte. -/
def storesAt (dst : Nat) (data : List Byte) : List (Nat × Byte) :=
  data.zipIdx.map fun (b, i) => (dst + i, b)

/-- `start_proc(path)` up to the jump into the program: its return value and the bytes it stores. -/
def startProc {φ : Type*} (fat : FatDriver φ) (path : List Byte) : Int × List (Nat × Byte) :=
  let (rc, file) := fat.fileOpen path fatRead
  if rc ≠ fatErrNone then (-1, [])
  else
    let (rc, data) := fat.fileRead file (fat.size file)
    if rc ≠ fatErrNone then (-2, storesAt proBase data) else (0, storesAt proBase data)

/-- The stores of a copy are those to the bytes of its destination. -/
lemma mem_storesAt {dst a : Nat} {data : List Byte} :
    (∃ b, (a, b) ∈ storesAt dst data) ↔ dst ≤ a ∧ a < dst + data.length := by
  constructor
  · rintro ⟨b, m⟩
    obtain ⟨⟨c, i⟩, m, e⟩ := List.mem_map.mp m
    cases e
    have := (List.mem_zipIdx m).2.1
    omega
  · rintro ⟨le, lt⟩
    have ix : a - dst < data.length := by omega
    refine ⟨data[a - dst], List.mem_map.mpr ⟨(data[a - dst], a - dst), ?_, ?_⟩⟩
    · exact List.mk_mem_zipIdx_iff_getElem?.mpr (List.getElem?_eq_getElem ix)
    · exact Prod.ext (by dsimp only; omega) rfl

/-- Address `a` lies in the window that `pmm_init` reserves for programs. -/
def InProgramWindow (a : Nat) : Prop := proBase ≤ a ∧ a < proBase + proMaxSize

/-- The size of the file that `start_proc(path)` loads; none if it cannot be opened. -/
def loadSize {φ : Type*} (fat : FatDriver φ) (path : List Byte) : Option Nat :=
  let (rc, file) := fat.fileOpen path fatRead
  if rc ≠ fatErrNone then none else some (fat.size file).toNat

/-- `start_proc` fails without a store if the file cannot be opened. -/
lemma startProc_of_none {φ : Type*} {fat : FatDriver φ} {path : List Byte}
    (h : loadSize fat path = none) : startProc fat path = (-1, []) := by
  unfold loadSize at h
  unfold startProc
  dsimp only at h ⊢
  split at h
  · rename_i ne
    rw [if_pos ne]
  · cases h

/-- `start_proc` stores to the addresses from `PRO_BASE` on, as many as the file has bytes. -/
lemma startProc_of_some {φ : Type*} {fat : FatDriver φ} (reads : fat.ReadsMin) {path : List Byte}
    {size : Nat} (h : loadSize fat path = some size) (a : Nat) :
    (∃ b, (a, b) ∈ (startProc fat path).2) ↔ proBase ≤ a ∧ a < proBase + size := by
  unfold loadSize at h
  unfold startProc
  dsimp only at h ⊢
  split at h
  · cases h
  · rename_i eq
    cases h
    rw [if_neg eq]
    have len := reads (fat.fileOpen path fatRead).2 (fat.size (fat.fileOpen path fatRead).2)
    rw [Nat.min_self] at len
    rw [← len]
    split
    · exact mem_storesAt
    · exact mem_storesAt

/-- No returned block has a page that is written. -/
def Avoids (writes : List (Nat × Byte)) : Call → Nat → Prop
  | .alloc n, r => ∀ w ∈ writes, w.1 / pageSize ∉ blockPages r n
  | .free _, _ => True

/-- A load fails without a store or stays in the program window, and it writes no page that any
    sequence of calls of the allocator returns after any boot. -/
structure LoadsSafely {φ : Type*} (fat : FatDriver φ) (path : List Byte) : Prop where
  window : ((startProc fat path).1 ≠ 0 ∧ (startProc fat path).2 = []) ∨
    ∀ w ∈ (startProc fat path).2, InProgramWindow w.1
  apart : ∀ bi k mem s, pmmInit bi k mem = .ok s →
    ∀ cs, Guarded Owner.call Owner.FreesHeld (.start s) cs →
      Along Owner.call (fun _ c r _ => Avoids (startProc fat path).2 c r) (.start s) cs

/-- The allocator never returns a page of the program window. -/
lemma window_avoided {bi : BootInfo} {k : KernelImage} {mem : Mem} {s : Pmm}
    (init : pmmInit bi k mem = .ok s) {writes : List (Nat × Byte)}
    (inside : ∀ w ∈ writes, InProgramWindow w.1) {cs : List Call}
    (g : Guarded Owner.call Owner.FreesHeld (.start s) cs) :
    Along Owner.call (fun _ c r _ => Avoids writes c r) (.start s) cs := by
  obtain ⟨_, cleared, spec⟩ := pmmInit_inv init
  refine Along.of_invariant (fun o c h g => ?_) (Owned.start s) g
  obtain ⟨r, o', e, gr, h'⟩ := h.call spec g
  refine ⟨r, o', e, ?_, h'⟩
  cases c with
  | alloc n =>
    intro w mw mp
    have win : (proBase, proMaxSize) ∈ reservations bi k (bitmapOf bi) (bitmapBytesOf bi) := by
      simp [reservations]
    have first : Pmm.firstPage proBase = 0x400 := by decide
    have last : Pmm.lastPage proBase proMaxSize = 0x500 := by decide
    obtain ⟨le, lt⟩ := inside w mw
    apply gr.unreserved spec h mp win
    rw [first, last]
    simp only [pageSize, proBase, proMaxSize] at *
    omega
  | free _ => trivial

/-- A load is safe exactly if the file cannot be opened or is no larger than `PRO_MAX_SIZE`. -/
theorem load_safe_iff {φ : Type*} (fat : FatDriver φ) (reads : fat.ReadsMin) (path : List Byte) :
    LoadsSafely fat path ↔ ∀ size, loadSize fat path = some size → size ≤ proMaxSize := by
  constructor
  · intro safe size e
    by_contra big
    have stores := startProc_of_some reads e
    obtain ⟨b, m⟩ := (stores (proBase + proMaxSize)).mpr (by omega)
    rcases safe.window with ⟨_, none⟩ | inside
    · rw [none] at m
      cases m
    · exact absurd (inside _ m).2 (Nat.lt_irrefl _)
  · intro small
    have inside : ∀ w ∈ (startProc fat path).2, InProgramWindow w.1 := by
      intro w m
      cases e : loadSize fat path with
      | none =>
        rw [startProc_of_none e] at m
        cases m
      | some size =>
        have := (startProc_of_some reads e w.1).mp ⟨w.2, m⟩
        have := small size e
        exact ⟨by omega, by omega⟩
    exact ⟨.inr inside, fun _ _ _ _ init _ g => window_avoided init inside g⟩

/-- A disk whose only file has `size` zero bytes. -/
def zeroDisk (size : BitVec 32) : FatDriver Unit where
  fileOpen _ _ := (fatErrNone, ())
  size _ := size
  fileRead _ len := (fatErrNone, List.replicate (min len.toNat size.toNat) 0#8)

/-- A read of it gives as many zeros as asked for, up to the size of the file. -/
lemma zeroDisk_readsMin (size : BitVec 32) : (zeroDisk size).ReadsMin :=
  fun _ _ => List.length_replicate

/-- A file of two pages, on a disk of zeros. -/
theorem load_safe_iff_small : LoadsSafely (zeroDisk 0x2000#32) [] ↔
    ∀ size, loadSize (zeroDisk 0x2000#32) [] = some size → size ≤ proMaxSize :=
  load_safe_iff (zeroDisk 0x2000#32) (zeroDisk_readsMin _) []

/-- A program of one byte more than `PRO_MAX_SIZE` is written beyond the window. -/
theorem load_leaves_window :
    (zeroDisk 0x100001#32).ReadsMin ∧ ¬ LoadsSafely (zeroDisk 0x100001#32) [] := by
  refine ⟨zeroDisk_readsMin _, fun safe => ?_⟩
  have size : loadSize (zeroDisk 0x100001#32) [] = some 0x100001 := rfl
  obtain ⟨b, m⟩ := (startProc_of_some (zeroDisk_readsMin _) size 0x500000).mpr (by decide)
  rcases safe.window with ⟨_, none⟩ | inside
  · rw [none] at m
    cases m
  · exact absurd (inside _ m).2 (Nat.lt_irrefl 0x500000)

end TRS.App
