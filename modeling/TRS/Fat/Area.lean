import Mathlib.Data.List.GetD
import TRS.Fat.Isolation
import TRS.Fat.Roam

/-!
# The sectors of a file

`clust_to_sect` and `sect_to_clust` of the FAT library (`trfs/fat32/fat.c`). A cluster covers a run
of sectors behind the tables, and no two clusters share one; `fileSect` numbers the sectors of a
file, whose clusters need not be in a row.

* `Layout.covers_unique`: no sector is one of two clusters.
* `Layout.fileSect_inj`: the numbering of a file's sectors is injective.
* `fileSect_prefix`: it does not change when the file gets more clusters.
* `Layout.outside`: the clusters lie outside of `FsInfo` and of the tables.
-/

namespace TRS.Fat
open TRS.Lib

namespace FatFs

/-- `clust_to_sect(fat, clust)`. -/
def clustToSect (fat : FatFs) (clust : Nat) : Nat :=
  u32 (u32 (u32 (clust + 2 ^ 32 - 2) * 2 ^ fat.clustShift) + fat.dataSect)

/-- `sect_to_clust(fat, sect)`. -/
def sectToClust (fat : FatFs) (sect : Nat) : Nat :=
  u32 (u32 (sect + 2 ^ 32 - fat.dataSect) / 2 ^ fat.clustShift + 2)

/-- Sector `n` is one of the cluster. -/
def Covers (fat : FatFs) (clust n : Nat) : Prop :=
  fat.clustToSect clust ≤ n ∧ n < fat.clustToSect clust + 2 ^ fat.clustShift

/-- Sector `n` is one of the clusters `l`. -/
def InChain (fat : FatFs) (l : List Nat) (n : Nat) : Prop := ∃ c ∈ l, fat.Covers c n

/-- Sector `n` is neither `FsInfo` nor one of the tables. -/
def Outside (fat : FatFs) (n : Nat) : Prop := n ≠ fat.infoSect ∧ ¬ fat.InTable n

/-- The `k`-th sector of a file with the clusters `l`. -/
def fileSect (fat : FatFs) (l : List Nat) (k : Nat) : Nat :=
  fat.clustToSect (l.getD (k / 2 ^ fat.clustShift) 0) + k % 2 ^ fat.clustShift

/-- The number of sectors of a file with the clusters `l`. -/
def sectCount (fat : FatFs) (l : List Nat) : Nat := l.length * 2 ^ fat.clustShift

variable {fat : FatFs} {c d n k : Nat} {l l' : List Nat}

/-- `clust_to_sect` does not wrap. -/
lemma Layout.clustToSect_eq (lay : fat.Layout) (two : 2 ≤ c) (lt : c < fat.clustCnt) :
    fat.clustToSect c = fat.dataSect + (c - 2) * 2 ^ fat.clustShift ∧
      fat.dataSect + (c - 2) * 2 ^ fat.clustShift + 2 ^ fat.clustShift ≤ 2 ^ 32 := by
  have data := lay.data
  have pos := Nat.two_pow_pos fat.clustShift
  have last : (c - 2) * 2 ^ fat.clustShift + 2 ^ fat.clustShift ≤
      (fat.clustCnt - 2) * 2 ^ fat.clustShift := by
    rw [← Nat.succ_mul]
    exact Nat.mul_le_mul_right _ (by omega)
  have cnt := lay.small
  have first : u32 (c + 2 ^ 32 - 2) = c - 2 := by
    unfold u32
    omega
  have inner : u32 ((c - 2) * 2 ^ fat.clustShift) = (c - 2) * 2 ^ fat.clustShift :=
    u32_of_lt (by omega)
  refine ⟨?_, by omega⟩
  unfold clustToSect
  rw [first, inner, u32_of_lt (by omega), Nat.add_comm]

/-- `sect_to_clust` finds the cluster of a sector. -/
lemma Layout.sectToClust_eq (lay : fat.Layout) (two : 2 ≤ c) (lt : c < fat.clustCnt)
    (covers : fat.Covers c n) : fat.sectToClust n = c := by
  obtain ⟨eq, inside⟩ := lay.clustToSect_eq two lt
  obtain ⟨le, lt'⟩ := covers
  have cnt := lay.small
  rw [eq] at le lt'
  have pos := Nat.two_pow_pos fat.clustShift
  unfold sectToClust
  have off : u32 (n + 2 ^ 32 - fat.dataSect) = n - fat.dataSect := by
    unfold u32
    omega
  have index : (n - fat.dataSect) / 2 ^ fat.clustShift = c - 2 :=
    Nat.div_eq_of_lt_le (by omega) (by rw [Nat.succ_mul]; omega)
  rw [off, index, u32_of_lt (by omega)]
  omega

/-- The clusters of a file of a sound volume. -/
def Numbered (fat : FatFs) (l : List Nat) : Prop := ∀ c ∈ l, 2 ≤ c ∧ c < fat.clustCnt

/-- No sector is in two clusters. -/
lemma Layout.covers_unique (lay : fat.Layout) (c_two : 2 ≤ c) (c_lt : c < fat.clustCnt)
    (d_two : 2 ≤ d) (d_lt : d < fat.clustCnt) (first : fat.Covers c n) (second : fat.Covers d n) :
    c = d :=
  (lay.sectToClust_eq c_two c_lt first).symm.trans (lay.sectToClust_eq d_two d_lt second)

/-- The sectors of clusters are behind the tables. -/
lemma Layout.inChain_data (lay : fat.Layout) (num : fat.Numbered l) (mem : fat.InChain l n) :
    fat.dataSect ≤ n ∧ n < 2 ^ 32 := by
  obtain ⟨c, c_mem, le, lt⟩ := mem
  obtain ⟨two, lt'⟩ := num c c_mem
  obtain ⟨eq, inside⟩ := lay.clustToSect_eq two lt'
  rw [eq] at le lt
  omega

/-- A sector behind the tables is not one of theirs. -/
lemma Layout.not_inTable (lay : fat.Layout) (le : fat.dataSect ≤ n) : ¬ fat.InTable n := by
  rintro ⟨base, mem, _, lt⟩
  have := lay.bounds mem
  omega

/-- A sector of the data area is not `FsInfo`. -/
lemma Layout.ne_info (lay : fat.Layout) (le : fat.dataSect ≤ n) : n ≠ fat.infoSect := by
  have := lay.first
  omega

/-- It is outside of `FsInfo` and of the tables. -/
lemma Layout.outside (lay : fat.Layout) (le : fat.dataSect ≤ n) : fat.Outside n :=
  ⟨lay.ne_info le, lay.not_inTable le⟩

/-- The counters of a volume do not matter to that. -/
lemma outside_of_geometry {fat' : FatFs} (e : fat'.geometry = fat.geometry) :
    fat'.Outside = fat.Outside := by
  have same := congrArg FatFs.Outside e
  exact same

/-- It is not sector 0. -/
lemma Layout.data_pos (lay : fat.Layout) (le : fat.dataSect ≤ n) : n ≠ 0 := by
  have := lay.first
  omega

section FileSect

/-- A sector of a file is in one of its clusters. -/
lemma index_lt (lt : k < fat.sectCount l) : k / 2 ^ fat.clustShift < l.length :=
  (Nat.div_lt_iff_lt_mul (Nat.two_pow_pos _)).mpr lt

/-- That cluster is one of the file's. -/
lemma getD_index_mem (lt : k < fat.sectCount l) : l.getD (k / 2 ^ fat.clustShift) 0 ∈ l := by
  rw [List.getD_eq_getElem _ _ (index_lt lt)]
  exact List.getElem_mem _

/-- The sector is one of that cluster. -/
lemma fileSect_covers (fat : FatFs) (l : List Nat) (k : Nat) :
    fat.Covers (l.getD (k / 2 ^ fat.clustShift) 0) (fat.fileSect l k) := by
  have := Nat.mod_lt k (Nat.two_pow_pos fat.clustShift)
  exact ⟨Nat.le_add_right .., Nat.add_lt_add_left this _⟩

/-- So it is a sector of the file's chain. -/
lemma fileSect_inChain (lt : k < fat.sectCount l) : fat.InChain l (fat.fileSect l k) :=
  ⟨_, getD_index_mem lt, fileSect_covers fat l k⟩

/-- The sectors of a file are different ones. -/
lemma Layout.fileSect_inj (lay : fat.Layout) (num : fat.Numbered l) (nodup : l.Nodup) {j : Nat}
    (j_lt : j < fat.sectCount l) (k_lt : k < fat.sectCount l)
    (same : fat.fileSect l j = fat.fileSect l k) : j = k := by
  have first := fileSect_covers fat l j
  have second := fileSect_covers fat l k
  rw [same] at first
  obtain ⟨two, lt⟩ := num _ (getD_index_mem j_lt)
  obtain ⟨two', lt'⟩ := num _ (getD_index_mem k_lt)
  have clusters := lay.covers_unique two lt two' lt' first second
  rw [List.getD_eq_getElem _ _ (index_lt j_lt), List.getD_eq_getElem _ _ (index_lt k_lt)]
    at clusters
  have index := (nodup.getElem_inj_iff).mp clusters
  have rest : j % 2 ^ fat.clustShift = k % 2 ^ fat.clustShift := by
    unfold fileSect at same
    rw [index] at same
    omega
  rw [← Nat.div_add_mod j (2 ^ fat.clustShift), ← Nat.div_add_mod k (2 ^ fat.clustShift), index,
    rest]

/-- A file that grows keeps the sectors that it has. -/
lemma fileSect_prefix (sub : l <+: l') (lt : k < fat.sectCount l) :
    fat.fileSect l' k = fat.fileSect l k := by
  obtain ⟨more, rfl⟩ := sub
  unfold fileSect
  rw [List.getD_append _ _ _ _ (index_lt lt)]

/-- A longer chain has no fewer sectors. -/
lemma sectCount_prefix (sub : l <+: l') : fat.sectCount l ≤ fat.sectCount l' :=
  Nat.mul_le_mul_right _ sub.length_le

/-- It has the sectors of a shorter one. -/
lemma InChain.prefix_ (sub : l <+: l') (mem : fat.InChain l n) : fat.InChain l' n := by
  obtain ⟨c, c_mem, covers⟩ := mem
  exact ⟨c, sub.subset c_mem, covers⟩

end FileSect

end FatFs

/-! ## The files of a sound volume -/

namespace Fs
variable {σ ι : Type} {ops : Device σ Sect} {s : Fs σ} {files : ι → Option (List Nat)} {i j : ι}
  {l l' : List Nat} {n : Nat}

/-- On a sound volume the clusters of a file have valid numbers. -/
lemma Sound.numbered (h : Sound ops s files) (e : files i = some l) : s.fat.Numbered l :=
  fun c mem => ⟨h.two i l e c mem, h.lt e mem⟩

/-- No sector is in two files. -/
lemma Sound.inChain_unique (h : Sound ops s files) (e : files i = some l)
    (e' : files j = some l') (first : s.fat.InChain l n) (second : s.fat.InChain l' n) : i = j := by
  by_contra ne
  obtain ⟨c, mem, covers⟩ := first
  obtain ⟨d, mem', covers'⟩ := second
  obtain ⟨two, lt⟩ := h.numbered e c mem
  obtain ⟨two', lt'⟩ := h.numbered e' d mem'
  obtain rfl := h.layout.covers_unique two lt two' lt' covers covers'
  exact h.apart.disjoint i j l l' ne e e' c mem mem'

end Fs

end TRS.Fat
