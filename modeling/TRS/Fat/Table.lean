import TRS.Fat.Volume
import TRS.Fat.Window

/-!
# The allocation table

`get_fat` and `put_fat` of the FAT library (`trfs/fat32/fat.c`). A volume has two copies of its
table; reads use the active one (`fat_sect[0]`), and a put goes to the other one first, if it is
kept as a mirror (`fat_sect[1]`). `Fs.Puts` says what items a function of the library has put into
the table, what it has left alone, and that the writes reach the disk in the order of the puts.

* `mergeItem_upper`: a put keeps the upper nibble of the item.
* `Layout.apart`: the sectors of the two tables do not overlap.
* `Shows.put_both`, `Shows.put_mirror`: what the writes of one put are to the tables.
* `getFat_spec`, `putFat_spec`: the two functions, by the writes that they make.
* `run_puts`: calls of `put_fat` in a row, by induction.

The headline `tables_keep_puts` reads the run off both tables and off the disk.
-/

namespace TRS.Fat
open TRS.Lib TRS.Lib.Program

/-! ## Items -/

/-- The sector of the item of a cluster, in the table at `base`. -/
def itemSect (base clust : Nat) : Nat := u32 (base + clust / 128)

/-- The item of a cluster, with its upper nibble. -/
def item32 (base : Nat) (v : Nat → Sect) (clust : Nat) : Pixel :=
  (v (itemSect base clust)).load32 (4 * (clust % 128))

/-- The item of a cluster. -/
def item (base : Nat) (v : Nat → Sect) (clust : Nat) : Nat := (item32 base v clust).toNat % 2 ^ 28

/-- An item with a new value in its lower 28 bits. -/
def mergeItem (old : Pixel) (val : Nat) : Pixel :=
  (old &&& 0xF0000000#32) ||| (BitVec.ofNat 32 val &&& 0x0FFFFFFF#32)

/-- A sector of the table with a new item. -/
def putItem (clust val : Nat) (b : Sect) : Sect :=
  b.store32 (4 * (clust % 128)) (mergeItem (b.load32 (4 * (clust % 128))) val)

/-- The sectors with a new item in the table at `base`. -/
def setItem (base : Nat) (v : Nat → Sect) (clust val : Nat) : Nat → Sect :=
  Function.update v (itemSect base clust) (putItem clust val (v (itemSect base clust)))

/-- The flags that `get_fat` reports for an item, if it is a valid one. -/
def FatFs.itemFlags (fat : FatFs) (val : Nat) : Option Byte :=
  if val = 0 then some clustFree
  else if val = 0x0FFFFFF7 then some clustBad
  else if val ≥ 0x0FFFFFF8 then some (clustUsed ||| clustLast)
  else if val ≥ 2 ∧ val < fat.clustCnt then some clustUsed
  else none

/-- What the library relies on: the tables, the sector of `FsInfo` and the clusters do not overlap,
    and their sectors have numbers. -/
structure FatFs.Layout (fat : FatFs) : Prop where
  cnt : fat.clustCnt % 128 = 0
  two : 2 < fat.clustCnt
  small : fat.clustCnt < 0x0FFFFFF7
  info : 0 < fat.infoSect
  first : fat.infoSect < fat.fatSect0 ∧ fat.fatSect0 + fat.clustCnt / 128 ≤ fat.dataSect
  second : fat.fatSect1 ≠ 0 →
    fat.infoSect < fat.fatSect1 ∧ fat.fatSect1 + fat.clustCnt / 128 ≤ fat.dataSect ∧
      (fat.fatSect0 + fat.clustCnt / 128 ≤ fat.fatSect1 ∨
        fat.fatSect1 + fat.clustCnt / 128 ≤ fat.fatSect0)
  data : fat.dataSect + (fat.clustCnt - 2) * 2 ^ fat.clustShift ≤ 2 ^ 32
  msk : fat.clustMsk = 2 ^ fat.clustShift - 1

instance (fat : FatFs) : Decidable fat.Layout :=
  decidable_of_iff (fat.clustCnt % 128 = 0 ∧ 2 < fat.clustCnt ∧ fat.clustCnt < 0x0FFFFFF7 ∧
    0 < fat.infoSect ∧
    (fat.infoSect < fat.fatSect0 ∧ fat.fatSect0 + fat.clustCnt / 128 ≤ fat.dataSect) ∧
    (fat.fatSect1 ≠ 0 →
      fat.infoSect < fat.fatSect1 ∧ fat.fatSect1 + fat.clustCnt / 128 ≤ fat.dataSect ∧
        (fat.fatSect0 + fat.clustCnt / 128 ≤ fat.fatSect1 ∨
          fat.fatSect1 + fat.clustCnt / 128 ≤ fat.fatSect0)) ∧
    fat.dataSect + (fat.clustCnt - 2) * 2 ^ fat.clustShift ≤ 2 ^ 32 ∧
    fat.clustMsk = 2 ^ fat.clustShift - 1)
    ⟨fun ⟨a, b, c, d, e, f, g, h⟩ => ⟨a, b, c, d, e, f, g, h⟩,
      fun ⟨a, b, c, d, e, f, g, h⟩ => ⟨a, b, c, d, e, f, g, h⟩⟩

/-- The lower 28 bits of a merged item are the new ones. -/
lemma mergeItem_toNat (old : Pixel) (val : Nat) :
    (mergeItem old val).toNat % 2 ^ 28 = val % 2 ^ 28 := by
  have high : (0xF0000000#32).setWidth 28 = 0#28 := by decide
  have low : (0x0FFFFFFF#32).setWidth 28 = BitVec.allOnes 28 := by decide
  rw [mergeItem, ← BitVec.toNat_setWidth, BitVec.setWidth_or, BitVec.setWidth_and,
    BitVec.setWidth_and, high, low, BitVec.and_zero, BitVec.zero_or, BitVec.and_allOnes,
    BitVec.toNat_setWidth, BitVec.toNat_ofNat]
  omega

/-- The upper nibble of an item stays. -/
lemma mergeItem_upper (old : Pixel) (val : Nat) : mergeItem old val >>> 28 = old >>> 28 := by
  have high : (0xF0000000#32 >>> 28).toNat = 2 ^ 4 - 1 := by decide
  have low : 0x0FFFFFFF#32 >>> 28 = 0#32 := by decide
  rw [mergeItem, BitVec.ushiftRight_or_distrib, BitVec.ushiftRight_and_distrib,
    BitVec.ushiftRight_and_distrib, low, BitVec.and_zero, BitVec.or_zero]
  apply BitVec.eq_of_toNat_eq
  rw [BitVec.toNat_and, high, and_mask, BitVec.toNat_ushiftRight, Nat.shiftRight_eq_div_pow]
  have := old.isLt
  omega

/-! ## The two tables -/

namespace FatFs
variable (fat : FatFs)

/-- The first sectors of the tables in use. -/
def bases : List Nat := fat.fatSect0 :: if fat.fatSect1 = 0 then [] else [fat.fatSect1]

/-- A sector of a table. -/
def InTable (n : Nat) : Prop := ∃ base ∈ fat.bases, base ≤ n ∧ n < base + fat.clustCnt / 128

/-- The items of the table at `base`; behind its end there is no valid one. -/
def items (base : Nat) (v : Nat → Sect) (clust : Nat) : Nat :=
  if clust < fat.clustCnt then item base v clust else 1

/-- The items of the active table. -/
def table (v : Nat → Sect) : Nat → Nat := fat.items fat.fatSect0 v

/-- The items of the mirror. -/
def mirror (v : Nat → Sect) : Nat → Nat := fat.items fat.fatSect1 v

/-- The volume without its counters. -/
def geometry : FatFs := { fat with lastUsed := 0, freeCnt := 0 }

variable {fat} {base clust val n : Nat} {v : Nat → Sect}

/-- The counters do not matter to the layout. -/
lemma layout_geometry : fat.geometry.Layout ↔ fat.Layout :=
  ⟨fun h => ⟨h.cnt, h.two, h.small, h.info, h.first, h.second, h.data, h.msk⟩,
    fun h => ⟨h.cnt, h.two, h.small, h.info, h.first, h.second, h.data, h.msk⟩⟩

/-- The items do not depend on the counters. -/
lemma table_of_geometry {fat' : FatFs} (e : fat'.geometry = fat.geometry) :
    fat'.table = fat.table := by
  have same := congrArg FatFs.table e
  exact same

/-- The active table is in use. -/
lemma active_mem : fat.fatSect0 ∈ fat.bases := .head _

/-- So is the mirror, if there is one. -/
lemma mirror_mem (on : fat.fatSect1 ≠ 0) : fat.fatSect1 ∈ fat.bases := by
  rw [bases, if_neg on]
  exact .tail _ (.head _)

/-- The mirror is not the active table. -/
lemma Layout.mirror_ne (lay : fat.Layout) (on : fat.fatSect1 ≠ 0) :
    fat.fatSect1 ≠ fat.fatSect0 := by
  have := (lay.second on).2.2
  have := lay.cnt
  have := lay.two
  omega

/-- A table lies behind `FsInfo` and before the clusters. -/
lemma Layout.bounds (lay : fat.Layout) (mem : base ∈ fat.bases) :
    fat.infoSect < base ∧ base + fat.clustCnt / 128 ≤ fat.dataSect := by
  rcases List.mem_cons.mp mem with rfl | mem
  · exact lay.first
  · split at mem
    · cases mem
    · next ne =>
      obtain rfl := List.mem_singleton.mp mem
      exact ⟨(lay.second ne).1, (lay.second ne).2.1⟩

/-- The first cluster has a sector number. -/
lemma Layout.lt (lay : fat.Layout) : fat.dataSect < 2 ^ 32 := by
  have data := lay.data
  have : 1 ≤ (fat.clustCnt - 2) * 2 ^ fat.clustShift :=
    Nat.mul_pos (by have := lay.two; omega) (Nat.two_pow_pos _)
  omega

/-- The items of a table lie in its sectors. -/
lemma Layout.itemSect (lay : fat.Layout) (mem : base ∈ fat.bases) (lt : clust < fat.clustCnt) :
    itemSect base clust = base + clust / 128 ∧ base + clust / 128 < base + fat.clustCnt / 128 := by
  have cnt := lay.cnt
  have inside := (lay.bounds mem).2
  have data := lay.lt
  have : clust / 128 < fat.clustCnt / 128 := by omega
  exact ⟨u32_of_lt (by omega), by omega⟩

/-- The sector of an item is one of its table. -/
lemma Layout.itemSect_inTable (lay : fat.Layout) (mem : base ∈ fat.bases)
    (lt : clust < fat.clustCnt) : fat.InTable (TRS.Fat.itemSect base clust) := by
  obtain ⟨eq, inside⟩ := lay.itemSect mem lt
  rw [eq]
  exact ⟨base, mem, Nat.le_add_right .., inside⟩

/-- It is not sector 0. -/
lemma Layout.itemSect_pos (lay : fat.Layout) (mem : base ∈ fat.bases) (lt : clust < fat.clustCnt) :
    TRS.Fat.itemSect base clust ≠ 0 := by
  have := lay.bounds mem
  rw [(lay.itemSect mem lt).1]
  omega

/-- `FsInfo` is in no table. -/
lemma Layout.info_not_inTable (lay : fat.Layout) : ¬ fat.InTable fat.infoSect := by
  rintro ⟨base, mem, le, _⟩
  have := lay.bounds mem
  omega

/-- A changed sector behind which no item of a table lies. -/
lemma Layout.items_update_other (lay : fat.Layout) (mem : base ∈ fat.bases) {b : Sect}
    (out : n < base ∨ base + fat.clustCnt / 128 ≤ n) :
    fat.items base (Function.update v n b) = fat.items base v := by
  funext c
  unfold items item item32
  split
  · next lt =>
    obtain ⟨eq, inside⟩ := lay.itemSect mem lt
    rw [Function.update_of_ne (by rw [eq]; omega)]
  · rfl

/-- A put changes one item of its table. -/
lemma Layout.items_setItem (lay : fat.Layout) (mem : base ∈ fat.bases)
    (lt : clust < fat.clustCnt) :
    fat.items base (setItem base v clust val) =
      Function.update (fat.items base v) clust (val % 2 ^ 28) := by
  funext c
  unfold items item item32 setItem
  obtain ⟨eq, _⟩ := lay.itemSect mem lt
  by_cases e : c = clust
  · subst e
    rw [if_pos lt, Function.update_self, Function.update_self, putItem,
      Block.load32_store32_same _ (by omega), mergeItem_toNat]
  · rw [Function.update_of_ne e]
    split
    · next lt' =>
      obtain ⟨eq', _⟩ := lay.itemSect mem lt'
      by_cases same : c / 128 = clust / 128
      · have sect : TRS.Fat.itemSect base c = TRS.Fat.itemSect base clust := by rw [eq, eq', same]
        rw [sect, Function.update_self, putItem,
          Block.load32_store32_other _ (by omega) _ (by omega)]
      · rw [Function.update_of_ne (by rw [eq, eq']; omega)]
    · rfl

/-- The tables do not overlap. -/
lemma Layout.apart (lay : fat.Layout) {base' : Nat} (mem : base ∈ fat.bases)
    (mem' : base' ∈ fat.bases) (ne : base' ≠ base) :
    base + fat.clustCnt / 128 ≤ base' ∨ base' + fat.clustCnt / 128 ≤ base := by
  have second : ∀ b ∈ (if fat.fatSect1 = 0 then [] else [fat.fatSect1]),
      b = fat.fatSect1 ∧ fat.fatSect1 ≠ 0 := by
    intro b mem
    split at mem
    · cases mem
    · next on => exact ⟨List.mem_singleton.mp mem, on⟩
  unfold bases at mem mem'
  rcases List.mem_cons.mp mem with rfl | mem
  · rcases List.mem_cons.mp mem' with rfl | mem'
    · exact absurd rfl ne
    · obtain ⟨rfl, on⟩ := second base' mem'
      exact (lay.second on).2.2
  · obtain ⟨rfl, on⟩ := second base mem
    rcases List.mem_cons.mp mem' with rfl | mem'
    · exact (lay.second on).2.2.symm
    · exact absurd (second base' mem').1 ne

/-- A put into a table leaves the other one alone. -/
lemma Layout.items_setItem_other (lay : fat.Layout) {base' : Nat} (mem : base ∈ fat.bases)
    (mem' : base' ∈ fat.bases) (ne : base' ≠ base) (lt : clust < fat.clustCnt) :
    fat.items base' (setItem base v clust val) = fat.items base' v := by
  obtain ⟨eq, inside⟩ := lay.itemSect mem lt
  have apart := lay.apart mem mem' ne
  refine lay.items_update_other mem' ?_
  rw [eq]
  omega

/-- A put keeps all upper nibbles. -/
lemma Layout.upper_setItem (lay : fat.Layout) {base' : Nat} (mem : base ∈ fat.bases)
    (mem' : base' ∈ fat.bases) (lt : clust < fat.clustCnt) {c : Nat} (lt' : c < fat.clustCnt) :
    item32 base' (setItem base v clust val) c >>> 28 = item32 base' v c >>> 28 := by
  obtain ⟨eq, inside⟩ := lay.itemSect mem lt
  obtain ⟨eq', inside'⟩ := lay.itemSect mem' lt'
  unfold item32 setItem
  by_cases same : TRS.Fat.itemSect base' c = TRS.Fat.itemSect base clust
  · have bases : base' = base := by
      by_contra ne
      have := lay.apart mem mem' ne
      omega
    subst bases
    rw [same, Function.update_self]
    by_cases e : c % 128 = clust % 128
    · rw [e, putItem, Block.load32_store32_same _ (by omega), mergeItem_upper]
    · rw [putItem, Block.load32_store32_other _ (by omega) _ (by omega)]
  · rw [Function.update_of_ne same]

end FatFs

/-! ## What writes put into the tables -/

/-- The write of an item into the table at `base`. -/
def putWrite (base : Nat) (v : Nat → Sect) (clust val : Nat) : Nat × Sect :=
  (itemSect base clust, putItem clust val (v (itemSect base clust)))

/-- On the sectors `v`, the writes `ws` put the items `ps` into the active table, in this order; the
    mirror gets the same ones, but for the clusters `torn`, where it alone may have got one. Nothing
    changes but the tables, below the upper nibbles, and `FsInfo`. -/
structure Shows (fat : FatFs) (v : Nat → Sect) (ws : List (Nat × Sect)) (ps : List (Nat × Nat))
    (torn : List Nat) : Prop where
  during : ∀ old new, ws = old ++ new →
    ∃ k, fat.table (applyWrites old v) = applyWrites (ps.take k) (fat.table v)
  table : fat.table (applyWrites ws v) = applyWrites ps (fat.table v)
  mirror : fat.fatSect1 ≠ 0 → ∀ c, c ∉ torn → fat.mirror v c = fat.table v c →
    fat.mirror (applyWrites ws v) c = fat.table (applyWrites ws v) c
  upper : ∀ base ∈ fat.bases, ∀ c < fat.clustCnt,
    item32 base (applyWrites ws v) c >>> 28 = item32 base v c >>> 28
  frame : ∀ n, n ≠ fat.infoSect → ¬ fat.InTable n → applyWrites ws v n = v n

namespace Shows
variable {fat : FatFs} {v : Nat → Sect} {ws ws' : List (Nat × Sect)} {ps ps' : List (Nat × Nat)}
  {torn torn' : List Nat}

lemma nil (fat : FatFs) (v : Nat → Sect) : Shows fat v [] [] [] where
  during old new e := by
    obtain ⟨rfl, _⟩ := List.append_eq_nil_iff.mp e.symm
    exact ⟨0, rfl⟩
  table := rfl
  mirror _ _ _ same := same
  upper _ _ _ _ := rfl
  frame _ _ _ := rfl

/-- Writes in a row put what each of them does. -/
lemma append (first : Shows fat v ws ps torn)
    (second : Shows fat (applyWrites ws v) ws' ps' torn') :
    Shows fat v (ws ++ ws') (ps ++ ps') (torn ++ torn') where
  during old new e := by
    rcases List.append_eq_append_iff.mp e with ⟨mid, rfl, rest⟩ | ⟨mid, rfl, _⟩
    · obtain ⟨k, eq⟩ := second.during mid new rest
      refine ⟨ps.length + k, ?_⟩
      rw [applyWrites_append, eq, first.table, List.take_length_add_append, applyWrites_append]
    · obtain ⟨k, eq⟩ := first.during old mid rfl
      refine ⟨min k ps.length, ?_⟩
      rw [eq, List.take_append_of_le_length (Nat.min_le_right ..), ← List.take_eq_take_min]
  table := by rw [applyWrites_append, second.table, first.table, applyWrites_append]
  mirror on c out same := by
    rw [applyWrites_append]
    exact second.mirror on c (fun mem => out (List.mem_append_right _ mem))
      (first.mirror on c (fun mem => out (List.mem_append_left _ mem)) same)
  upper base mem c lt := by
    rw [applyWrites_append, second.upper base mem c lt, first.upper base mem c lt]
  frame n info out := by
    rw [applyWrites_append, second.frame n info out, first.frame n info out]

/-- Fewer clusters may be torn than are said to be. -/
lemma mono (h : Shows fat v ws ps torn) (sub : ∀ c ∈ torn, c ∈ torn') :
    Shows fat v ws ps torn' where
  during := h.during
  table := h.table
  mirror on c out := h.mirror on c fun mem => out (sub c mem)
  upper := h.upper
  frame := h.frame

/-- One write, of a sector that is not in the active table. -/
lemma single {n : Nat} {b : Sect} (table : fat.table (Function.update v n b) = fat.table v)
    (mirror : fat.fatSect1 ≠ 0 →
      ∀ c, c ∉ torn → fat.mirror (Function.update v n b) c = fat.mirror v c)
    (upper : ∀ base ∈ fat.bases, ∀ c < fat.clustCnt,
      item32 base (Function.update v n b) c >>> 28 = item32 base v c >>> 28)
    (inside : n = fat.infoSect ∨ fat.InTable n) : Shows fat v [(n, b)] [] torn where
  during old new e := by
    refine ⟨0, ?_⟩
    cases old with
    | nil => rfl
    | cons w old =>
      obtain ⟨rfl, rest⟩ := List.cons_eq_cons.mp e
      obtain ⟨rfl, _⟩ := List.append_eq_nil_iff.mp rest.symm
      exact table
  table := table
  mirror on c out same := by
    rw [applyWrites_cons, applyWrites_nil, table, mirror on c out, same]
  upper := upper
  frame m info out := by
    refine applyWrites_other _ fun w mem => ?_
    rw [List.mem_singleton.mp mem]
    rintro rfl
    exact inside.elim info out

/-- A write of `FsInfo`. -/
lemma info (lay : fat.Layout) (b : Sect) : Shows fat v [(fat.infoSect, b)] [] [] := by
  have out : ∀ base ∈ fat.bases, fat.items base (Function.update v fat.infoSect b) =
      fat.items base v := fun base mem =>
    lay.items_update_other mem (.inl (lay.bounds mem).1)
  refine single (out _ (.head _)) (fun on c _ => ?_) (fun base mem c lt => ?_) (.inl rfl)
  · exact congrFun (out _ (FatFs.mirror_mem on)) c
  · unfold item32
    rw [Function.update_of_ne]
    rintro e
    exact lay.info_not_inTable (e ▸ lay.itemSect_inTable mem lt)

variable {clust val : Nat}

/-- A put into the mirror alone. -/
lemma put_mirror (v : Nat → Sect) (val : Nat) (lay : fat.Layout) (on : fat.fatSect1 ≠ 0)
    (lt : clust < fat.clustCnt) :
    Shows fat v [putWrite fat.fatSect1 v clust val] [] [clust] := by
  have mem := FatFs.mirror_mem on
  refine single ?_ (fun _ c out => ?_) (fun base mem' c lt' => lay.upper_setItem mem mem' lt lt')
    (.inr (lay.itemSect_inTable mem lt))
  · exact lay.items_setItem_other mem FatFs.active_mem (lay.mirror_ne on).symm lt
  · have ne : c ≠ clust := fun e => out (List.mem_singleton.mpr e)
    exact (congrFun (lay.items_setItem mem lt) c).trans (Function.update_of_ne ne ..)

/-- A put into the active table alone. -/
lemma put_active (v : Nat → Sect) (val : Nat) (lay : fat.Layout) (lt : clust < fat.clustCnt) :
    Shows fat v [putWrite fat.fatSect0 v clust val] [(clust, val % 2 ^ 28)] [clust] where
  during old new e := by
    cases old with
    | nil => exact ⟨0, rfl⟩
    | cons w old =>
      obtain ⟨rfl, rest⟩ := List.cons_eq_cons.mp e
      obtain ⟨rfl, _⟩ := List.append_eq_nil_iff.mp rest.symm
      exact ⟨1, lay.items_setItem FatFs.active_mem lt⟩
  table := lay.items_setItem FatFs.active_mem lt
  mirror on c out same := by
    have ne : c ≠ clust := fun e => out (List.mem_singleton.mpr e)
    have mirror : fat.mirror (setItem fat.fatSect0 v clust val) = fat.mirror v :=
      lay.items_setItem_other FatFs.active_mem (FatFs.mirror_mem on) (lay.mirror_ne on) lt
    have table : fat.table (setItem fat.fatSect0 v clust val) c = fat.table v c :=
      (congrFun (lay.items_setItem FatFs.active_mem lt) c).trans (Function.update_of_ne ne ..)
    exact (congrFun mirror c).trans (same.trans table.symm)
  upper base mem c lt' := lay.upper_setItem FatFs.active_mem mem lt lt'
  frame n _ out := by
    refine applyWrites_other _ fun w mem => ?_
    rw [List.mem_singleton.mp mem]
    rintro rfl
    exact out (lay.itemSect_inTable FatFs.active_mem lt)

/-- A put into both. -/
lemma put_both (v : Nat → Sect) (val : Nat) (lay : fat.Layout) (on : fat.fatSect1 ≠ 0)
    (lt : clust < fat.clustCnt) :
    Shows fat v [putWrite fat.fatSect1 v clust val,
      putWrite fat.fatSect0 (setItem fat.fatSect1 v clust val) clust val]
      [(clust, val % 2 ^ 28)] [] := by
  have both := (put_mirror v val lay on lt).append
    (put_active (setItem fat.fatSect1 v clust val) val lay lt)
  refine ⟨both.during, both.table, fun _ c _ same => ?_, both.upper, both.frame⟩
  by_cases e : c = clust
  · -- the cluster of the put has the new item in both tables
    have mem := FatFs.mirror_mem on
    have mirror : fat.mirror (setItem fat.fatSect0 (setItem fat.fatSect1 v clust val) clust val) c =
        Function.update (fat.mirror v) clust (val % 2 ^ 28) c :=
      congrFun ((lay.items_setItem_other FatFs.active_mem mem (lay.mirror_ne on) lt).trans
        (lay.items_setItem mem lt)) c
    have table : fat.table (setItem fat.fatSect0 (setItem fat.fatSect1 v clust val) clust val) c =
        Function.update (fat.table (setItem fat.fatSect1 v clust val)) clust (val % 2 ^ 28) c :=
      congrFun (lay.items_setItem FatFs.active_mem lt) c
    subst e
    rw [Function.update_self] at mirror table
    exact mirror.trans table.symm
  · exact both.mirror on c (by simpa using e) same

end Shows

/-! ## The functions -/

namespace Fs
variable {σ : Type} (ops : Device σ Sect)

/-- `get_fat(clust)`: the item and its flags. -/
def getFat (clust : Nat) : Program (Fs σ) (Nat × Byte) := do
  let s ← get
  updateBuf ops (itemSect s.fat.fatSect0 clust)
  let s ← get
  -- the upper nibble is ignored
  let val := (s.win.buf.load32 (4 * (clust % 128))).toNat % 2 ^ 28
  match s.fat.itemFlags val with
  | some flags => return (val, flags)
  | none => throw (.code errBroken)

/-- `put_fat2(fat_sect, clust, val)`. -/
def putFat2 (fatSect clust val : Nat) : Program (Fs σ) Unit := do
  updateBuf ops (itemSect fatSect clust)
  modify (edit (putItem clust val))

/-- `put_fat(clust, val)`. -/
def putFat (clust val : Nat) : Program (Fs σ) Unit := do
  let s ← get
  if s.fat.fatSect1 ≠ 0 then
    putFat2 ops s.fat.fatSect1 clust val
  putFat2 ops s.fat.fatSect0 clust val

/-- The items of the active table, as the library sees them. -/
def table (s : Fs σ) : Nat → Nat := s.fat.table (s.view ops)

/-- The step from `s` to `t` puts the items `ps` into the table, and tears the clusters `torn`. -/
structure Puts (s : Fs σ) (ps : List (Nat × Nat)) (torn : List Nat) (t : Fs σ) : Prop where
  geometry : t.fat.geometry = s.fat.geometry
  shows : ∃ ws, Writes ops s ws t ∧ Shows s.fat.geometry (s.view ops) ws ps torn

variable {ops} {s t u : Fs σ} {ps ps' : List (Nat × Nat)} {torn torn' : List Nat}
  {clust val fatSect : Nat}

namespace Puts

/-- A step that only moves the buffer puts nothing. -/
lemma of_moves (m : Moves ops s t) : Puts ops s [] [] t :=
  ⟨congrArg FatFs.geometry m.fat, [], m.toWrites, .nil _ _⟩

lemma trans (first : Puts ops s ps torn t) (second : Puts ops t ps' torn' u) :
    Puts ops s (ps ++ ps') (torn ++ torn') u := by
  obtain ⟨ws, w, shows⟩ := first.shows
  obtain ⟨ws', w', shows'⟩ := second.shows
  rw [first.geometry, w.view_eq] at shows'
  exact ⟨second.geometry.trans first.geometry, _, w.trans w', shows.append shows'⟩

/-- The buffer stays as it should be. -/
lemma coherent (p : Puts ops s ps torn t) (co : s.Coherent ops) : t.Coherent ops := by
  obtain ⟨_, w, _⟩ := p.shows
  exact w.coherent co

/-- The layout stays. -/
lemma layout (p : Puts ops s ps torn t) (lay : s.fat.Layout) : t.fat.Layout := by
  rw [← FatFs.layout_geometry] at *
  rw [p.geometry]
  exact lay

/-- So does the number of clusters. -/
lemma clustCnt (p : Puts ops s ps torn t) : t.fat.clustCnt = s.fat.clustCnt := by
  have same := congrArg FatFs.clustCnt p.geometry
  exact same

/-- The table afterwards. -/
lemma table_eq (p : Puts ops s ps torn t) : t.table ops = applyWrites ps (s.table ops) := by
  obtain ⟨_, w, shows⟩ := p.shows
  have same : t.table ops = s.fat.geometry.table (t.view ops) :=
    congrArg (fun g => g.table (t.view ops)) p.geometry
  rw [same, w.view_eq]
  exact shows.table

/-- The table on the disk, if the buffer was clean: the puts up to some moment have arrived. -/
lemma disk_table (p : Puts ops s ps torn t) (clean : s.win.dirty = false) :
    ∃ k, t.fat.table (t.disk ops) = applyWrites (ps.take k) (s.table ops) := by
  obtain ⟨_, w, shows⟩ := p.shows
  obtain ⟨old, new, e, arrived⟩ := w.follows.disk_eq clean
  obtain ⟨k, eq⟩ := shows.during old new e
  have same : t.fat.table (t.disk ops) = s.fat.geometry.table (t.disk ops) :=
    congrArg (fun g => g.table (t.disk ops)) p.geometry
  have start : s.view ops = ops.content s.win.disk := Window.view_of_clean clean
  refine ⟨k, same.trans ?_⟩
  rw [start] at eq
  unfold Fs.disk Fs.table
  rw [arrived, start]
  exact eq

/-- What lies outside of the tables and `FsInfo` stays. -/
lemma frame (p : Puts ops s ps torn t) {n : Nat} (info : n ≠ s.fat.infoSect)
    (out : ¬ s.fat.InTable n) : t.view ops n = s.view ops n := by
  obtain ⟨_, w, shows⟩ := p.shows
  rw [w.view_eq]
  exact shows.frame n info out

end Puts

/-- A valid item is read with its flags. -/
lemma getFat_spec (lay : s.fat.Layout) (co : s.Coherent ops) (lt : clust < s.fat.clustCnt) :
    wp (getFat ops clust)
      (fun r t => Moves ops s t ∧ r.1 = s.table ops clust ∧ s.fat.itemFlags r.1 = some r.2)
      (fun e t => Moves ops s t ∧ (e = .code errIo ∨
        e = .code errBroken ∧ s.fat.itemFlags (s.table ops clust) = none)) s := by
  unfold getFat
  rw [wp_bind, wp_get]
  refine wp_seq (updateBuf_spec _ s) ?_ fun e t h => ⟨h.2, .inl h.1⟩
  rintro _ t ⟨moves, at_⟩
  have pos := lay.itemSect_pos FatFs.active_mem lt
  have buf := buf_eq (moves.coherent co) at_ pos
  have val : (t.win.buf.load32 (4 * (clust % 128))).toNat % 2 ^ 28 = s.table ops clust := by
    rw [buf, moves.view_eq]
    exact (if_pos lt).symm
  rw [wp_bind, wp_get, val, moves.fat]
  dsimp only
  cases flags : s.fat.itemFlags (s.table ops clust) with
  | some _ => exact ⟨moves, rfl, flags⟩
  | none => exact ⟨moves, .inr ⟨rfl, rfl⟩⟩

/-- `put_fat2` writes the sector of the item, or fails and writes nothing. -/
lemma putFat2_spec (co : s.Coherent ops) (pos : itemSect fatSect clust ≠ 0) :
    wp (putFat2 ops fatSect clust val)
      (fun _ t => Writes ops s [putWrite fatSect (s.view ops) clust val] t ∧ t.fat = s.fat ∧
        t.infoDirty = s.infoDirty)
      (fun e t => e = .code errIo ∧ Moves ops s t) s := by
  refine wp_seq (updateBuf_spec _ s) ?_ fun e t h => h
  rintro _ t ⟨moves, at_⟩
  have w := moves.toWrites.trans (edit_writes ops (putItem clust val) t)
  rw [buf_eq (moves.coherent co) at_ pos, at_, moves.view_eq] at w
  rw [wp_modify]
  exact ⟨w, moves.fat, moves.infoDirty⟩

/-- A put arrives in both tables, or it fails: then the active table has not changed. -/
lemma putFat_spec (val : Nat) (lay : s.fat.Layout) (co : s.Coherent ops)
    (lt : clust < s.fat.clustCnt) :
    wp (putFat ops clust val)
      (fun _ t => Puts ops s [(clust, val % 2 ^ 28)] [] t ∧ t.fat = s.fat ∧
        t.infoDirty = s.infoDirty)
      (fun e t => e = .code errIo ∧ Puts ops s [] [clust] t ∧ t.fat = s.fat ∧
        t.infoDirty = s.infoDirty) s := by
  have lay' := FatFs.layout_geometry.mpr lay
  have pos0 := lay.itemSect_pos FatFs.active_mem lt
  unfold putFat
  rw [wp_bind, wp_get]
  by_cases on : s.fat.fatSect1 = 0
  · rw [if_neg (not_not.mpr on)]
    refine wp_imp (putFat2_spec co pos0) ?_ ?_
    · rintro _ t ⟨w, fat, info⟩
      refine ⟨⟨congrArg _ fat, _, w, ?_⟩, fat, info⟩
      -- without a mirror nothing is torn
      have put := Shows.put_active (s.view ops) val lay' lt
      exact ⟨put.during, put.table, fun h => absurd on h, put.upper, put.frame⟩
    · rintro e t ⟨rfl, m⟩
      exact ⟨rfl, ⟨congrArg _ m.fat, [], m.toWrites, (Shows.nil _ _).mono nofun⟩, m.fat,
        m.infoDirty⟩
  · rw [if_pos on]
    have pos1 := lay.itemSect_pos (FatFs.mirror_mem on) lt
    refine wp_seq (putFat2_spec co pos1) ?_ ?_
    · rintro _ t ⟨w, fat, info⟩
      refine wp_imp (putFat2_spec (w.coherent co) pos0) ?_ ?_
      · rintro _ u ⟨w', fat', info'⟩
        have all := w.trans w'
        rw [w.view_eq] at all
        exact ⟨⟨congrArg _ (fat'.trans fat), _, all, Shows.put_both _ _ lay' on lt⟩, fat'.trans fat,
          info'.trans info⟩
      · rintro e u ⟨rfl, m⟩
        have all := w.trans m.toWrites
        exact ⟨rfl, ⟨congrArg _ (m.fat.trans fat), _, all, Shows.put_mirror _ _ lay' on lt⟩,
          m.fat.trans fat, m.infoDirty.trans info⟩
    · rintro e t ⟨rfl, m⟩
      exact ⟨rfl, ⟨congrArg _ m.fat, [], m.toWrites, (Shows.nil _ _).mono nofun⟩, m.fat,
        m.infoDirty⟩

/-- No put touches `FsInfo`. -/
lemma putFat_info (val : Nat) (lay : s.fat.Layout) (co : s.Coherent ops)
    (lt : clust < s.fat.clustCnt) :
    wp (putFat ops clust val) (fun _ t => t.view ops s.fat.infoSect = s.view ops s.fat.infoSect)
      (fun _ t => t.view ops s.fat.infoSect = s.view ops s.fat.infoSect) s := by
  have put : ∀ {base v b} {u : Fs σ}, base ∈ s.fat.bases →
      Writes ops v [putWrite base b clust val] u →
      u.view ops s.fat.infoSect = v.view ops s.fat.infoSect := by
    intro base v b u mem w
    have ne : s.fat.infoSect ≠ itemSect base clust := fun e =>
      lay.info_not_inTable (e ▸ lay.itemSect_inTable mem lt)
    rw [w.view_eq]
    exact Function.update_of_ne ne ..
  have pos0 := lay.itemSect_pos FatFs.active_mem lt
  unfold putFat
  rw [wp_bind, wp_get]
  by_cases on : s.fat.fatSect1 = 0
  · rw [if_neg (not_not.mpr on)]
    refine wp_imp (putFat2_spec co pos0) ?_ ?_
    · rintro _ t ⟨w, _⟩
      exact put FatFs.active_mem w
    · rintro _ t ⟨_, m⟩
      exact congrFun m.view_eq _
  · rw [if_pos on]
    have mem := FatFs.mirror_mem on
    refine wp_seq (putFat2_spec co (lay.itemSect_pos mem lt)) ?_ ?_
    · rintro _ t ⟨w, _⟩
      have first := put mem w
      refine wp_imp (putFat2_spec (w.coherent co) pos0) ?_ ?_
      · rintro _ u ⟨w', _⟩
        exact (put FatFs.active_mem w').trans first
      · rintro _ u ⟨_, m⟩
        exact (congrFun m.view_eq _).trans first
    · rintro _ t ⟨_, m⟩
      exact congrFun m.view_eq _

/-! ## Any sequence of puts -/

/-- `put_fat`, and whether it succeeds. -/
def putStep (ops : Device σ Sect) (s : Fs σ) (p : Nat × Nat) : Bool × Fs σ :=
  match putFat ops p.1 p.2 s with
  | .ok _ t => (true, t)
  | .error _ t => (false, t)

/-- The items of the calls that have succeeded. -/
def arrived (ps : List (Nat × Nat)) (oks : List Bool) : List (Nat × Nat) :=
  ((ps.zip oks).filter (·.2)).map fun p => (p.1.1, p.1.2 % 2 ^ 28)

/-- The clusters of the calls that have failed. -/
def failed (ps : List (Nat × Nat)) (oks : List Bool) : List Nat :=
  ((ps.zip oks).filter (!·.2)).map (·.1.1)

/-- Calls of `put_fat` put the items of those that succeed, and tear the clusters of the others. -/
lemma run_puts {ps : List (Nat × Nat)} (lay : s.fat.Layout) (co : s.Coherent ops)
    (inside : ∀ p ∈ ps, p.1 < s.fat.clustCnt) :
    let r := run (putStep ops) s ps
    Puts ops s (arrived ps r.1) (failed ps r.1) r.2 := by
  induction ps generalizing s with
  | nil => exact .of_moves (.refl s)
  | cons p ps ih =>
    have spec := putFat_spec p.2 lay co (inside p (.head ps))
    have rest : ∀ {t torn items}, Puts ops s items torn t →
        Puts ops t (arrived ps (run (putStep ops) t ps).1)
          (failed ps (run (putStep ops) t ps).1) (run (putStep ops) t ps).2 := by
      intro t torn items here
      exact ih (here.layout lay) (here.coherent co)
        fun q mem => by rw [here.clustCnt]; exact inside q (.tail p mem)
    rw [run_cons]
    unfold putStep
    cases e : putFat ops p.1 p.2 s with
    | ok a t =>
      obtain ⟨here, _⟩ := wp_ok spec e
      exact here.trans (rest here)
    | error stop t =>
      obtain ⟨_, here, _⟩ := wp_error spec e
      exact here.trans (rest here)

/-- Any puts leave `FsInfo`. -/
lemma run_info {ps : List (Nat × Nat)} (lay : s.fat.Layout) (co : s.Coherent ops)
    (inside : ∀ p ∈ ps, p.1 < s.fat.clustCnt) :
    (run (putStep ops) s ps).2.view ops s.fat.infoSect = s.view ops s.fat.infoSect := by
  induction ps generalizing s with
  | nil => rfl
  | cons p ps ih =>
    have lt := inside p (.head ps)
    have spec := wp_and (putFat_spec p.2 lay co lt) (putFat_info p.2 lay co lt)
    have rest : ∀ {t torn items}, Puts ops s items torn t → t.fat = s.fat →
        t.view ops s.fat.infoSect = s.view ops s.fat.infoSect →
        (run (putStep ops) t ps).2.view ops s.fat.infoSect = s.view ops s.fat.infoSect := by
      intro t torn items here fat same
      have later := ih (here.layout lay) (here.coherent co)
        fun q mem => by rw [here.clustCnt]; exact inside q (.tail p mem)
      rw [fat] at later
      exact later.trans same
    rw [run_cons]
    unfold putStep
    cases e : putFat ops p.1 p.2 s with
    | ok a t =>
      obtain ⟨⟨here, fat, _⟩, same⟩ := wp_ok spec e
      exact rest here fat same
    | error stop t =>
      obtain ⟨⟨_, here, fat, _⟩, same⟩ := wp_error spec e
      exact rest here fat same

/-- Whatever transfers fail, the active table has the items that `put_fat` has reported as put, and
    no other change; the mirror agrees with it wherever it did before, but for the clusters of calls
    that have failed; no upper nibble changes, and no sector outside of the tables; and the table on
    the disk has the first ones of these items. -/
theorem tables_keep_puts {ps : List (Nat × Nat)} (lay : s.fat.Layout) (co : s.Coherent ops)
    (clean : s.win.dirty = false) (inside : ∀ p ∈ ps, p.1 < s.fat.clustCnt) :
    let r := run (putStep ops) s ps
    r.2.table ops = applyWrites (arrived ps r.1) (s.table ops) ∧
      (s.fat.fatSect1 ≠ 0 → ∀ c ∉ failed ps r.1,
        s.fat.mirror (s.view ops) c = s.table ops c →
          r.2.fat.mirror (r.2.view ops) c = r.2.table ops c) ∧
      (∀ base ∈ s.fat.bases, ∀ c < s.fat.clustCnt,
        item32 base (r.2.view ops) c >>> 28 = item32 base (s.view ops) c >>> 28) ∧
      (∀ n, ¬ s.fat.InTable n → r.2.view ops n = s.view ops n) ∧
      ∃ k, r.2.fat.table (r.2.disk ops) =
        applyWrites ((arrived ps r.1).take k) (s.table ops) := by
  intro r
  have puts := run_puts lay co inside
  have table : r.2.table ops = s.fat.table (r.2.view ops) :=
    congrArg (fun g => g.table (r.2.view ops)) puts.geometry
  have mirror : r.2.fat.mirror (r.2.view ops) = s.fat.mirror (r.2.view ops) :=
    congrArg (fun g => g.mirror (r.2.view ops)) puts.geometry
  obtain ⟨ws, w, shows⟩ := puts.shows
  refine ⟨puts.table_eq, fun on c out same => ?_, fun base mem c lt => ?_, fun n out => ?_,
    puts.disk_table clean⟩
  · rw [table, mirror, w.view_eq]
    exact shows.mirror on c out same
  · rw [w.view_eq]
    exact shows.upper base mem c lt
  · by_cases info : n = s.fat.infoSect
    · rw [info]
      exact run_info lay co inside
    · exact puts.frame info out

/-- The areas of the small volume do not overlap. -/
lemma smallFs_layout (disk : σ) : (smallFs disk).fat.Layout :=
  (by decide : smallFat.Layout)

/-- Two puts, of which the first one fails at the write-back of the mirror. -/
theorem tables_keep_puts_small :
    let s := smallFs ([true, false], smallDisk)
    let r := run (putStep (.scripted Sect)) s [(5, 6), (6, 7)]
    r.2.table (.scripted Sect) =
        applyWrites (arrived [(5, 6), (6, 7)] r.1) (s.table (.scripted Sect)) ∧
      (s.fat.fatSect1 ≠ 0 → ∀ c ∉ failed [(5, 6), (6, 7)] r.1,
        s.fat.mirror (s.view (.scripted Sect)) c = s.table (.scripted Sect) c →
          r.2.fat.mirror (r.2.view (.scripted Sect)) c = r.2.table (.scripted Sect) c) ∧
      (∀ base ∈ s.fat.bases, ∀ c < s.fat.clustCnt,
        item32 base (r.2.view (.scripted Sect)) c >>> 28 =
          item32 base (s.view (.scripted Sect)) c >>> 28) ∧
      (∀ n, ¬ s.fat.InTable n → r.2.view (.scripted Sect) n = s.view (.scripted Sect) n) ∧
      ∃ k, r.2.fat.table (r.2.disk (.scripted Sect)) =
        applyWrites ((arrived [(5, 6), (6, 7)] r.1).take k) (s.table (.scripted Sect)) :=
  tables_keep_puts (smallFs_layout _) (smallFs_coherent _ _) rfl (by decide)

end Fs

end TRS.Fat
