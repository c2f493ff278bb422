import TRS.Fat.Chain

/-!
# Where the sector buffer goes

The functions on the table take the buffer to sectors of the tables and to `FsInfo`, and nowhere
else. So the sectors of a file never get into it, which the library does not check when it reads and
writes them past the buffer.

* `updateBuf_roams`: the one function that moves the buffer.
* `getFat_roams`, `putFat_roams`, `syncFs_roams`: the functions that call it.
* `findFree_roams`, `linkFree_roams`, `stretchChain_roams`: the search for a cluster.

Each is by the rules of `Preserves`, with the invariant `Fs.Roams`.
-/

namespace TRS.Fat
open TRS.Lib TRS.Lib.Program

/-- A sector that the buffer may be at: none, `FsInfo`, a sector of a table, or one of `P`. -/
def FatFs.Home (fat : FatFs) (P : Nat → Prop) (n : Nat) : Prop :=
  n = 0 ∨ n = fat.infoSect ∨ fat.InTable n ∨ P n

namespace Fs
variable {σ : Type} (ops : Device σ Sect)

/-- The buffer of a volume with the geometry `g` is where it may be. -/
structure Roams (g : FatFs) (P : Nat → Prop) (s : Fs σ) : Prop where
  geometry : s.fat.geometry = g
  home : g.Home P s.win.sect

variable {ops} {g : FatFs} {P : Nat → Prop} {s : Fs σ} {clust prev : Nat}

/-- The counters do not matter to that. -/
lemma Roams.of_geometry (h : Roams g P s) {fat : FatFs} (e : fat.geometry = s.fat.geometry) :
    Roams g P { s with fat } := ⟨e.trans h.geometry, h.home⟩

/-- They leave the number of clusters. -/
lemma Roams.clustCnt (h : Roams g P s) : s.fat.clustCnt = g.clustCnt := by
  rw [← h.geometry]
  rfl

/-- The buffer may be at the sector of any item. -/
lemma Roams.item (h : Roams g P s) (lay : g.Layout) {base : Nat} (mem : base ∈ s.fat.bases)
    (lt : clust < g.clustCnt) : g.Home P (itemSect base clust) := by
  have mem' : base ∈ g.bases := h.geometry ▸ mem
  exact .inr (.inr (.inl (lay.itemSect_inTable mem' lt)))

/-- `sync_buf` leaves the buffer where it may be. -/
lemma syncBuf_roams : Preserves (Roams g P) (syncBuf ops : Program (Fs σ) Unit) := by
  intro s h
  have sect : (s.win.sync ops).2.sect = s.win.sect := Window.sync_sect s.win
  have home := h.home
  unfold wp syncBuf
  cases e : s.win.sync ops with
  | mk ok win =>
    rw [e] at sect
    rw [← sect] at home
    cases ok with
    | true => exact ⟨h.geometry, home⟩
    | false => exact ⟨h.geometry, home⟩

/-- So does `update_buf` with such a sector. -/
lemma updateBuf_roams {n : Nat} (home : g.Home P n) : Preserves (Roams g P) (updateBuf ops n) := by
  intro s h
  have sect : (s.win.load ops n).2.sect = n ∨ (s.win.load ops n).2.sect = s.win.sect :=
    Window.load_sect_or n s.win
  unfold wp updateBuf
  cases e : s.win.load ops n with
  | mk ok win =>
    rw [e] at sect
    have home' : g.Home P win.sect := by
      rcases sect with here | here
      · exact here ▸ home
      · exact here ▸ h.home
    cases ok with
    | true => exact ⟨h.geometry, home'⟩
    | false => exact ⟨h.geometry, home'⟩

/-- A change of the buffer leaves it at its sector. -/
lemma edit_roams (f : Sect → Sect) (h : Roams g P s) : Roams g P (s.edit f) := ⟨h.geometry, h.home⟩

/-- `sync_fs` moves it to `FsInfo` at most. -/
lemma syncFs_roams : Preserves (Roams g P) (syncFs ops : Program (Fs σ) Unit) := by
  unfold syncFs
  refine .bind syncBuf_roams fun _ => .get_bind fun s h => ?_
  split
  · have home : g.Home P s.fat.infoSect := by
      rw [← h.geometry]
      exact .inr (.inl rfl)
    refine Preserves.bind (updateBuf_roams home) (fun _ => .bind (.change fun s h => ?_) fun _ =>
      .bind syncBuf_roams fun _ => .change fun s h => ?_) s h
    · exact edit_roams _ h
    · exact ⟨h.geometry, h.home⟩
  · exact h

/-- `get_fat` moves it to a sector of the table. -/
lemma getFat_roams (lay : g.Layout) (lt : clust < g.clustCnt) :
    Preserves (Roams g P) (getFat ops clust) := by
  refine .get_bind fun s h => ?_
  refine Preserves.bind (updateBuf_roams (h.item lay FatFs.active_mem lt))
    (fun _ => .get_bind fun t h => ?_) s h
  dsimp only
  split
  · exact h
  · exact h

/-- `put_fat2` moves it to the sector of the item. -/
lemma putFat2_roams {base val : Nat} (home : g.Home P (itemSect base clust)) :
    Preserves (Roams g P) (putFat2 ops base clust val) :=
  .bind (updateBuf_roams home) fun _ => .change fun _ h => edit_roams _ h

/-- So does `put_fat`, in both tables. -/
lemma putFat_roams (lay : g.Layout) (val : Nat) (lt : clust < g.clustCnt) :
    Preserves (Roams g P) (putFat ops clust val) := by
  refine .get_bind fun s h => ?_
  have active : Preserves (Roams g P) (putFat2 ops s.fat.fatSect0 clust val) :=
    putFat2_roams (h.item lay FatFs.active_mem lt)
  dsimp only
  split
  · next on =>
    exact Preserves.bind (putFat2_roams (h.item lay (FatFs.mirror_mem on) lt)) (fun _ => active) s h
  · exact active s h

/-- A round of the search reads an item. -/
lemma scanRound_roams (lay : g.Layout) (b : Nat × Byte) :
    Preserves (Roams g P) (scanRound ops b) := by
  refine .get_bind fun s h => ?_
  have lt : s.fat.bump b.1 < g.clustCnt := by
    have lay' : s.fat.Layout := by
      rw [← FatFs.layout_geometry, h.geometry]
      exact lay
    exact h.clustCnt ▸ lay'.bump_lt b.1
  dsimp only
  split
  · exact h
  · refine Preserves.bind (.attempt (getFat_roams lay lt)) (fun r => ?_) s h
    cases r with
    | error err =>
      dsimp only
      split
      · exact .pure _
      · exact .throw _
    | ok r =>
      dsimp only
      split
      · exact .pure _
      · exact .pure _

/-- So the search stays in the table. -/
lemma findFree_roams (lay : g.Layout) (fuel : Nat) (junk : Byte) :
    Preserves (Roams g P) (findFree ops fuel junk prev) := by
  have scan : ∀ b, Preserves (Roams g P) (iterate (scanRound ops) fuel b) :=
    fun b => .iterate (scanRound_roams lay) fuel b
  refine .get_bind fun s h => ?_
  have lt : s.fat.bump prev < g.clustCnt := by
    have lay' : s.fat.Layout := by
      rw [← FatFs.layout_geometry, h.geometry]
      exact lay
    exact h.clustCnt ▸ lay'.bump_lt prev
  split
  · refine Preserves.bind (getFat_roams lay lt) (fun r => ?_) s h
    dsimp only
    split
    · exact .pure _
    · exact scan _
  · exact scan _ s h

/-- The cluster that it finds is linked in the table. -/
lemma linkFree_roams (lay : g.Layout) (prev_lt : prev < g.clustCnt) (lt : clust < g.clustCnt) :
    Preserves (Roams g P) (linkFree ops prev clust) := by
  have rest : Preserves (Roams g P) (do
      modify fun s : Fs σ => { s with
        fat := { s.fat with lastUsed := clust, freeCnt := u32 (s.fat.freeCnt + 2 ^ 32 - 1) } }
      syncFs ops
      return clust) :=
    .bind (.change fun s h => h.of_geometry rfl) fun _ => .bind syncFs_roams fun _ => .pure _
  unfold linkFree
  refine .bind (putFat_roams lay _ lt) fun _ => ?_
  split
  · exact .bind (putFat_roams lay _ prev_lt) fun _ => rest
  · exact rest

/-- Whether it succeeds or not, `stretch_chain` leaves the buffer at home. -/
lemma stretchChain_roams {fuel : Nat} {junk : Byte} {out : Nat} (lay : s.fat.Layout)
    (co : s.Coherent ops) (h : Roams g P s) (lt : prev < s.fat.clustCnt) :
    wp (stretchChain ops fuel junk out prev) (fun _ => Roams g P) (fun _ => Roams g P) s := by
  have lay' : g.Layout := by
    rw [← h.geometry, FatFs.layout_geometry]
    exact lay
  have h' : Roams g P { s with infoDirty := true } := ⟨h.geometry, h.home⟩
  unfold stretchChain
  rw [wp_bind, wp_modify]
  refine wp_seq (wp_and (findFree_roams lay' fuel junk _ h')
    (findFree_spec (s := { s with infoDirty := true }) lay co)) ?_ fun _ _ h => h.1
  rintro r t ⟨roams, _, found⟩
  cases r with
  | none => exact roams
  | some c =>
    have cnt := h.clustCnt
    exact linkFree_roams lay' (cnt ▸ lt) (cnt ▸ found.1) t roams

end Fs

end TRS.Fat
