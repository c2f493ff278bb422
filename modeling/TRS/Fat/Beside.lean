import TRS.Fat.File

/-!
# The sector buffer beside open files

Open files are read and written past the sector buffer of their volume. That works because the
buffer is never at a sector of theirs (`Tidy.away`): the functions on the table take it to the
tables only, and the other sectors that it visits belong to directories.

* `Tidy.away`: the buffer is at no sector of a busy file.
* `readSect_spec`, `writeSect_spec`: such a sector is read and written as the library sees it.
* `getFat_tidy`, `stretchChain_tidy`: the functions on the table keep this so.

The invariant `Tidy` joins the sound chains of `TRS.Fat.Isolation` with where the buffer goes
(`TRS.Fat.Roam`); what a program keeps and how it ends are proved apart and joined by `wp_and`.
-/

namespace TRS.Fat
open TRS.Lib TRS.Lib.Program

/-- A sector of a file that is not busy. -/
def FatFs.Others {ι : Type} (fat : FatFs) (busy : ι → Prop) (files : ι → Option (List Nat))
    (n : Nat) : Prop := ∃ j l, ¬ busy j ∧ files j = some l ∧ fat.InChain l n

namespace Fs
variable {σ ι : Type} (ops : Device σ Sect) (busy : ι → Prop)

/-- The volume is sound, and the sector buffer is not at a sector of a busy file. -/
structure Tidy (s : Fs σ) (files : ι → Option (List Nat)) : Prop where
  sound : Sound ops s files
  shift : s.fat.clustShift ≤ 7
  roams : Roams s.fat.geometry (s.fat.Others busy files) s

variable {ops} {busy} {s t : Fs σ} {files : ι → Option (List Nat)} {i : ι} {l : List Nat} {n : Nat}

/-- The library reads and writes a sector of a busy file past the buffer. -/
lemma Tidy.away (h : Tidy ops busy s files) (on : busy i) (e : files i = some l)
    (mem : s.fat.InChain l n) : n ≠ s.win.sect := by
  have lay := h.sound.layout
  have le := (lay.inChain_data (h.sound.numbered e) mem).1
  rintro rfl
  rcases h.roams.home with zero | info | table | ⟨j, l', off, e', mem'⟩
  · exact lay.data_pos le zero
  · exact lay.ne_info le info
  · exact lay.not_inTable le table
  · exact off (h.sound.inChain_unique e e' mem mem' ▸ on)

/-- The clusters of a busy file do not matter to the others. -/
lemma others_update [DecidableEq ι] (on : busy i) (fat : FatFs) (l' : List Nat) :
    fat.Others busy (Function.update files i (some l')) = fat.Others busy files := by
  funext m
  refine propext ⟨?_, ?_⟩
  · rintro ⟨j, l, off, e, mem⟩
    have ne : j ≠ i := by
      rintro rfl
      exact off on
    rw [Function.update_of_ne ne] at e
    exact ⟨j, l, off, e, mem⟩
  · rintro ⟨j, l, off, e, mem⟩
    have ne : j ≠ i := by
      rintro rfl
      exact off on
    exact ⟨j, l, off, (Function.update_of_ne ne ..).trans e, mem⟩

/-- A step of the buffer, which stays at home. -/
lemma Tidy.of_moves (h : Tidy ops busy s files) (m : Moves ops s t)
    (roams : Roams s.fat.geometry (s.fat.Others busy files) t) : Tidy ops busy t files := by
  have puts := Puts.of_moves m
  refine ⟨h.sound.of_puts puts (List.forall_mem_nil _) h.sound.apart h.sound.two,
    m.fat ▸ h.shift, ?_⟩
  rw [m.fat]
  exact roams

/-- A step that leaves the tables, and the place of the buffer. -/
lemma Tidy.of_view (h : Tidy ops busy s files) (fat : t.fat = s.fat)
    (sect : t.win.sect = s.win.sect) (co : t.Coherent ops) (table : t.table ops = s.table ops) :
    Tidy ops busy t files := by
  have cells : t.cells ops = s.cells ops := by
    funext c
    rw [cells, cells, table, fat]
  refine ⟨⟨fat ▸ h.sound.layout, co, ?_, ?_, h.sound.two⟩, fat ▸ h.shift, ?_⟩
  · rw [cells]
    exact h.sound.reserved
  · rw [cells]
    exact h.sound.apart
  · rw [fat]
    exact ⟨congrArg _ fat, sect ▸ h.roams.home⟩

/-- `read_sect` changes no sector, and gives the one asked for if the buffer is elsewhere. -/
lemma readSect_spec (h : Tidy ops busy s files) (n : Nat) :
    wp (readSect ops n) (fun r t => Tidy ops busy t files ∧ t.fat = s.fat ∧
      t.view ops = s.view ops ∧ ∀ b, r = some b → s.win.sect ≠ n → b = s.view ops n)
      (fun _ _ => False) s := by
  have view : (after (readSect ops n) s).view ops = s.view ops := Window.view_read n s.win
  refine ⟨h.of_view rfl rfl ?_ ?_, rfl, view, fun b e ne => ?_⟩
  · intro ne
    exact (h.sound.coherent ne).trans (congrFun view _).symm
  · exact congrArg s.fat.table view
  · exact (ops.read_some n _ b e).trans (if_neg fun h => ne h.2.symm).symm

/-- A write past the buffer, to a sector of a busy file. -/
lemma writeSect_spec (h : Tidy ops busy s files) (on : busy i) (e : files i = some l)
    (mem : s.fat.InChain l n) (b : Sect) :
    wp (writeSect ops b n) (fun ok t => Tidy ops busy t files ∧ t.fat = s.fat ∧
      t.infoDirty = s.infoDirty ∧ t.win.sect = s.win.sect ∧
      (t.view ops = s.view ops ∨ t.view ops = Function.update (s.view ops) n b) ∧
      (ok = true → t.view ops = Function.update (s.view ops) n b)) (fun _ _ => False) s := by
  have away := h.away on e mem
  have lay := h.sound.layout
  have le := (lay.inChain_data (h.sound.numbered e) mem).1
  have done : ops.content (ops.write b n s.win.disk).2 =
        Function.update (ops.content s.win.disk) n b →
      (after (writeSect ops b n) s).view ops = Function.update (s.view ops) n b :=
    fun eq => Window.view_disk away eq
  have view : (after (writeSect ops b n) s).view ops = s.view ops ∨
      (after (writeSect ops b n) s).view ops = Function.update (s.view ops) n b := by
    rcases ops.write_content b n s.win.disk with same | eq
    · left
      change Window.view ops _ = Window.view ops _
      unfold Window.view
      exact funext fun m => by rw [← same]; rfl
    · exact .inr (done eq)
  refine ⟨h.of_view rfl rfl ?_ ?_, rfl, rfl, rfl, view, fun ok => done (ops.write_true b n _ ok)⟩
  · intro ne
    refine (h.sound.coherent ne).trans ?_
    change s.view ops s.win.sect = (after (writeSect ops b n) s).view ops s.win.sect
    rcases view with same | eq
    · rw [same]
    · rw [eq, Function.update_of_ne away.symm]
  · change s.fat.table ((after (writeSect ops b n) s).view ops) = s.fat.table (s.view ops)
    rcases view with same | eq
    · rw [same]
    · rw [eq]
      refine lay.items_update_other FatFs.active_mem ?_
      have := lay.bounds FatFs.active_mem
      omega

/-! ## Codes -/

/-- No function reports success where it gives up. -/
abbrev NotNone (e : Stop) : Prop := e ≠ .code errNone

section Codes
variable {clust val : Nat}

/-- Where `sync_buf` gives up it does not report success. -/
lemma syncBuf_raises : Raises NotNone (syncBuf ops : Program (Fs σ) Unit) := fun s =>
  wp_imp (syncBuf_spec s) (fun _ _ _ => trivial) fun e _ h => by rw [h.1]; decide

/-- Nor does `update_buf`. -/
lemma updateBuf_raises (n : Nat) : Raises NotNone (updateBuf ops n) := fun s =>
  wp_imp (updateBuf_spec n s) (fun _ _ _ => trivial) fun e _ h => by rw [h.1]; decide

/-- Nor does `sync_fs`. -/
lemma syncFs_raises : Raises NotNone (syncFs ops : Program (Fs σ) Unit) := by
  refine .bind syncBuf_raises fun _ => .get_bind fun s => ?_
  split
  · exact .bind (updateBuf_raises _) fun _ => .bind (.change _) fun _ =>
      .bind syncBuf_raises fun _ => .change _
  · exact .pure _

/-- Nor does `get_fat`. -/
lemma getFat_raises : Raises NotNone (getFat ops clust) := by
  refine .get_bind fun s => .bind (updateBuf_raises _) fun _ => .get_bind fun t => ?_
  dsimp only
  split
  · exact .pure _
  · exact .throw (by decide)

/-- Nor does `put_fat`. -/
lemma putFat_raises : Raises NotNone (putFat ops clust val) := by
  have put : ∀ base, Raises NotNone (putFat2 ops base clust val) :=
    fun base => .bind (updateBuf_raises _) fun _ => .change _
  refine .get_bind fun s => ?_
  dsimp only
  split
  · exact .bind (put _) fun _ => put _
  · exact put _

/-- Nor does `stretch_chain`. -/
lemma stretchChain_raises {fuel : Nat} {junk : Byte} {out prev : Nat} :
    Raises NotNone (stretchChain ops fuel junk out prev) := by
  have round : ∀ b, Raises NotNone (scanRound ops b) := by
    rintro ⟨c, flags⟩
    refine .get_bind fun s => ?_
    dsimp only
    split
    · exact .throw (by decide)
    · refine .bind (.attempt (by decide)) fun r => ?_
      cases r with
      | error err =>
        dsimp only
        split
        · exact .pure _
        · next ne =>
          refine .throw fun e => ne ?_
          have zero : (flags.toNat : Int) = 0 := Stop.code.inj e
          exact BitVec.eq_of_toNat_eq (by simpa using zero)
      | ok r =>
        dsimp only
        split
        · exact .pure _
        · exact .pure _
  have scan : ∀ b, Raises NotNone (iterate (scanRound ops) fuel b) :=
    fun b => .iterate round (by decide) fuel b
  have rest : ∀ c, Raises NotNone (linkFree ops prev c) := by
    intro c
    have end_ : Raises NotNone (do
        modify fun s : Fs σ => { s with
          fat := { s.fat with lastUsed := c, freeCnt := u32 (s.fat.freeCnt + 2 ^ 32 - 1) } }
        syncFs ops
        return c) := .bind (.change _) fun _ => .bind syncFs_raises fun _ => .pure _
    refine .bind putFat_raises fun _ => ?_
    dsimp only
    split
    · exact .bind putFat_raises fun _ => end_
    · exact end_
  refine .bind (.change _) fun _ => .bind (.get_bind fun s => ?_) fun r => ?_
  · split
    · refine .bind getFat_raises fun r => ?_
      dsimp only
      split
      · exact .pure _
      · exact scan _
    · exact scan _
  · cases r with
    | none => exact .pure _
    | some c => exact rest c

end Codes

/-! ## Along a chain -/

/-- The step from `s` to `t` changes no sector but `FsInfo` and those of the tables. -/
structure SameData (ops : Device σ Sect) (s t : Fs σ) : Prop where
  geometry : t.fat.geometry = s.fat.geometry
  view : ∀ n, s.fat.Outside n → t.view ops n = s.view ops n

lemma SameData.trans {u : Fs σ} (first : SameData ops s t) (second : SameData ops t u) :
    SameData ops s u := by
  have outside := FatFs.outside_of_geometry first.geometry
  exact ⟨second.geometry.trans first.geometry,
    fun n out => (second.view n (outside ▸ out)).trans (first.view n out)⟩

/-- A step that only moves the buffer changes no sector at all. -/
lemma SameData.of_moves (m : Moves ops s t) : SameData ops s t :=
  ⟨congrArg _ m.fat, fun n _ => congrFun m.view_eq n⟩

/-- `get_fat` reports the item of a cluster and leaves everything in order. -/
lemma getFat_tidy (h : Tidy ops busy s files) {clust : Nat} (lt : clust < s.fat.clustCnt) :
    wp (getFat ops clust)
      (fun r t => Tidy ops busy t files ∧ Moves ops s t ∧
        r = (s.table ops clust, cellFlags (s.cells ops clust)))
      (fun _ t => Tidy ops busy t files ∧ Moves ops s t) s := by
  have lay := FatFs.layout_geometry.mpr h.sound.layout
  refine wp_imp (wp_and (getFat_roams lay lt s h.roams)
    (getFat_cell h.sound.layout h.sound.coherent lt)) ?_ ?_
  · rintro r t ⟨roams, moves, eq⟩
    exact ⟨h.of_moves moves roams, moves, eq⟩
  · rintro e t ⟨roams, moves, _⟩
    exact ⟨h.of_moves moves roams, moves⟩

/-- A busy file is extended, or it may get a cluster all the same if that fails. -/
lemma stretchChain_tidy [DecidableEq ι] {fuel : Nat} {junk : Byte} {out p : Nat}
    (h : Tidy ops busy s files) (on : busy i) (e : files i = some (l ++ [p])) :
    wp (stretchChain ops fuel junk out p)
      (fun c t => Tidy ops busy t (Function.update files i (some (l ++ [p] ++ [c]))) ∧
        SameData ops s t)
      (fun _ t => ∃ l', l ++ [p] <+: l' ∧ Tidy ops busy t (Function.update files i (some l')) ∧
        SameData ops s t) s := by
  have lay := h.sound.layout
  obtain ⟨two, lt⟩ := h.sound.numbered e p (by simp)
  have pos : p ≠ 0 := by omega
  -- what either outcome of `stretch_chain` amounts to
  have step : ∀ {t : Fs σ} {c k : Nat} {torn : List Nat}, c < s.fat.clustCnt →
      (k ≠ 0 → s.cells ops c = .free) → Puts ops s ((takePuts p c).take k) torn t →
      Roams s.fat.geometry (s.fat.Others busy files) t →
      Tidy ops busy t (Function.update files i (some (regrown ops t (l ++ [p])))) ∧
        SameData ops s t := by
    intro t c k torn c_lt free puts roams
    have keeps := h.sound.stretch e c_lt free puts
    have shift := congrArg FatFs.clustShift puts.geometry
    have others : t.fat.Others busy files = s.fat.Others busy files := by
      have same := congrArg (fun g : FatFs => g.Others busy files) puts.geometry
      exact same
    refine ⟨⟨keeps.sound, ?_, ?_⟩, puts.geometry, fun n out =>
      puts.frame out.1 out.2⟩
    · exact shift.trans_le h.shift
    · rw [others_update on, others, puts.geometry]
      exact roams
  have all : ∀ c, (takePuts p c).take 2 = takePuts p c := fun c => by
    rw [takePuts]
    exact List.take_of_length_le (by split <;> simp)
  refine wp_imp (wp_and (stretchChain_roams lay h.sound.coherent h.roams lt)
    (stretchChain_spec fuel junk out lay h.sound.coherent lt)) ?_ ?_
  · rintro c t ⟨roams, took | ⟨zero, _⟩⟩
    · have puts := took.puts
      have grown := regrown_of_puts (l := l) lay (h.sound.two_le took.free) took.lt pos puts
      rw [← all] at puts
      have outcome := step took.lt (fun _ => took.free) puts roams
      rw [grown] at outcome
      exact outcome
    · exact absurd zero pos
  · have sub : ∀ t, l ++ [p] <+: regrown ops t (l ++ [p]) := by
      intro t
      unfold regrown
      split
      · exact List.prefix_append _ _
      · exact List.prefix_refl _
    rintro _ t ⟨roams, torn, may | ⟨c, took⟩⟩
    · obtain ⟨c, k, c_lt, free, puts⟩ := may.puts
      exact ⟨_, sub t, step c_lt free puts roams⟩
    · have puts := took.puts
      rw [← all] at puts
      exact ⟨_, sub t, step took.lt (fun _ => took.free) puts roams⟩

end Fs

end TRS.Fat
