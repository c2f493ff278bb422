import TRS.Fat.Beside

/-!
# Moving in a file

What `fat_file_seek` does to a file that owns the clusters `l`, whatever transfers fail on the way:
the file keeps its clusters, and no sector of another file changes (`Step`). Where the seek succeeds
and the buffer held the right sector before (`Ready`), it does so afterwards, at the new offset, and
the contents of the file have not changed.

* `walk_spec`: the walk along the chain, by induction on the clusters that it goes on.
* `flush_spec`, `enter_spec`: the way from one sector into another.
* `goTo_spec`: to a position behind the checks of the arguments.
* `fileSeek_spec`: the whole function.

`Walked`, `Entered`, `Step` and `Sought` say what each part keeps, and compose by their `trans`.
-/

namespace TRS.Fat
open TRS.Lib TRS.Lib.Program

/-! ## Open files -/

/-- The file owns the clusters `l`, and is at one of them, as far as its fields tell. -/
structure File.Held (fat : FatFs) (l : List Nat) (file : File) : Prop where
  attached : file.fat = true
  head : l.head? = some file.sclust
  mem : file.clust ∈ l
  sect : fat.InChain l file.sect

/-- The fields of a file that no seek changes. -/
def File.fixed (file : File) : File :=
  { file with
    clust := 0, sect := 0, offset := 0, buf := .of fun _ => 0#8
    flags := { file.flags with dirty := false } }

/-- To be elsewhere in a file changes none of the fixed fields. -/
lemma File.fixed_at (file : File) (clust sect offset : Nat) :
    ({ file with clust, sect, offset } : File).fixed = file.fixed := rfl

/-- A file that has moved to other clusters and sectors of its own. -/
lemma File.Held.moved {fat fat' : FatFs} {l l' : List Nat} {file file' : File}
    (held : file.Held fat l) (fixed : file'.fixed = file.fixed) (sub : l <+: l')
    (mem : file'.clust ∈ l') (sect : fat'.InChain l' file'.sect) : file'.Held fat' l' := by
  have attached := congrArg File.fat fixed
  have sclust := congrArg File.sclust fixed
  change file'.fat = file.fat at attached
  change file'.sclust = file.sclust at sclust
  refine ⟨attached.trans held.attached, ?_, mem, sect⟩
  obtain ⟨more, rfl⟩ := sub
  rw [List.head?_append, held.head, sclust]
  rfl

namespace OpenFile
open Fs
variable {σ ι : Type} (ops : Device σ Sect)

/-- The sectors of the volume with the buffer of the file. -/
def content (s : OpenFile σ) (n : Nat) : Sect :=
  if s.file.flags.dirty = true ∧ n = s.file.sect then s.file.buf else s.fs.view ops n

/-- The bytes that the clusters `l` have room for. -/
def room (s : OpenFile σ) (l : List Nat) : Nat := 512 * s.fs.fat.sectCount l

/-- The file is at the cluster and the sector of its offset, with this sector in its buffer, and has
    all of its bytes in its clusters. -/
structure Ready (l : List Nat) (s : OpenFile σ) : Prop where
  clust : l[s.file.offset / s.fs.fat.clustSize]? = some s.file.clust
  sect : s.file.sect = s.fs.fat.fileSect l (s.file.offset / 512)
  buf : s.content ops s.file.sect = s.file.buf
  fits : s.file.size ≤ s.room l

variable [DecidableEq ι] (busy : ι → Prop) (files : ι → Option (List Nat)) (i : ι)

/-- A step of the walk, of a file with the clusters `l` before and `l'` after it. -/
structure Walked (s : OpenFile σ) (l : List Nat) (t : OpenFile σ) (l' : List Nat) : Prop where
  tidy : Tidy ops busy t.fs (Function.update files i (some l'))
  grow : l <+: l'
  data : SameData ops s.fs t.fs
  file : t.file = { s.file with clust := t.file.clust }

/-- A step of a file with the clusters `l` before and `l'` after it: no sector changes but `FsInfo`,
    those of the tables and its own. -/
structure Step (s : OpenFile σ) (l : List Nat) (t : OpenFile σ) (l' : List Nat) : Prop where
  tidy : Tidy ops busy t.fs (Function.update files i (some l'))
  held : t.file.Held t.fs.fat l'
  grow : l <+: l'
  geometry : t.fs.fat.geometry = s.fs.fat.geometry
  frame : ∀ n, s.fs.fat.Outside n → ¬ s.fs.fat.InChain l' n → t.fs.view ops n = s.fs.view ops n

variable {ops} {busy} {files} {i} {s t u : OpenFile σ} {l l' l'' : List Nat} {fuel : Nat}
  {junk : Byte} {off ssect : Nat}

omit [DecidableEq ι] in
/-- The counters of a volume do not matter to the sectors of a chain. -/
lemma inChain_of_geometry {fat fat' : FatFs} (e : fat'.geometry = fat.geometry) :
    fat'.InChain = fat.InChain := by
  have same := congrArg FatFs.InChain e
  exact same

lemma Walked.refl (h : Tidy ops busy s.fs files) (e : files i = some l) :
    Walked ops busy files i s l s l := by
  refine ⟨?_, List.prefix_refl _, ⟨rfl, fun _ _ => rfl⟩, rfl⟩
  rw [← e, Function.update_eq_self]
  exact h

/-- A walk keeps the fixed fields. -/
lemma Walked.fixed (h : Walked ops busy files i s l t l') : t.file.fixed = s.file.fixed := by
  rw [h.file]
  rfl

/-- One walk after the other. -/
lemma Walked.trans (first : Walked ops busy files i s l t l')
    (second : Walked ops busy (Function.update files i (some l')) i t l' u l'') :
    Walked ops busy files i s l u l'' := by
  refine ⟨?_, first.grow.trans second.grow, first.data.trans second.data, ?_⟩
  · have tidy := second.tidy
    rw [Function.update_idem] at tidy
    exact tidy
  · rw [second.file, first.file]

/-- A round of the walk goes from a cluster of the file to the next one. -/
lemma walkRound_spec {k : Nat} (h : Tidy ops busy s.fs files) (on : busy i)
    (e : files i = some l) (here : l[k]? = some s.file.clust) :
    wp (walkRound ops fuel junk)
      (fun _ t => ∃ l', Walked ops busy files i s l t l' ∧ l'[k + 1]? = some t.file.clust)
      (fun _ t => ∃ l', Walked ops busy files i s l t l' ∧ t.file.clust = s.file.clust) s := by
  have chain := h.sound.apart.chain i l e
  obtain ⟨lt, at_⟩ := List.getElem?_eq_some_iff.mp here
  have split : l = l.take k ++ s.file.clust :: l.drop (k + 1) := by
    rw [← at_, List.cons_getElem_drop_succ, List.take_append_drop]
  have mem : s.file.clust ∈ l := at_ ▸ List.getElem_mem lt
  have unchanged : ∀ {t : Fs σ}, Tidy ops busy t files → Moves ops s.fs t →
      Walked ops busy files i s l { s with fs := t } l := by
    intro t tidy moves
    refine ⟨?_, List.prefix_refl _, .of_moves moves, rfl⟩
    rw [← e, Function.update_eq_self]
    exact tidy
  rw [split] at chain
  have rest := chain.drop_left
  unfold walkRound onFs
  rw [wp_bind, wp_get, wp_bind, wp_within]
  refine wp_imp (getFat_tidy h (h.sound.numbered e _ mem).2) ?_ ?_
  · rintro r t ⟨tidy, moves, rfl⟩
    have stay := unchanged tidy moves
    cases next : l.drop (k + 1) with
    | nil =>
      rw [next] at rest split
      cases rest with
      | last last =>
        rw [last]
        rw [split] at e
        dsimp only
        rw [if_neg (by decide), if_pos (by decide), wp_bind, wp_within]
        refine wp_imp (stretchChain_tidy tidy on e) ?_ ?_
        · rintro c v ⟨tidy', data⟩
          rw [wp_modify]
          refine ⟨_, ⟨tidy', ?_, stay.data.trans data, rfl⟩, ?_⟩
          · rw [← split]
            exact List.prefix_append _ _
          · rw [← split]
            have len : l.length = k + 1 := by
              have := congrArg List.length split
              rw [List.length_append, List.length_take, List.length_singleton] at this
              omega
            rw [List.getElem?_append_right (Nat.le_of_eq len), len, Nat.sub_self]
            rfl
        · rintro stop v ⟨l', sub, tidy', data⟩
          exact ⟨l', ⟨tidy', split ▸ sub, stay.data.trans data, rfl⟩, rfl⟩
    | cons b l₂ =>
      rw [next] at rest split
      cases rest with
      | next eq _ =>
        rw [eq]
        dsimp only
        rw [if_neg (by rw [cellFlags]; decide), if_neg (by rw [cellFlags]; decide), wp_modify]
        refine ⟨l, ⟨stay.tidy, stay.grow, stay.data, rfl⟩, ?_⟩
        have value : s.fs.table ops s.file.clust = b := (FatFs.cell_next eq).1
        have second : l[k + 1]? = some b := by
          rw [split, List.getElem?_append_right (by rw [List.length_take]; omega),
            List.length_take, min_eq_left (Nat.le_of_lt lt)]
          simp
        rw [second, ← value]
        rfl
  · rintro stop t ⟨tidy, moves⟩
    exact ⟨l, unchanged tidy moves, rfl⟩

/-- `n` rounds of the walk go `n` clusters on, and the ones that stop leave the file in its chain.
    -/
lemma walk_spec (n : Nat) {k : Nat} (h : Tidy ops busy s.fs files) (on : busy i)
    (e : files i = some l) (here : l[k]? = some s.file.clust) :
    wp (walk ops fuel junk n)
      (fun _ t => ∃ l', Walked ops busy files i s l t l' ∧ l'[k + n]? = some t.file.clust)
      (fun _ t => ∃ l', Walked ops busy files i s l t l' ∧ t.file.clust ∈ l') s := by
  induction n generalizing s l k files with
  | zero => exact ⟨l, .refl h e, here⟩
  | succ n ih =>
    rw [walk]
    refine wp_seq (walkRound_spec h on e here) ?_ ?_
    · rintro _ t ⟨l', first, here'⟩
      refine wp_imp (ih first.tidy (Function.update_self ..) here') ?_ ?_
      · rintro _ u ⟨l'', second, there⟩
        refine ⟨l'', first.trans second, ?_⟩
        rw [← there]
        congr 1
        omega
      · rintro stop u ⟨l'', second, mem⟩
        exact ⟨l'', first.trans second, mem⟩
    · rintro stop t ⟨l', first, eq⟩
      refine ⟨l', first, ?_⟩
      rw [eq]
      exact first.grow.subset (List.mem_of_getElem? here)

/-! ## Into a sector -/

/-- The sectors of the volume with the buffer of the file, which is sector `ssect`. -/
def contentAt (ops : Device σ Sect) (s : OpenFile σ) (ssect n : Nat) : Sect :=
  if s.file.flags.dirty = true ∧ n = ssect then s.file.buf else s.fs.view ops n

/-- The step from `s` to `t` moves the buffer of the file away from sector `ssect`. -/
structure Entered (ops : Device σ Sect) (busy : ι → Prop) (files : ι → Option (List Nat))
    (s : OpenFile σ) (ssect : Nat) (t : OpenFile σ) : Prop where
  tidy : Tidy ops busy t.fs files
  fat : t.fs.fat = s.fs.fat
  file : t.file = { s.file with
    buf := t.file.buf, flags := { s.file.flags with dirty := t.file.flags.dirty } }
  view : ∀ n, n ≠ ssect → t.fs.view ops n = s.fs.view ops n

section Entered
omit [DecidableEq ι]

/-- The way into a sector keeps the fixed fields. -/
lemma Entered.fixed (h : Entered ops busy files s ssect t) : t.file.fixed = s.file.fixed := by
  rw [h.file]
  rfl

/-- It keeps the cluster. -/
lemma Entered.clust (h : Entered ops busy files s ssect t) : t.file.clust = s.file.clust := by
  rw [h.file]

/-- It keeps the number of the sector. -/
lemma Entered.sect (h : Entered ops busy files s ssect t) : t.file.sect = s.file.sect := by
  rw [h.file]

/-- It keeps the offset. -/
lemma Entered.offset (h : Entered ops busy files s ssect t) : t.file.offset = s.file.offset := by
  rw [h.file]

end Entered

omit [DecidableEq ι] in
/-- The buffer of a file is written back to its sector. -/
lemma flush_spec (h : Tidy ops busy s.fs files) (on : busy i) (e : files i = some l)
    (mem : s.fs.fat.InChain l ssect) :
    wp (flush ops ssect)
      (fun _ t => Entered ops busy files s ssect t ∧ t.file.flags.dirty = false ∧
        t.fs.view ops = s.contentAt ops ssect ∧ t.file.buf = s.file.buf)
      (fun _ t => Entered ops busy files s ssect t) s := by
  unfold flush onFs
  rw [wp_bind, wp_get]
  cases dirty : s.file.flags.dirty with
  | false =>
    rw [if_neg (by decide)]
    refine ⟨⟨h, rfl, rfl, fun _ _ => rfl⟩, dirty, ?_, rfl⟩
    funext n
    exact (if_neg (by rw [dirty]; rintro ⟨⟨⟩, _⟩)).symm
  | true =>
    rw [if_pos rfl, wp_bind, wp_within]
    refine wp_imp (writeSect_spec h on e mem s.file.buf) ?_ fun _ _ h => h.elim
    rintro ok t ⟨tidy, fat, _, _, view, done⟩
    have away : ∀ n, n ≠ ssect → t.view ops n = s.fs.view ops n := by
      intro n ne
      rcases view with same | eq
      · rw [same]
      · rw [eq, Function.update_of_ne ne]
    cases ok with
    | false => exact ⟨tidy, fat, rfl, away⟩
    | true =>
      refine ⟨⟨tidy, fat, rfl, away⟩, rfl, ?_, rfl⟩
      funext n
      change t.view ops n = _
      rw [done rfl, contentAt, dirty]
      by_cases same : n = ssect
      · rw [if_pos ⟨rfl, same⟩, same, Function.update_self]
      · rw [if_neg fun h => same h.2, Function.update_of_ne same]

omit [DecidableEq ι] in
/-- Afterwards the buffer holds the sector of the file, and all of its data are still there. -/
lemma enter_spec (h : Tidy ops busy s.fs files) (on : busy i) (e : files i = some l)
    (mem : s.fs.fat.InChain l ssect) (mem' : s.fs.fat.InChain l s.file.sect) :
    wp (enter ops ssect)
      (fun _ t => Entered ops busy files s ssect t ∧ t.content ops = s.contentAt ops ssect ∧
        (s.contentAt ops ssect ssect = s.file.buf → t.content ops t.file.sect = t.file.buf))
      (fun _ t => Entered ops busy files s ssect t) s := by
  unfold enter
  rw [wp_bind, wp_get]
  by_cases same : s.file.sect = ssect
  · rw [if_neg (not_not.mpr same)]
    have content : s.content ops = s.contentAt ops ssect := by
      rw [← same]
      rfl
    refine ⟨⟨h, rfl, rfl, fun _ _ => rfl⟩, content, fun buf => ?_⟩
    rw [content, same]
    exact buf
  · rw [if_pos same]
    refine wp_seq (flush_spec h on e mem) ?_ fun _ _ h => h
    rintro _ t ⟨flushed, clean, view, buf⟩
    have sect : t.file.sect = s.file.sect := by rw [flushed.file]
    have away : t.file.sect ≠ t.fs.win.sect := by
      refine flushed.tidy.away on e ?_
      rw [flushed.fat, sect]
      exact mem'
    unfold fill onFs
    rw [wp_bind, wp_get, wp_bind, wp_within]
    refine wp_imp (readSect_spec flushed.tidy t.file.sect) ?_ fun _ _ h => h.elim
    rintro r u ⟨tidy, fat, same_view, value⟩
    have frame : ∀ n, n ≠ ssect → u.view ops n = s.fs.view ops n := fun n ne => by
      rw [same_view]
      exact flushed.view n ne
    cases r with
    | none => exact ⟨tidy, fat.trans flushed.fat, flushed.file, frame⟩
    | some b =>
      dsimp only
      rw [wp_modify]
      have content : ∀ f : File, f.flags.dirty = false →
          (⟨u, f⟩ : OpenFile σ).content ops = s.contentAt ops ssect := by
        intro f clean
        funext n
        rw [← view, ← same_view]
        exact if_neg (by rw [clean]; rintro ⟨⟨⟩, _⟩)
      refine ⟨⟨tidy, fat.trans flushed.fat, ?_, frame⟩, content _ clean, fun _ => ?_⟩
      · change ({ t.file with buf := b } : File) = _
        rw [flushed.file]
        rfl
      · have kept := congrFun (content { t.file with buf := b } clean) t.file.sect
        exact kept.trans ((congrFun view _).symm.trans (value b rfl away.symm).symm)

/-! ## Seeking -/

omit [DecidableEq ι] in
/-- The size of a cluster does not wrap. -/
lemma clustSize_eq (h : Tidy ops busy s.fs files) :
    s.fs.fat.clustSize = 512 * 2 ^ s.fs.fat.clustShift := by
  have le : 2 ^ s.fs.fat.clustShift ≤ 2 ^ 7 := Nat.pow_le_pow_right (by decide) h.shift
  exact u32_of_lt (by omega)

omit [DecidableEq ι] in
/-- The clusters that a seek counts hold the sectors that it counts. -/
lemma div_clustSize (h : Tidy ops busy s.fs files) (off : Nat) :
    off / 512 / 2 ^ s.fs.fat.clustShift = off / s.fs.fat.clustSize := by
  rw [clustSize_eq h, Nat.div_div_eq_div_mul]

omit [DecidableEq ι] in
/-- The sector of the offset is one of the file. -/
lemma Ready.lt (h : Tidy ops busy s.fs files) (ready : s.Ready ops l) :
    s.file.offset / 512 < s.fs.fat.sectCount l := by
  obtain ⟨lt, _⟩ := List.getElem?_eq_some_iff.mp ready.clust
  rw [← div_clustSize h, Nat.div_lt_iff_lt_mul (Nat.two_pow_pos _)] at lt
  exact lt

/-- The sector that a seek computes is one of its cluster. -/
lemma arrive_spec (off : Nat) (h : Tidy ops busy s.fs (Function.update files i (some l)))
    (mem : s.file.clust ∈ l) :
    ∃ sect, arrive off s = ⟨s.fs, { s.file with sect, offset := off }⟩ ∧
      sect = s.fs.fat.clustToSect s.file.clust + off / 512 % 2 ^ s.fs.fat.clustShift ∧
      s.fs.fat.Covers s.file.clust sect := by
  have lay := h.sound.layout
  obtain ⟨two, lt⟩ := h.sound.numbered (Function.update_self ..) _ mem
  obtain ⟨eq, inside⟩ := lay.clustToSect_eq two lt
  have small := Nat.mod_lt (off / 512) (Nat.two_pow_pos s.fs.fat.clustShift)
  refine ⟨_, rfl, ?_, ?_⟩
  · rw [lay.msk, and_mask]
    exact u32_of_lt (by omega)
  · rw [lay.msk, and_mask, u32_of_lt (by omega)]
    exact ⟨Nat.le_add_right .., Nat.add_lt_add_left small _⟩

/-- A step of the file that only moves in it. -/
structure Sought (ops : Device σ Sect) (busy : ι → Prop) (files : ι → Option (List Nat)) (i : ι)
    (s : OpenFile σ) (l : List Nat) (t : OpenFile σ) (l' : List Nat) : Prop
    extends Step ops busy files i s l t l' where
  fixed : t.file.fixed = s.file.fixed

lemma Sought.refl (h : Tidy ops busy s.fs files) (e : files i = some l)
    (held : s.file.Held s.fs.fat l) : Sought ops busy files i s l s l := by
  refine ⟨⟨?_, held, List.prefix_refl _, rfl, fun _ _ _ => rfl⟩, rfl⟩
  rw [← e, Function.update_eq_self]
  exact h

/-- No step takes room away. -/
lemma Step.room_le (h : Step ops busy files i s l t l') : s.room l ≤ t.room l' := by
  have shift := congrArg FatFs.clustShift h.geometry
  change t.fs.fat.clustShift = s.fs.fat.clustShift at shift
  have more := s.fs.fat.sectCount_prefix h.grow
  unfold room
  unfold FatFs.sectCount at *
  rw [shift]
  exact Nat.mul_le_mul_left _ more

/-- From cluster `k` of the file, or from the first one. -/
lemma goTo_spec {k : Nat} (h : Tidy ops busy s.fs files) (on : busy i) (e : files i = some l)
    (held : s.file.Held s.fs.fat l) (here : l[k]? = some s.file.clust) :
    wp (goTo ops fuel junk off)
      (fun _ t => ∃ l', Sought ops busy files i s l t l' ∧ t.file.offset = off ∧
        (k = s.file.offset / s.fs.fat.clustSize → s.content ops s.file.sect = s.file.buf →
          s.file.size ≤ s.room l →
            t.Ready ops l' ∧ ∀ n, s.fs.fat.dataSect ≤ n → t.content ops n = s.content ops n))
      (fun _ t => ∃ l', Sought ops busy files i s l t l') s := by
  have lay := h.sound.layout
  have first : l[0]? = some s.file.sclust := by
    rw [← List.head?_eq_getElem?]
    exact held.head
  -- from the walk on, wherever it starts
  have rest : ∀ (v : OpenFile σ) (start n : Nat), v.fs = s.fs → v.file.fixed = s.file.fixed →
      v.file.flags.dirty = s.file.flags.dirty → v.file.buf = s.file.buf →
      s.fs.fat.InChain l v.file.sect → l[start]? = some v.file.clust →
      (k = s.file.offset / s.fs.fat.clustSize → start + n = off / s.fs.fat.clustSize) →
      wp (do
          walk ops fuel junk n
          modify (arrive off)
          enter ops s.file.sect)
        (fun _ t => ∃ l', Sought ops busy files i s l t l' ∧ t.file.offset = off ∧
          (k = s.file.offset / s.fs.fat.clustSize → s.content ops s.file.sect = s.file.buf →
            s.file.size ≤ s.room l → t.Ready ops l' ∧
              ∀ n, s.fs.fat.dataSect ≤ n → t.content ops n = s.content ops n))
        (fun _ t => ∃ l', Sought ops busy files i s l t l') v := by
    intro v start n fs fixed dirty buf near at_ count
    have h' : Tidy ops busy v.fs files := fs ▸ h
    refine wp_seq (walk_spec n h' on e at_) ?_ ?_
    · rintro _ w ⟨l', walked, there⟩
      have geometry := walked.data.geometry
      have view := walked.data.view
      rw [fs] at geometry view
      have inChain := inChain_of_geometry geometry
      have fixed' := walked.fixed.trans fixed
      have mem := List.mem_of_getElem? there
      obtain ⟨sect, arrived, sect_eq, covers⟩ := arrive_spec off walked.tidy mem
      have old : w.fs.fat.InChain l' s.file.sect := by
        rw [inChain]
        exact held.sect.prefix_ walked.grow
      have new : w.fs.fat.InChain l' sect := ⟨_, mem, covers⟩
      rw [wp_bind, wp_modify, arrived]
      -- whatever comes of the buffer
      have sought : ∀ {t : OpenFile σ}, Entered ops busy (Function.update files i (some l'))
          ⟨w.fs, { w.file with sect, offset := off }⟩ s.file.sect t →
          Sought ops busy files i s l t l' := by
        intro t entered
        have fat : t.fs.fat = w.fs.fat := entered.fat
        have fixed := (entered.fixed.trans (w.file.fixed_at _ sect off)).trans fixed'
        refine ⟨⟨entered.tidy, held.moved fixed walked.grow ?_ ?_, walked.grow, ?_, ?_⟩, fixed⟩
        · rw [entered.clust]
          exact mem
        · rw [entered.sect, fat]
          exact new
        · rw [fat]
          exact geometry
        · intro n outside out
          have ne : n ≠ s.file.sect := by
            rintro rfl
            exact out (inChain ▸ old)
          exact (entered.view n ne).trans (view n outside)
      refine wp_imp (enter_spec walked.tidy on (Function.update_self ..) old new) ?_ ?_
      · rintro _ t ⟨entered, content, loaded⟩
        have fat : t.fs.fat = w.fs.fat := entered.fat
        have dirty' : w.file.flags.dirty = s.file.flags.dirty := by
          rw [walked.file]
          exact dirty
        have buf' : w.file.buf = s.file.buf := by
          rw [walked.file]
          exact buf
        have before : ∀ n, s.fs.fat.dataSect ≤ n →
            contentAt ops ⟨w.fs, { w.file with sect, offset := off }⟩ s.file.sect n =
              s.content ops n := by
          intro n le
          unfold contentAt OpenFile.content
          dsimp only
          rw [dirty', buf', view n (lay.outside le)]
        refine ⟨l', sought entered, entered.offset,
          fun pos whole fits => ⟨⟨?_, ?_, ?_, ?_⟩, fun n le => ?_⟩⟩
        · have size := congrArg FatFs.clustSize geometry
          change w.fs.fat.clustSize = s.fs.fat.clustSize at size
          rw [entered.offset, entered.clust, fat, size, ← count pos]
          exact there
        · have index : l'.getD (off / 512 / 2 ^ w.fs.fat.clustShift) 0 = w.file.clust := by
            have size := congrArg FatFs.clustSize geometry
            change w.fs.fat.clustSize = s.fs.fat.clustSize at size
            rw [div_clustSize walked.tidy, size, ← count pos, List.getD_eq_getElem?_getD, there]
            rfl
          rw [entered.offset, entered.sect, fat, FatFs.fileSect, index]
          exact sect_eq
        · refine loaded ?_
          rw [before _ (lay.inChain_data (h.sound.numbered e) held.sect).1, whole]
          exact buf'.symm
        · have moved := sought entered
          have size := congrArg File.size moved.fixed
          change t.file.size = s.file.size at size
          rw [size]
          exact fits.trans moved.room_le
        · rw [content, before n le]
      · rintro stop t entered
        exact ⟨l', sought entered⟩
    · rintro stop w ⟨l', walked, mem⟩
      have geometry := walked.data.geometry
      have view := walked.data.view
      rw [fs] at geometry view
      have fixed' := walked.fixed.trans fixed
      refine ⟨l', ⟨walked.tidy, held.moved fixed' walked.grow mem ?_, walked.grow, geometry,
        fun n outside _ => view n outside⟩, fixed'⟩
      rw [inChain_of_geometry geometry, walked.file]
      exact near.prefix_ walked.grow
  unfold goTo
  rw [wp_bind, wp_get]
  dsimp only
  split
  · next back =>
    have covers : s.fs.fat.InChain l (s.fs.fat.clustToSect s.file.sclust) :=
      ⟨_, List.mem_of_getElem? first, Nat.le_refl _, Nat.lt_add_of_pos_right (Nat.two_pow_pos _)⟩
    exact rest (rewind s) 0 _ rfl (s.file.fixed_at _ _ 0) rfl rfl covers first
      fun _ => Nat.zero_add _
  · next onwards =>
    exact rest s k _ rfl rfl rfl rfl held.sect here fun pos => by omega

omit [DecidableEq ι] in
/-- Where `fat_file_seek` gives up it does not report success. -/
lemma fileSeek_raises {offset : Int} {seek : Seek} :
    Raises NotNone (fileSeek ops fuel junk offset seek : Program (OpenFile σ) Unit) := by
  have round : Raises NotNone (walkRound ops fuel junk : Program (OpenFile σ) Unit) := by
    refine .get_bind fun s => .bind (.within getFat_raises) fun r => ?_
    dsimp only
    split
    · exact .throw (by decide)
    · split
      · exact .bind (.within stretchChain_raises) fun _ => .change _
      · exact .change _
  have walks : ∀ n, Raises NotNone (walk ops fuel junk n : Program (OpenFile σ) Unit) := by
    intro n
    induction n with
    | zero => exact .pure _
    | succ n ih => exact .bind round fun _ => ih
  have enters : ∀ ssect, Raises NotNone (enter ops ssect : Program (OpenFile σ) Unit) := by
    refine fun ssect => .get_bind fun s => ?_
    split
    · refine .bind (.get_bind fun s => ?_) fun _ => .get_bind fun s => ?_
      · split
        · refine .bind (.within fun _ => trivial) fun ok => ?_
          split
          · exact .change _
          · exact .throw (by decide)
        · exact .pure _
      · refine .bind (.within fun _ => trivial) fun r => ?_
        split
        · exact .change _
        · exact .throw (by decide)
    · exact .pure _
  refine .get_bind fun s => ?_
  split
  · exact .throw (by decide)
  · dsimp only
    split
    · exact .throw (by decide)
    · refine .get_bind fun s => ?_
      dsimp only
      split
      · exact .bind (.change _) fun _ => .bind (walks _) fun _ =>
          .bind (.change _) fun _ => enters _
      · exact .bind (walks _) fun _ => .bind (.change _) fun _ => enters _

/-- Whatever transfers fail, a seek stays among the sectors of the file. Where it succeeds, the file
    is at the new offset; it is ready there if it was before, and has the same contents. -/
lemma fileSeek_spec {offset : Int} {seek : Seek} (h : Tidy ops busy s.fs files) (on : busy i)
    (e : files i = some l) (held : s.file.Held s.fs.fat l) :
    wp (fileSeek ops fuel junk offset seek)
      (fun _ t => ∃ l', Sought ops busy files i s l t l' ∧
        (t.file.offset : Int) = seek.base s.file + offset ∧
        (s.Ready ops l → t.Ready ops l' ∧
          ∀ n, s.fs.fat.dataSect ≤ n → t.content ops n = s.content ops n))
      (fun _ t => ∃ l', Sought ops busy files i s l t l') s := by
  unfold fileSeek
  rw [wp_bind, wp_get, if_neg (not_not.mpr held.attached)]
  dsimp only
  split
  · exact ⟨l, .refl h e held⟩
  · next range =>
    -- the cluster that the file is at, in its place if the file is ready
    have place : ∃ k, l[k]? = some s.file.clust ∧
        (s.Ready ops l → k = s.file.offset / s.fs.fat.clustSize) := by
      by_cases ready : s.Ready ops l
      · exact ⟨_, ready.clust, fun _ => rfl⟩
      · obtain ⟨k, at_⟩ := List.mem_iff_getElem?.mp held.mem
        exact ⟨k, at_, fun h => absurd h ready⟩
    obtain ⟨k, here, first⟩ := place
    refine wp_imp (goTo_spec h on e held here) ?_ fun _ _ h => h
    rintro _ t ⟨l', sought, offset, same⟩
    refine ⟨l', sought, ?_, fun ready => same (first ready) ready.buf ready.fits⟩
    rw [offset]
    omega

end OpenFile

end TRS.Fat
