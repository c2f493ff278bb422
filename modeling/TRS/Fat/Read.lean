import TRS.Fat.Seek

/-!
# Reading a file

The bytes of a file lie in its sectors one behind another, and `fat_file_read` gives those from the
offset on, up to the end of the file. It goes from sector to sector by `fat_file_seek`, so this
holds as long as no seek fails; the sectors of other files do not change in any case.

* `readRound_spec`: one round copies up to the end of the sector.
* `readLoop_spec`: the rounds copy what is left, by induction on their number.
* `fileRead_spec`: the bytes of the file from the offset on, up to its end.
-/

namespace TRS.Fat
open TRS.Lib TRS.Lib.Program

namespace OpenFile
open Fs
variable {σ ι : Type} (ops : Device σ Sect)

/-- The sectors of a file with the clusters `l`, one behind another. -/
def row (s : OpenFile σ) (l : List Nat) (k : Nat) : Sect := s.content ops (s.fs.fat.fileSect l k)

/-- The bytes of a file with the clusters `l`. -/
def bytes (s : OpenFile σ) (l : List Nat) : List Byte := bytesAt (s.row ops l) 0 s.file.size

variable [DecidableEq ι] {ops} {busy : ι → Prop} {files : ι → Option (List Nat)} {i : ι}
  {s t u : OpenFile σ} {l l' l'' : List Nat} {fuel : Nat} {junk : Byte}

lemma Step.trans (first : Step ops busy files i s l t l')
    (second : Step ops busy (Function.update files i (some l')) i t l' u l'') :
    Step ops busy files i s l u l'' := by
  have inChain := inChain_of_geometry first.geometry
  have outside := FatFs.outside_of_geometry first.geometry
  refine ⟨?_, second.held, first.grow.trans second.grow, second.geometry.trans first.geometry,
    fun n beyond out => ?_⟩
  · have tidy := second.tidy
    rw [Function.update_idem] at tidy
    exact tidy
  · rw [second.frame n (outside ▸ beyond) (inChain ▸ out)]
    exact first.frame n beyond fun mem => out (mem.prefix_ second.grow)

lemma Sought.trans (first : Sought ops busy files i s l t l')
    (second : Sought ops busy (Function.update files i (some l')) i t l' u l'') :
    Sought ops busy files i s l u l'' :=
  ⟨first.toStep.trans second.toStep, second.fixed.trans first.fixed⟩

omit [DecidableEq ι] in
/-- The bytes of a file do not depend on more than its sectors. -/
lemma byteAt_congr (geometry : t.fs.fat.geometry = s.fs.fat.geometry) (grow : l <+: l')
    (same : ∀ n, s.fs.fat.InChain l n → t.content ops n = s.content ops n) {q : Nat}
    (lt : q < s.room l) : byteAt (t.row ops l') q = byteAt (s.row ops l) q := by
  have lt' : q / 512 < s.fs.fat.sectCount l := Nat.div_lt_of_lt_mul lt
  have sect : t.fs.fat.fileSect l' (q / 512) = s.fs.fat.fileSect l (q / 512) := by
    have moved := congrArg (fun g : FatFs => g.fileSect l' (q / 512)) geometry
    exact Eq.trans moved (FatFs.fileSect_prefix grow lt')
  unfold byteAt row
  rw [sect, same _ (FatFs.fileSect_inChain lt')]

omit [DecidableEq ι] in
/-- The bytes of a file are those of its sectors, as far as it goes. -/
lemma bytes_congr (geometry : t.fs.fat.geometry = s.fs.fat.geometry) (grow : l <+: l')
    (same : ∀ n, s.fs.fat.InChain l n → t.content ops n = s.content ops n)
    (size : t.file.size = s.file.size) (fits : s.file.size ≤ s.room l) :
    t.bytes ops l' = s.bytes ops l := by
  unfold OpenFile.bytes
  rw [size]
  exact bytesAt_congr fun q _ lt => byteAt_congr geometry grow same (by omega)

omit [DecidableEq ι] in
/-- A ready file has the sector of its offset in its buffer. -/
lemma Ready.row_eq (ready : s.Ready ops l) : s.row ops l (s.file.offset / 512) = s.file.buf := by
  unfold row
  rw [← ready.sect]
  exact ready.buf

omit [DecidableEq ι] in
/-- The offset of a file that is ready lies in its clusters. -/
lemma Ready.offset_lt (h : Tidy ops busy s.fs files) (ready : s.Ready ops l) :
    s.file.offset < s.room l := by
  have := ready.lt h
  unfold room
  omega

/-! ## Reading -/

/-- The file has moved over the bytes `dst`, which are those of its clusters `l`. -/
structure Copied (ops : Device σ Sect) (s : OpenFile σ) (l : List Nat) (dst : List Byte)
    (t : OpenFile σ) (l' : List Nat) : Prop where
  ready : t.Ready ops l'
  content : ∀ n, s.fs.fat.dataSect ≤ n → t.content ops n = s.content ops n
  dst : dst = bytesAt (s.row ops l) s.file.offset dst.length

/-- A round copies what the buffer has of the bytes that are wanted. -/
lemma readRound_spec (h : Tidy ops busy s.fs files) (on : busy i) (e : files i = some l)
    (held : s.file.Held s.fs.fat l) (len : Nat) (dst : List Byte) :
    wp (readRound ops fuel junk (len, dst))
      (fun r t => ∃ l', Sought ops busy files i s l t l' ∧
        match r with
        | .done r => (r = (errNone, dst) ∧ t = s ∧ l' = l ∧
            (len = 0 ∨ s.file.size ≤ s.file.offset)) ∨ r.1 ≠ errNone
        | .again b => ∃ new, b = (len - new.length, dst ++ new) ∧ 0 < new.length ∧
            new.length ≤ len ∧ t.file.offset = s.file.offset + new.length ∧
            t.file.offset ≤ s.file.size ∧ (s.Ready ops l → Copied ops s l new t l'))
      (fun e t => e = .rounds ∧ ∃ l', Sought ops busy files i s l t l') s := by
  unfold readRound
  rw [wp_bind, wp_get]
  split
  · next end_ => exact ⟨l, .refl h e held, .inl ⟨rfl, rfl, rfl, end_⟩⟩
  · next more =>
    dsimp only
    rw [wp_bind, wp_attempt]
    obtain ⟨cnt, eq⟩ : ∃ cnt,
        cnt = min len (min (512 - s.file.offset % 512) (s.file.size - s.file.offset)) := ⟨_, rfl⟩
    rw [← eq]
    refine wp_imp (fileSeek_raises.and (fileSeek_spec h on e held)) ?_ ?_
    · rintro _ t ⟨l', sought, offset, same⟩
      have size : (s.file.buf.slice (s.file.offset % 512) cnt).length = cnt := Block.length_slice ..
      change (t.file.offset : Int) = (s.file.offset : Int) + _ at offset
      refine ⟨l', sought, s.file.buf.slice (s.file.offset % 512) cnt, ?_, ?_, ?_, ?_, ?_,
        fun ready => ?_⟩
      · rw [size]
      · omega
      · omega
      · omega
      · omega
      · obtain ⟨ready', content⟩ := same ready
        refine ⟨ready', content, ?_⟩
        rw [size, bytesAt_block (by omega), ready.row_eq]
    · rintro stop t ⟨ne, l', sought⟩
      cases stop with
      | rounds => exact ⟨rfl, l', sought⟩
      | code err => exact ⟨l', sought, .inr fun eq => ne (congrArg Stop.code eq)⟩

/-- Reads of two parts in a row. -/
lemma Copied.append {d d' : List Byte} (first : Copied ops s l d t l')
    (second : Copied ops t l' d' u l'') (step : Step ops busy files i s l t l')
    (offset : t.file.offset = s.file.offset + d.length) (lay : s.fs.fat.Layout)
    (num : s.fs.fat.Numbered l)
    (fits : s.file.offset + d.length + d'.length ≤ s.room l) :
    Copied ops s l (d ++ d') u l'' := by
  have data := congrArg FatFs.dataSect step.geometry
  change t.fs.fat.dataSect = s.fs.fat.dataSect at data
  refine ⟨second.ready, fun n le => (second.content n (data ▸ le)).trans (first.content n le), ?_⟩
  rw [List.length_append, bytesAt_add, ← first.dst, second.dst, offset, length_bytesAt]
  congr 1
  exact bytesAt_congr fun q _ lt => byteAt_congr step.geometry step.grow
    (fun n mem => first.content n (lay.inChain_data num mem).1) (by omega)

lemma Copied.nil (ready : s.Ready ops l) : Copied ops s l [] s l :=
  ⟨ready, fun _ _ => rfl, rfl⟩

/-- The loop of a read gives the bytes from the offset on, up to the end of the file. -/
lemma readLoop_spec (h : Tidy ops busy s.fs files) (on : busy i) (e : files i = some l)
    (held : s.file.Held s.fs.fat l) (len : Nat) :
    wp (iterate (readRound ops fuel junk) (len + 1) (len, []))
      (fun r t => ∃ l', Sought ops busy files i s l t l' ∧
        (r.1 = errNone → t.file.offset = s.file.offset + r.2.length ∧ (s.Ready ops l →
          Copied ops s l r.2 t l' ∧ r.2 = ((s.bytes ops l).drop s.file.offset).take len)))
      (fun e t => e = .rounds ∧ ∃ l', Sought ops busy files i s l t l') s := by
  have lay := h.sound.layout
  have num := h.sound.numbered e
  have size : ∀ {t l'}, Sought ops busy files i s l t l' → t.file.size = s.file.size := by
    intro t l' sought
    have same := congrArg File.size sought.fixed
    exact same
  -- the bytes that are copied so far lie in the file
  refine wp_iterate (fun n b u => b.1 < n ∧ b.2.length + b.1 = len ∧
    u.file.offset = s.file.offset + b.2.length ∧ (b.2 ≠ [] → u.file.offset ≤ s.file.size) ∧
    ∃ l', Sought ops busy files i s l u l' ∧ (s.Ready ops l → Copied ops s l b.2 u l'))
    ?_ ?_ ⟨Nat.lt_succ_self _, Nat.zero_add _, rfl, fun ne => absurd rfl ne, l,
      .refl h e held, .nil⟩
  · rintro b u ⟨lt, _⟩
    exact absurd lt (Nat.not_lt_zero _)
  · rintro n ⟨rest, dst⟩ u ⟨lt, count, offset, inside, lu, sought, copied⟩
    dsimp only at lt count offset inside copied
    refine wp_imp (readRound_spec sought.tidy on (Function.update_self ..) sought.held rest dst)
      ?_ ?_
    · rintro r t ⟨l', here, outcome⟩
      have all := sought.trans here
      cases r with
      | done r =>
        refine ⟨l', all, fun none_ => ?_⟩
        rcases outcome with ⟨rfl, rfl, rfl, end_⟩ | ne
        · refine ⟨offset, fun ready => ⟨copied ready, ?_⟩⟩
          have whole : dst.length = min len (s.file.size - s.file.offset) := by
            rw [size sought] at end_
            by_cases empty : dst = []
            · subst empty
              rw [List.length_nil] at *
              omega
            · have := inside empty
              omega
          unfold OpenFile.bytes
          rw [take_drop_bytesAt, ← whole]
          exact (copied ready).dst
        · exact absurd none_ ne
      | again b =>
        obtain ⟨new, rfl, pos, le, next, fit, copied'⟩ := outcome
        rw [size sought] at fit
        refine ⟨by dsimp only; omega, ?_, ?_, fun _ => fit, l', all, fun ready => ?_⟩
        · rw [List.length_append]
          omega
        · rw [next, offset, List.length_append, Nat.add_assoc]
        · have first := copied ready
          have := ready.fits
          exact first.append (copied' first.ready) sought.toStep offset lay num (by omega)
    · rintro stop t ⟨rounds, l', here⟩
      exact ⟨rounds, l', sought.trans here⟩

omit [DecidableEq ι] in
/-- Flags that keep `dirty` keep the content. -/
lemma content_setFlags {f : FileFlags → FileFlags}
    (keep : (f s.file.flags).dirty = s.file.flags.dirty) :
    (setFlags f s).content ops = s.content ops := by
  have same : (setFlags f s).file.flags.dirty = s.file.flags.dirty := keep
  funext n
  unfold OpenFile.content
  rw [same]
  rfl

omit [DecidableEq ι] in
/-- The file stays ready. -/
lemma Ready.setFlags {f : FileFlags → FileFlags} (ready : s.Ready ops l)
    (keep : (f s.file.flags).dirty = s.file.flags.dirty) : (setFlags f s).Ready ops l :=
  ⟨ready.clust, ready.sect, (congrFun (content_setFlags keep) _).trans ready.buf, ready.fits⟩

/-- A step from there is one from the file before. -/
lemma Step.of_flags {f : FileFlags → FileFlags}
    (step : Step ops busy files i (OpenFile.setFlags f s) l t l') :
    Step ops busy files i s l t l' :=
  ⟨step.tidy, step.held, step.grow, step.geometry, step.frame⟩

/-- A read gives the bytes from the offset on, up to the end of the file. -/
lemma fileRead_spec (h : Tidy ops busy s.fs files) (on : busy i) (e : files i = some l)
    (held : s.file.Held s.fs.fat l) (allowed : s.file.flags.read = true) (len : Nat) :
    let noted := (setFlags (fun flags => { flags with accessed := true }) s).file.fixed
    wp (fileRead ops fuel junk len)
      (fun r t => ∃ l', Step ops busy files i s l t l' ∧ t.file.fixed = noted ∧
        (r.1 = errNone → t.file.offset = s.file.offset + r.2.length ∧ (s.Ready ops l →
          t.Ready ops l' ∧ r.2 = ((s.bytes ops l).drop s.file.offset).take len ∧
            ∀ n, s.fs.fat.dataSect ≤ n → t.content ops n = s.content ops n)))
      (fun e t => e = .rounds ∧ ∃ l', Step ops busy files i s l t l' ∧ t.file.fixed = noted)
      s := by
  intro noted
  unfold fileRead
  rw [wp_bind, wp_get, if_neg (not_not.mpr held.attached), if_neg (not_not.mpr allowed), wp_bind,
    wp_modify]
  have held' : (setFlags (fun flags => { flags with accessed := true }) s).file.Held s.fs.fat l :=
    ⟨held.attached, held.head, held.mem, held.sect⟩
  have row : (setFlags (fun flags => { flags with accessed := true }) s).bytes ops l =
      s.bytes ops l := by
    have same : ∀ k, (setFlags (fun flags => { flags with accessed := true }) s).row ops l k =
        s.row ops l k := fun k => congrFun (content_setFlags rfl) _
    exact congrArg (bytesAt · 0 s.file.size) (funext same)
  refine wp_imp (readLoop_spec
    (s := setFlags (fun flags => { flags with accessed := true }) s) h on e held' len) ?_ ?_
  · rintro r t ⟨l', sought, done⟩
    refine ⟨l', sought.toStep.of_flags, sought.fixed, fun none_ => ?_⟩
    obtain ⟨offset, copied⟩ := done none_
    refine ⟨offset, fun ready => ?_⟩
    obtain ⟨copied, dst⟩ := copied (ready.setFlags rfl)
    refine ⟨copied.ready, by rw [dst, row]; rfl, fun n le => ?_⟩
    exact (copied.content n le).trans (congrFun (content_setFlags rfl) n)
  · rintro stop t ⟨rounds, l', sought⟩
    exact ⟨rounds, l', sought.toStep.of_flags, sought.fixed⟩

end OpenFile

end TRS.Fat
