import TRS.Fat.Read

/-!
# Writing a file

`fat_file_write` stores its data in the bytes of the file from the offset on, and lengthens the file
where they reach behind its end. As for a read, this holds as long as no seek fails.

* `Edited`: a file with new bytes in its buffer, and what that is to its contents.
* `writeRound_spec`: one round stores up to the end of the sector.
* `writeLoop_spec`, `writeData_spec`: the rounds store the data, by induction on their number.
-/

namespace TRS.Fat
open TRS.Lib TRS.Lib.Program

namespace OpenFile
open Fs
variable {σ ι : Type} {ops : Device σ Sect} [DecidableEq ι] {busy : ι → Prop}
  {files : ι → Option (List Nat)} {i : ι} {s t u : OpenFile σ} {l l' l'' : List Nat}
  {fuel : Nat} {junk : Byte} {data : List Byte} {b : Sect} {f : File}

/-- The bytes `data` have been stored from the offset on, in the clusters `l` or in those that the
    file has got since. -/
structure Stored (ops : Device σ Sect) (s : OpenFile σ) (l : List Nat) (data : List Byte)
    (t : OpenFile σ) (l' : List Nat) : Prop where
  ready : t.Ready ops l'
  new : ∀ j < data.length, byteAt (t.row ops l') (s.file.offset + j) = data.getD j 0#8
  old : ∀ q < s.room l, q < s.file.offset ∨ s.file.offset + data.length ≤ q →
    byteAt (t.row ops l') q = byteAt (s.row ops l) q

omit [DecidableEq ι] in
/-- Writes of two parts in a row. -/
lemma Stored.append {d d' : List Byte} (first : Stored ops s l d t l')
    (second : Stored ops t l' d' u l'') (tidy : Tidy ops busy t.fs files)
    (more : s.room l ≤ t.room l') (offset : t.file.offset = s.file.offset + d.length) :
    Stored ops s l (d ++ d') u l'' := by
  have here := first.ready.offset_lt tidy
  have old := second.old
  have new := second.new
  rw [offset] at here old new
  refine ⟨second.ready, fun j lt => ?_, fun q lt out => ?_⟩
  · by_cases front : j < d.length
    · rw [old _ (by omega) (.inl (by omega)), first.new j front, List.getD_append _ _ _ _ front]
    · rw [List.length_append] at lt
      have eq := new (j - d.length) (by omega)
      rw [Nat.add_assoc, Nat.add_sub_cancel' (Nat.le_of_not_lt front)] at eq
      rw [eq, List.getD_append_right _ _ _ _ (Nat.le_of_not_lt front)]
  · rw [List.length_append] at out
    rw [old q (by omega) (by omega), first.old q lt (by omega)]

/-! ## The buffer -/

/-- The file `f` is that of `s` with `b` in its buffer, which is not written back. -/
structure Edited (s : OpenFile σ) (b : Sect) (f : File) : Prop where
  fixed : f.fixed = s.file.fixed
  clust : f.clust = s.file.clust
  sect : f.sect = s.file.sect
  offset : f.offset = s.file.offset
  dirty : f.flags.dirty = true
  buf : f.buf = b

section Edited
omit [DecidableEq ι]

/-- To store to the buffer keeps the size. -/
lemma Edited.size (edited : Edited s b f) : f.size = s.file.size := by
  have size := congrArg File.size edited.fixed
  exact size

/-- It keeps the clusters. -/
lemma Edited.held (edited : Edited s b f) (held : s.file.Held s.fs.fat l) : f.Held s.fs.fat l := by
  refine held.moved edited.fixed (List.prefix_refl _) ?_ ?_
  · rw [edited.clust]
    exact held.mem
  · rw [edited.sect]
    exact held.sect

/-- The buffer is part of the contents at once. -/
lemma Edited.content (edited : Edited s b f) :
    (⟨s.fs, f⟩ : OpenFile σ).content ops = Function.update (s.content ops) s.file.sect b := by
  funext n
  unfold OpenFile.content
  dsimp only
  rw [edited.dirty, edited.sect, edited.buf]
  by_cases here : n = s.file.sect
  · rw [if_pos ⟨rfl, here⟩, here, Function.update_self]
  · rw [if_neg fun h => here h.2, Function.update_of_ne here]
    exact (if_neg fun h => here h.2).symm

/-- It keeps the file ready. -/
lemma Edited.ready (edited : Edited s b f) (ready : s.Ready ops l) :
    (⟨s.fs, f⟩ : OpenFile σ).Ready ops l := by
  refine ⟨?_, ?_, ?_, ?_⟩
  · dsimp only
    rw [edited.offset, edited.clust]
    exact ready.clust
  · dsimp only
    rw [edited.offset, edited.sect]
    exact ready.sect
  · rw [edited.content]
    dsimp only
    rw [edited.sect, edited.buf, Function.update_self]
  · dsimp only
    rw [edited.size]
    exact ready.fits

/-- A change of the buffer changes one sector of the file. -/
lemma Edited.row (edited : Edited s b f) (h : Tidy ops busy s.fs files) (e : files i = some l)
    (ready : s.Ready ops l) {k : Nat} (lt : k < s.fs.fat.sectCount l) :
    (⟨s.fs, f⟩ : OpenFile σ).row ops l k =
      Function.update (s.row ops l) (s.file.offset / 512) b k := by
  refine Eq.trans (congrFun edited.content (s.fs.fat.fileSect l k)) ?_
  by_cases same : k = s.file.offset / 512
  · rw [same, Function.update_self, ← ready.sect, Function.update_self]
  · have ne : s.fs.fat.fileSect l k ≠ s.file.sect := by
      rw [ready.sect]
      exact fun eq => same (h.sound.layout.fileSect_inj (h.sound.numbered e)
        (h.sound.apart.chain i l e).nodup lt (ready.lt h) eq)
    rw [Function.update_of_ne ne, Function.update_of_ne same]
    rfl

/-- Data in the buffer are bytes at the offset. -/
lemma Edited.stored (edited : Edited s b f) (h : Tidy ops busy s.fs files) (e : files i = some l)
    (ready : s.Ready ops l) (buf : b = s.file.buf.splice (s.file.offset % 512) data)
    (inside : s.file.offset % 512 + data.length ≤ 512) :
    Stored ops s l data ⟨s.fs, f⟩ l := by
  have here := ready.lt h
  have row : ∀ q < s.room l, byteAt ((⟨s.fs, f⟩ : OpenFile σ).row ops l) q =
      if s.file.offset ≤ q ∧ q < s.file.offset + data.length then data.getD (q - s.file.offset) 0#8
      else byteAt (s.row ops l) q := by
    intro q lt
    rw [← byteAt_splice inside (by decide) q]
    unfold byteAt
    rw [edited.row h e ready (Nat.div_lt_of_lt_mul lt), ready.row_eq, buf]
  refine ⟨edited.ready ready, fun j lt => ?_, fun q lt out => ?_⟩
  · have in_room : s.file.offset + j < s.room l := by
      have := Nat.div_add_mod s.file.offset 512
      unfold room
      omega
    rw [row _ in_room, if_pos ⟨Nat.le_add_right .., by omega⟩, Nat.add_sub_cancel_left]
  · rw [row q lt, if_neg (by omega)]

end Edited

/-- Storing data in the buffer of a file, and seeking. -/
lemma Stored.sought {l' : List Nat} (first : Stored ops s l data u l)
    (h : Tidy ops busy u.fs files) (e : files i = some l) (room : s.room l ≤ u.room l)
    (sought : Sought ops busy files i u l t l') (ready : t.Ready ops l')
    (content : ∀ n, u.fs.fat.dataSect ≤ n → t.content ops n = u.content ops n)
    (inside : s.file.offset + data.length ≤ u.room l) : Stored ops s l data t l' := by
  have lay := h.sound.layout
  have same : ∀ q < u.room l, byteAt (t.row ops l') q = byteAt (u.row ops l) q := fun q lt =>
    byteAt_congr sought.geometry sought.grow
      (fun n mem => content n (lay.inChain_data (h.sound.numbered e) mem).1) lt
  refine ⟨ready, fun j lt => ?_, fun q lt out => ?_⟩
  · rw [same _ (by omega)]
    exact first.new j lt
  · rw [same _ (by omega)]
    exact first.old q lt out

/-! ## Rounds -/

/-- A round stores what fits into the sector. -/
lemma writeRound_spec (h : Tidy ops busy s.fs files) (on : busy i) (e : files i = some l)
    (held : s.file.Held s.fs.fat l) (src : List Byte) (bytes : Nat) :
    wp (writeRound ops fuel junk (src, bytes))
      (fun r t => ∃ l', Sought ops busy files i s l t l' ∧
        match r with
        | .done r => (r = (errNone, bytes) ∧ t = s ∧ l' = l ∧ src = []) ∨ r.1 ≠ errNone
        | .again b => ∃ new, src = new ++ b.1 ∧ b.2 = bytes + new.length ∧ 0 < new.length ∧
            t.file.offset = s.file.offset + new.length ∧
            (s.Ready ops l → Stored ops s l new t l'))
      (fun e t => e = .rounds ∧ ∃ l', Sought ops busy files i s l t l') s := by
  by_cases end_ : src = []
  · have ran : writeRound ops fuel junk (src, bytes) = pure (.done (errNone, bytes)) :=
      if_pos end_
    rw [ran]
    exact ⟨l, .refl h e held, .inl ⟨rfl, rfl, rfl, end_⟩⟩
  · have pos : 0 < src.length := List.length_pos_of_ne_nil end_
    obtain ⟨cnt, eq⟩ : ∃ cnt, cnt = min src.length (512 - s.file.offset % 512) := ⟨_, rfl⟩
    have len : (src.take cnt).length = cnt := by
      rw [List.length_take]
      omega
    change wp (if src = [] then _ else _) _ _ s
    rw [if_neg end_, wp_bind, wp_get]
    dsimp only
    rw [← eq, wp_bind, wp_modify]
    -- the file with the data in its buffer
    obtain ⟨f, put, edited⟩ : ∃ f, setFile (fun file => { file with
        buf := file.buf.splice (s.file.offset % 512) (src.take cnt)
        flags := { file.flags with dirty := true } }) s = ⟨s.fs, f⟩ ∧
        s.Edited (s.file.buf.splice (s.file.offset % 512) (src.take cnt)) f :=
      ⟨_, rfl, rfl, rfl, rfl, rfl, rfl, rfl⟩
    rw [put, wp_bind, wp_attempt]
    have from_ : ∀ {t l'}, Sought ops busy files i ⟨s.fs, f⟩ l t l' →
        Sought ops busy files i s l t l' := fun sought =>
      ⟨⟨sought.tidy, sought.held, sought.grow, sought.geometry, sought.frame⟩,
        sought.fixed.trans edited.fixed⟩
    refine wp_imp (fileSeek_raises.and (fileSeek_spec (s := ⟨s.fs, f⟩) h on e
      (edited.held held))) ?_ ?_
    · rintro _ t ⟨l', sought, offset, same⟩
      change (t.file.offset : Int) = (f.offset : Int) + _ at offset
      rw [edited.offset] at offset
      refine ⟨l', from_ sought, src.take cnt, (List.take_append_drop ..).symm, ?_, ?_, ?_,
        fun ready => ?_⟩
      · rw [len]
      · omega
      · omega
      · obtain ⟨ready', content⟩ := same (edited.ready ready)
        have first := edited.stored h e ready rfl (by omega)
        have here := ready.lt h
        refine first.sought h e (Nat.le_refl _) sought ready' content ?_
        change s.file.offset + (src.take cnt).length ≤ 512 * s.fs.fat.sectCount l
        omega
    · rintro stop t ⟨ne, l', sought⟩
      cases stop with
      | rounds => exact ⟨rfl, l', from_ sought⟩
      | code err => exact ⟨l', from_ sought, .inr fun eq => ne (congrArg Stop.code eq)⟩

/-- The loop of a write stores all of the data, unless it returns an error. -/
lemma writeLoop_spec (h : Tidy ops busy s.fs files) (on : busy i) (e : files i = some l)
    (held : s.file.Held s.fs.fat l) (data : List Byte) :
    wp (iterate (writeRound ops fuel junk) (data.length + 1) (data, 0))
      (fun r t => ∃ l', Sought ops busy files i s l t l' ∧
        (r.1 = errNone → r.2 = data.length ∧ t.file.offset = s.file.offset + data.length ∧
          (s.Ready ops l → Stored ops s l data t l')))
      (fun e t => e = .rounds ∧ ∃ l', Sought ops busy files i s l t l') s := by
  refine wp_iterate (fun n b u => b.1.length < n ∧ ∃ stored, data = stored ++ b.1 ∧
    b.2 = stored.length ∧ u.file.offset = s.file.offset + stored.length ∧
    ∃ l', Sought ops busy files i s l u l' ∧ (s.Ready ops l → Stored ops s l stored u l'))
    ?_ ?_ ⟨Nat.lt_succ_self _, [], rfl, rfl, rfl, l, .refl h e held, fun ready =>
      ⟨ready, fun _ lt => absurd lt (Nat.not_lt_zero _), fun _ _ _ => rfl⟩⟩
  · rintro b u ⟨lt, _⟩
    exact absurd lt (Nat.not_lt_zero _)
  · rintro n ⟨rest, bytes⟩ u ⟨lt, stored, rfl, count, offset, lu, sought, done⟩
    dsimp only at lt count
    refine wp_imp (writeRound_spec sought.tidy on (Function.update_self ..) sought.held rest bytes)
      ?_ ?_
    · rintro r t ⟨l', here, outcome⟩
      have all := sought.trans here
      cases r with
      | done r =>
        refine ⟨l', all, fun none_ => ?_⟩
        rcases outcome with ⟨rfl, rfl, rfl, rfl⟩ | ne
        · rw [List.append_nil]
          exact ⟨count, offset, done⟩
        · exact absurd none_ ne
      | again b =>
        obtain ⟨new, rfl, count', pos, next, done'⟩ := outcome
        rw [List.length_append] at lt
        refine ⟨by omega, stored ++ new, (List.append_assoc ..).symm, ?_, ?_, l', all,
          fun ready => ?_⟩
        · rw [count', count, List.length_append]
        · rw [next, offset, List.length_append, Nat.add_assoc]
        · have first := done ready
          exact first.append (done' first.ready) sought.tidy sought.room_le offset
    · rintro stop t ⟨rounds, l', here⟩
      exact ⟨rounds, l', sought.trans here⟩

/-- What a write of `data` leaves. -/
structure Wrote (ops : Device σ Sect) (s : OpenFile σ) (l : List Nat) (data : List Byte)
    (t : OpenFile σ) (l' : List Nat) : Prop where
  ready : t.Ready ops l'
  offset : t.file.offset = s.file.offset + data.length
  bytes : Overwrites (s.bytes ops l) s.file.offset data (t.bytes ops l')

omit [DecidableEq ι] in
/-- The size of a file that has been written. -/
lemma Stored.wrote (stored : Stored ops s l data t l') (tidy : Tidy ops busy t.fs files)
    (ready : s.Ready ops l) (size : t.file.size = s.file.size)
    (offset : t.file.offset = s.file.offset + data.length) {f : File}
    (clust : f.clust = t.file.clust) (sect : f.sect = t.file.sect)
    (place : f.offset = t.file.offset) (buf : f.buf = t.file.buf)
    (dirty : f.flags.dirty = t.file.flags.dirty) (long : f.size = max t.file.size t.file.offset) :
    Wrote ops s l data ⟨t.fs, f⟩ l' := by
  have content : (⟨t.fs, f⟩ : OpenFile σ).content ops = t.content ops := by
    funext n
    unfold OpenFile.content
    dsimp only
    rw [dirty, sect, buf]
  have row : (⟨t.fs, f⟩ : OpenFile σ).row ops l' = t.row ops l' := by
    funext k
    exact congrFun content _
  have here := stored.ready
  refine ⟨⟨?_, ?_, ?_, ?_⟩, place.trans offset, ?_⟩
  · dsimp only
    rw [place, clust]
    exact here.clust
  · dsimp only
    rw [sect, place]
    exact here.sect
  · rw [content]
    dsimp only
    rw [sect, buf]
    exact here.buf
  · have inside := here.offset_lt tidy
    have fits := here.fits
    dsimp only
    rw [long]
    change max t.file.size t.file.offset ≤ t.room l'
    omega
  · unfold OpenFile.bytes
    dsimp only
    rw [row, long, offset, size]
    have fits := ready.fits
    exact overwrites_bytesAt stored.new fun q lt out => stored.old q (by omega) out

/-- A write whose loop has not failed replaces the bytes from the offset on. -/
lemma writeData_spec (h : Tidy ops busy s.fs files) (on : busy i) (e : files i = some l)
    (held : s.file.Held s.fs.fat l) (data : List Byte) :
    wp (writeData ops fuel junk data)
      (fun r t => ∃ l', Step ops busy files i s l t l' ∧
        (r.1 = errNone → r.2 = data.length ∧ (s.Ready ops l → Wrote ops s l data t l')))
      (fun e t => e = .rounds ∧ ∃ l', Step ops busy files i s l t l') s := by
  unfold writeData
  rw [wp_bind, wp_modify]
  obtain ⟨noted, eq⟩ : ∃ noted : FileFlags → FileFlags, noted = fun flags =>
    { flags with modified := true, accessed := true } := ⟨_, rfl⟩
  have dirty : (noted s.file.flags).dirty = s.file.flags.dirty := by rw [eq]
  rw [← eq]
  have held' : (setFlags noted s).file.Held s.fs.fat l :=
    ⟨held.attached, held.head, held.mem, held.sect⟩
  refine wp_seq (writeLoop_spec (s := setFlags noted s) h on e held' data) ?_ ?_
  · rintro r t ⟨l', sought, done⟩
    have size := congrArg File.size sought.fixed
    rw [wp_bind, wp_modify]
    have step := sought.toStep.of_flags
    obtain ⟨f, grown, clust, sect, place, buf, dirty', long, held_t⟩ :
        ∃ f, setFile (fun file => { file with size := max file.size file.offset }) t = ⟨t.fs, f⟩ ∧
          f.clust = t.file.clust ∧ f.sect = t.file.sect ∧ f.offset = t.file.offset ∧
          f.buf = t.file.buf ∧ f.flags.dirty = t.file.flags.dirty ∧
          f.size = max t.file.size t.file.offset ∧ f.Held t.fs.fat l' :=
      ⟨_, rfl, rfl, rfl, rfl, rfl, rfl, rfl,
        ⟨step.held.attached, step.held.head, step.held.mem, step.held.sect⟩⟩
    rw [grown]
    refine ⟨l', ⟨step.tidy, held_t, step.grow, step.geometry, step.frame⟩,
      fun none_ => ?_⟩
    obtain ⟨count, offset, stored⟩ := done none_
    refine ⟨count, fun ready => ?_⟩
    have wrote := (stored (ready.setFlags dirty)).wrote sought.tidy (ready.setFlags dirty) size
      offset clust sect place buf dirty' long
    refine ⟨wrote.ready, wrote.offset, ?_⟩
    have bytes := wrote.bytes
    have same : (setFlags noted s).bytes ops l = s.bytes ops l :=
      bytes_congr rfl (List.prefix_refl _) (fun n _ => congrFun (content_setFlags dirty) n) rfl
        ready.fits
    rw [same] at bytes
    exact bytes
  · rintro stop t ⟨rounds, l', sought⟩
    exact ⟨rounds, l', sought.toStep.of_flags⟩

end OpenFile

end TRS.Fat
