import TRS.Fat.Write

/-!
# Open files

Several files of a volume are open at once, and are read, written and moved in, in any order, while
transfers fail. A file whose calls have all succeeded has answered them as a list of bytes with a
position does (`Doc.Run`), whatever has happened to the other files.

* `fileCall_spec`: a call on a file answers as its document does, or fails and keeps its clusters.
* `call_spec`: so does a call on the desk, and the other files stay as they are.
* `Served`: what calls in a row keep, by `Served.trans`.

The headline `open_files_are_docs` is by induction on the calls: a file that has failed is followed
no further, while its neighbours are.
-/

namespace TRS.Fat
open TRS.Lib TRS.Lib.Program

/-- A call on an open file. -/
inductive FileCall where
  | seek (offset : Int) (seek : Seek)
  | read (len : Nat)
  | write (data : List Byte)

/-- What a file is to its user. -/
structure Doc where
  bytes : List Byte
  pos : Nat

namespace Doc

/-- The position that a seek goes to. -/
def target (d : Doc) (offset : Int) : Seek → Int
  | .start => offset
  | .curr => d.pos + offset
  | .end_ => d.bytes.length + offset

/-- What a call does, with the bytes that it reads. A write behind the end leaves a gap with any
    bytes. -/
inductive Step : Doc → FileCall → List Byte → Doc → Prop
  | seek (d : Doc) (offset : Int) (seek : Seek) :
    Step d (.seek offset seek) [] ⟨d.bytes, (d.target offset seek).toNat⟩
  | read (d : Doc) (len : Nat) (dst : List Byte) (eq : dst = (d.bytes.drop d.pos).take len) :
    Step d (.read len) dst ⟨d.bytes, d.pos + dst.length⟩
  | write (d : Doc) (data bytes : List Byte) (new : Overwrites d.bytes d.pos data bytes) :
    Step d (.write data) [] ⟨bytes, d.pos + data.length⟩

/-- Calls in a row. -/
inductive Run : Doc → List FileCall → List (List Byte) → Doc → Prop
  | nil (d : Doc) : Run d [] [] d
  | cons {d d' d'' : Doc} {c : FileCall} {cs : List FileCall} {dst : List Byte}
    {dsts : List (List Byte)} (first : Step d c dst d') (rest : Run d' cs dsts d'') :
    Run d (c :: cs) (dst :: dsts) d''

end Doc

/-! ## One file -/

namespace OpenFile
open Fs
variable {σ ι : Type} (ops : Device σ Sect)

/-- A call, with its return value and the bytes that it reads. The one of a write is the `err` of
    its loop, which `fat_file_write` does not return. -/
def fileCall (fuel : Nat) (junk : Byte) : FileCall → Program (OpenFile σ) (Int × List Byte)
  | .seek offset seek => do
    match ← attempt (fileSeek ops fuel junk offset seek) with
    | .error err => return (err, [])
    | .ok _ => return (errNone, [])
  | .read len => fileRead ops fuel junk len
  | .write data => do
    let s ← get
    if ¬ s.file.fat then return (errParam, [])
    else if ¬ s.file.flags.write then return (errDenied, [])
    else
      let (err, _) ← writeData ops fuel junk data
      return (err, [])

/-- But for what it returns, this is `fat_file_write`. -/
lemma after_fileWrite (fuel : Nat) (junk : Byte) (data : List Byte) (s : OpenFile σ) :
    after (fileWrite ops fuel junk data) s = after (fileCall ops fuel junk (.write data)) s := by
  change after (if ¬ s.file.fat = true then _ else _ : Program (OpenFile σ) _) s =
    after (if ¬ s.file.fat = true then _ else _ : Program (OpenFile σ) _) s
  by_cases attached : s.file.fat = true
  · rw [if_neg (not_not.mpr attached), if_neg (not_not.mpr attached)]
    by_cases allowed : s.file.flags.write = true
    · rw [if_neg (not_not.mpr allowed), if_neg (not_not.mpr allowed)]
      exact (after_bind fun _ _ => rfl).trans (after_bind fun _ _ => rfl).symm
    · rw [if_pos allowed, if_pos allowed]
      rfl
  · rw [if_pos attached, if_pos attached]
    rfl

/-- The file with the clusters `l`, to its user. -/
def doc (s : OpenFile σ) (l : List Nat) : Doc := ⟨s.bytes ops l, s.file.offset⟩

variable [DecidableEq ι] {ops} {busy : ι → Prop} {files : ι → Option (List Nat)} {i : ι}
  {s t : OpenFile σ} {l l' : List Nat}

omit [DecidableEq ι] in
/-- To the user a seek goes where it goes in the file. -/
lemma doc_target (offset : Int) (seek : Seek) :
    (s.doc ops l).target offset seek = seek.base s.file + offset := by
  cases seek with
  | start => exact (Int.zero_add _).symm
  | curr => rfl
  | end_ =>
    unfold Doc.target doc OpenFile.bytes
    dsimp only
    rw [length_bytesAt]
    rfl

/-- A call that succeeds is one of the `Doc`. -/
lemma fileCall_spec (fuel : Nat) (junk : Byte) (h : Tidy ops busy s.fs files) (on : busy i)
    (e : files i = some l) (held : s.file.Held s.fs.fat l) (c : FileCall) :
    wp (fileCall ops fuel junk c)
      (fun r t => ∃ l', Step ops busy files i s l t l' ∧ (r.1 = errNone → s.Ready ops l →
        t.Ready ops l' ∧ (s.doc ops l).Step c r.2 (t.doc ops l')))
      (fun _ t => ∃ l', Step ops busy files i s l t l') s := by
  have lay := h.sound.layout
  have inside : ∀ {n}, s.fs.fat.InChain l n → s.fs.fat.dataSect ≤ n := fun mem =>
    (lay.inChain_data (h.sound.numbered e) mem).1
  have stay : Step ops busy files i s l s l := (Sought.refl h e held).toStep
  cases c with
  | seek offset seek =>
    unfold fileCall
    rw [wp_bind, wp_attempt]
    refine wp_imp (fileSeek_raises.and (fileSeek_spec h on e held)) ?_ ?_
    · rintro _ t ⟨l', sought, offset', same⟩
      refine ⟨l', sought.toStep, fun _ ready => ?_⟩
      obtain ⟨ready', content⟩ := same ready
      refine ⟨ready', ?_⟩
      have size := congrArg File.size sought.fixed
      have bytes := bytes_congr sought.geometry sought.grow (fun n mem => content n (inside mem))
        size ready.fits
      have pos : t.file.offset = ((s.doc ops l).target offset seek).toNat := by
        rw [doc_target, ← offset']
        rfl
      unfold doc at pos ⊢
      rw [bytes, pos]
      exact .seek _ offset seek
    · rintro stop t ⟨ne, l', sought⟩
      cases stop with
      | rounds => exact ⟨l', sought.toStep⟩
      | code err =>
        exact ⟨l', sought.toStep, fun none_ => absurd (congrArg Stop.code none_) ne⟩
  | read len =>
    unfold fileCall
    by_cases allowed : s.file.flags.read = true
    · refine wp_imp (fileRead_spec h on e held allowed len) ?_ ?_
      · rintro r t ⟨l', step, fixed, done⟩
        refine ⟨l', step, fun none_ ready => ?_⟩
        obtain ⟨offset, copied⟩ := done none_
        obtain ⟨ready', dst, content⟩ := copied ready
        refine ⟨ready', ?_⟩
        have size := congrArg File.size fixed
        have bytes := bytes_congr step.geometry step.grow (fun n mem => content n (inside mem))
          size ready.fits
        unfold doc
        rw [bytes, offset]
        exact .read _ len r.2 dst
      · rintro _ t ⟨_, l', step, _⟩
        exact ⟨l', step⟩
    · unfold fileRead
      rw [wp_bind, wp_get, if_neg (not_not.mpr held.attached), if_pos allowed]
      exact ⟨l, stay, nofun⟩
  | write data =>
    unfold fileCall
    rw [wp_bind, wp_get, if_neg (not_not.mpr held.attached)]
    by_cases allowed : s.file.flags.write = true
    · rw [if_neg (not_not.mpr allowed), wp_bind]
      refine wp_imp (writeData_spec h on e held data) ?_ ?_
      · rintro r t ⟨l', step, done⟩
        refine ⟨l', step, fun none_ ready => ?_⟩
        have wrote := (done none_).2 ready
        refine ⟨wrote.ready, ?_⟩
        unfold doc
        rw [wrote.offset]
        exact .write _ data _ wrote.bytes
      · rintro _ t ⟨_, l', step⟩
        exact ⟨l', step⟩
    · rw [if_pos allowed]
      exact ⟨l, stay, nofun⟩

omit [DecidableEq ι] in
/-- What changes no sector of a file does not change the file. -/
lemma Ready.beside (ready : s.Ready ops l) (mem : s.fs.fat.InChain l s.file.sect) {fs : Fs σ}
    (geometry : fs.fat.geometry = s.fs.fat.geometry)
    (view : ∀ n, s.fs.fat.InChain l n → fs.view ops n = s.fs.view ops n) :
    (⟨fs, s.file⟩ : OpenFile σ).Ready ops l ∧
      (⟨fs, s.file⟩ : OpenFile σ).doc ops l = s.doc ops l := by
  have content : ∀ n, s.fs.fat.InChain l n →
      (⟨fs, s.file⟩ : OpenFile σ).content ops n = s.content ops n := by
    intro n here
    unfold OpenFile.content
    dsimp only
    rw [view n here]
  have size := congrArg FatFs.clustSize geometry
  have sect := congrArg (fun g : FatFs => g.fileSect l (s.file.offset / 512)) geometry
  have count := congrArg (fun g : FatFs => g.sectCount l) geometry
  change fs.fat.clustSize = s.fs.fat.clustSize at size
  change fs.fat.sectCount l = s.fs.fat.sectCount l at count
  refine ⟨⟨?_, ready.sect.trans sect.symm, (content _ mem).trans ready.buf, ?_⟩, ?_⟩
  · dsimp only
    rw [size]
    exact ready.clust
  · unfold room
    dsimp only
    rw [count]
    exact ready.fits
  · unfold doc
    rw [bytes_congr (s := s) geometry (List.prefix_refl l) content rfl ready.fits]

end OpenFile

/-! ## All open files -/

/-- A volume and the files that are open on it. -/
structure Desk (σ ι : Type) where
  fs : Fs σ
  files : ι → File

namespace Desk
open OpenFile Fs
variable {σ ι : Type} [DecidableEq ι] (ops : Device σ Sect) (fuel : Nat) (junk : Byte)

/-- One of the files. -/
def opened (d : Desk σ ι) (i : ι) : OpenFile σ := ⟨d.fs, d.files i⟩

/-- The desk after a call on file `i`. -/
def put (d : Desk σ ι) (i : ι) (t : OpenFile σ) : Desk σ ι :=
  ⟨t.fs, Function.update d.files i t.file⟩

/-- A call on one of the files, with its answer; there is none where the call does not return. -/
def call (d : Desk σ ι) (c : ι × FileCall) : Option (Int × List Byte) × Desk σ ι :=
  match fileCall ops fuel junk c.2 (d.opened c.1) with
  | .ok r t => (some r, d.put c.1 t)
  | .error _ t => (none, d.put c.1 t)

/-- The calls on file `i`. -/
def own (i : ι) (c : ι × FileCall) : Option FileCall := if c.1 = i then some c.2 else none

/-- The busy files are open, and have the clusters `clusters`. -/
structure Open (ops : Device σ Sect) (busy : ι → Prop) (d : Desk σ ι)
    (clusters : ι → Option (List Nat)) : Prop where
  tidy : d.fs.Tidy ops busy clusters
  held : ∀ i, busy i → ∃ l, clusters i = some l ∧ (d.files i).Held d.fs.fat l

/-- From `d` to `d'` the files have kept their clusters, and no sector has changed but `FsInfo`,
    those of the tables and those of the busy files. -/
structure Served (ops : Device σ Sect) (busy : ι → Prop) (d : Desk σ ι)
    (clusters : ι → Option (List Nat)) (d' : Desk σ ι) (clusters' : ι → Option (List Nat)) :
    Prop where
  opened : Open ops busy d' clusters'
  grow : ∀ i l, clusters i = some l → ∃ l', clusters' i = some l' ∧ l <+: l'
  geometry : d'.fs.fat.geometry = d.fs.fat.geometry
  frame : ∀ n, d.fs.fat.Outside n →
    (∀ i l, busy i → clusters' i = some l → ¬ d.fs.fat.InChain l n) →
    d'.fs.view ops n = d.fs.view ops n

variable {ops} {busy : ι → Prop} {clusters clusters' clusters'' : ι → Option (List Nat)}
  {d d' d'' : Desk σ ι} {fuel} {junk} {i : ι} {l : List Nat}

@[simp] lemma put_files (t : OpenFile σ) : (d.put i t).files i = t.file :=
  Function.update_self ..

lemma put_files_ne {j : ι} (ne : j ≠ i) (t : OpenFile σ) : (d.put i t).files j = d.files j :=
  Function.update_of_ne ne ..

@[simp] lemma opened_put (t : OpenFile σ) : (d.put i t).opened i = t := by
  rw [opened, put_files]
  rfl

lemma opened_put_ne {j : ι} (ne : j ≠ i) (t : OpenFile σ) :
    (d.put i t).opened j = ⟨t.fs, (d.opened j).file⟩ := by
  rw [opened, put_files_ne ne]
  rfl

omit [DecidableEq ι] in
lemma Served.refl (h : Open ops busy d clusters) : Served ops busy d clusters d clusters :=
  ⟨h, fun _ l e => ⟨l, e, List.prefix_refl _⟩, rfl, fun _ _ _ => rfl⟩

omit [DecidableEq ι] in
/-- Calls in a row keep what each of them keeps. -/
lemma Served.trans (first : Served ops busy d clusters d' clusters')
    (second : Served ops busy d' clusters' d'' clusters'') :
    Served ops busy d clusters d'' clusters'' := by
  have inChain := inChain_of_geometry first.geometry
  have outside := FatFs.outside_of_geometry first.geometry
  refine ⟨second.opened, fun i l e => ?_, second.geometry.trans first.geometry,
    fun n beyond out => ?_⟩
  · obtain ⟨l', e', sub⟩ := first.grow i l e
    obtain ⟨l'', e'', sub'⟩ := second.grow i l' e'
    exact ⟨l'', e'', sub.trans sub'⟩
  · rw [second.frame n (outside ▸ beyond) (inChain ▸ out)]
    refine first.frame n beyond fun i l on e mem => ?_
    obtain ⟨l', e', sub⟩ := second.grow i l e
    exact out i l' on e' (mem.prefix_ sub)

/-- The clusters after a call, and what it has done to the files. -/
lemma call_spec (fuel : Nat) (junk : Byte) (h : Open ops busy d clusters) (c : ι × FileCall)
    (on : busy c.1) :
    let r := d.call ops fuel junk c
    ∃ clusters', Served ops busy d clusters r.2 clusters' ∧
      ∀ i l, busy i → clusters i = some l → (d.opened i).Ready ops l →
        (∀ dst, c.1 = i → r.1 = some (errNone, dst) → ∃ l', clusters' i = some l' ∧
          (r.2.opened i).Ready ops l' ∧
          ((d.opened i).doc ops l).Step c.2 dst ((r.2.opened i).doc ops l')) ∧
        (c.1 ≠ i → clusters' i = some l ∧ (r.2.opened i).Ready ops l ∧
          (r.2.opened i).doc ops l = (d.opened i).doc ops l) := by
  obtain ⟨i, c⟩ := c
  dsimp only at on ⊢
  obtain ⟨l, e, held⟩ := h.held i on
  -- whatever the call has done
  have served : ∀ {t : OpenFile σ} {l' : List Nat}, Step ops busy clusters i (d.opened i) l t l' →
      Served ops busy d clusters (d.put i t) (Function.update clusters i (some l')) ∧
        ∀ j m, busy j → clusters j = some m → (d.opened j).Ready ops m → i ≠ j →
          Function.update clusters i (some l') j = some m ∧ ((d.put i t).opened j).Ready ops m ∧
            ((d.put i t).opened j).doc ops m = (d.opened j).doc ops m := by
    intro t l' step
    have inChain := inChain_of_geometry step.geometry
    refine ⟨⟨⟨step.tidy, fun j onj => ?_⟩, fun j m ej => ?_, step.geometry,
      fun n beyond out => ?_⟩, fun j m onj ej ready ne => ?_⟩
    · by_cases same : j = i
      · subst same
        refine ⟨l', Function.update_self .., ?_⟩
        rw [put_files]
        exact step.held
      · obtain ⟨m, ej, heldj⟩ := h.held j onj
        refine ⟨m, (Function.update_of_ne same ..).trans ej, ?_⟩
        rw [put_files_ne same]
        exact ⟨heldj.attached, heldj.head, heldj.mem, inChain ▸ heldj.sect⟩
    · by_cases same : j = i
      · subst same
        obtain rfl := Option.some.inj (e.symm.trans ej)
        exact ⟨l', Function.update_self .., step.grow⟩
      · exact ⟨m, (Function.update_of_ne same ..).trans ej, List.prefix_refl _⟩
    · exact step.frame n beyond (out i l' on (Function.update_self ..))
    · obtain ⟨m', ej', heldj⟩ := h.held j onj
      obtain rfl := Option.some.inj (ej.symm.trans ej')
      have lay := h.tidy.sound.layout
      have ej' : Function.update clusters i (some l') j = some m :=
        (Function.update_of_ne ne.symm ..).trans ej
      have beside := ready.beside heldj.sect step.geometry fun n mem => by
        have data := (lay.inChain_data (h.tidy.sound.numbered ej) mem).1
        refine step.frame n (lay.outside data) fun mine => ne ?_
        rw [← inChain] at mine
        exact step.tidy.sound.inChain_unique (Function.update_self ..) ej' mine (inChain ▸ mem)
      refine ⟨ej', ?_⟩
      rw [opened_put_ne ne.symm]
      exact beside
  have spec := fileCall_spec (s := d.opened i) fuel junk h.tidy on e held c
  unfold call
  dsimp only
  cases ran : fileCall ops fuel junk c (d.opened i) with
  | ok r t =>
    obtain ⟨l', step, done⟩ := wp_ok spec ran
    obtain ⟨all, others⟩ := served step
    refine ⟨_, all, fun j m onj ej ready => ⟨?_, others j m onj ej ready⟩⟩
    rintro dst rfl answer
    obtain rfl := Option.some.inj (e.symm.trans ej)
    obtain rfl := Option.some.inj answer
    refine ⟨l', Function.update_self .., ?_⟩
    rw [opened_put]
    exact done rfl ready
  | error stop t =>
    obtain ⟨l', step⟩ := wp_error spec ran
    obtain ⟨all, others⟩ := served step
    exact ⟨_, all, fun j m onj ej ready => ⟨fun _ _ => nofun, others j m onj ej ready⟩⟩

/-- Files are read, written and moved in, in any order, and any transfers fail. The files keep their
    clusters, and no other sector changes. A file whose calls have all succeeded has answered them
    as its `Doc` alone does, and is what that `Doc` has become. -/
theorem open_files_are_docs {calls : List (ι × FileCall)} (h : Open ops busy d clusters)
    (on : ∀ c ∈ calls, busy c.1) :
    let r := run (call ops fuel junk) d calls
    ∃ clusters', Served ops busy d clusters r.2 clusters' ∧
      ∀ i l, busy i → clusters i = some l → (d.opened i).Ready ops l →
        (∀ a ∈ answersTo (own i) calls r.1, ∃ dst, a = some (errNone, dst)) →
        ∃ l' dsts, clusters' i = some l' ∧ (r.2.opened i).Ready ops l' ∧
          answersTo (own i) calls r.1 = dsts.map (fun dst => some (errNone, dst)) ∧
          ((d.opened i).doc ops l).Run (calls.filterMap (own i)) dsts
            ((r.2.opened i).doc ops l') := by
  induction calls generalizing d clusters with
  | nil => exact ⟨clusters, .refl h, fun i l _ e ready _ => ⟨l, [], e, ready, rfl, .nil _⟩⟩
  | cons c cs ih =>
    obtain ⟨clusters', first, here⟩ := call_spec fuel junk h c (on c (.head cs))
    obtain ⟨clusters'', rest, later⟩ := ih first.opened fun c mem => on c (.tail _ mem)
    refine ⟨clusters'', first.trans rest, fun i l busy e ready all => ?_⟩
    obtain ⟨mine, other⟩ := here i l busy e ready
    rw [run_cons, answersTo] at all ⊢
    by_cases same : c.1 = i
    · have own_c : own i c = some c.2 := if_pos same
      rw [own_c] at all ⊢
      rw [List.filterMap_cons_some own_c]
      obtain ⟨dst, answer⟩ := all _ (.head _)
      obtain ⟨l', e', ready', step⟩ := mine dst same answer
      obtain ⟨l'', dsts, e'', ready'', answers, docs⟩ :=
        later i l' busy e' ready' fun a mem => all a (.tail _ mem)
      refine ⟨l'', dst :: dsts, e'', ready'', ?_, .cons step docs⟩
      rw [List.map_cons, ← answers, ← answer]
    · have own_c : own i c = none := if_neg same
      rw [own_c] at all ⊢
      rw [List.filterMap_cons_none own_c]
      obtain ⟨e', ready', doc⟩ := other same
      rw [← doc]
      exact later i l busy e' ready' all

/-- A file of the small volume at its first cluster, open for reading and writing. -/
def smallFile (sclust sect : Nat) : File where
  fat := true
  dirSect := 0
  sclust
  clust := sclust
  sect
  size := 10
  offset := 0
  dirIdx := 0
  attr := 0#8
  flags := ⟨true, true, false, false, false, false, false, false⟩
  buf := .of fun _ => 0#8

/-- The small volume with two files of two clusters each, which lie alternately. -/
def pairTable : Sect :=
  (((smallTable.store32 12 5#32).store32 16 6#32).store32 20 0x0FFFFFFF#32).store32 24 0x0FFFFFFF#32

/-- Its disk. -/
def pairDisk (n : Nat) : Sect := if n = 2 ∨ n = 3 then pairTable else .of fun _ => 0#8

/-- The root, which is not open, and the two files. -/
def pairFiles : Nat → Option (List Nat)
  | 0 => some [2]
  | 1 => some [3, 5]
  | 2 => some [4, 6]
  | _ => none

/-- The two files are open. -/
def pairDesk (script : List Bool) : Desk (List Bool × (Nat → Sect)) Nat :=
  ⟨smallFs (script, pairDisk), fun i => smallFile (2 + i) (4 + i)⟩

/-- The files are the root and the two. -/
lemma pairFiles_cases {i : Nat} {l : List Nat} (e : pairFiles i = some l) :
    i = 0 ∧ l = [2] ∨ i = 1 ∧ l = [3, 5] ∨ i = 2 ∧ l = [4, 6] := by
  match i with
  | 0 => exact .inl ⟨rfl, (Option.some.inj e).symm⟩
  | 1 => exact .inr (.inl ⟨rfl, (Option.some.inj e).symm⟩)
  | 2 => exact .inr (.inr ⟨rfl, (Option.some.inj e).symm⟩)
  | i + 3 => cases e

/-- The volume with the two files is sound. -/
lemma pairFs_sound (script : List Bool) :
    Sound (.scripted Sect) (smallFs (script, pairDisk)) pairFiles where
  layout := smallFs_layout _
  coherent := smallFs_coherent _ _
  reserved c lt := by
    have all : ∀ c < 2, smallFat.cell (smallFat.table pairDisk c) ≠ .free := by decide +kernel
    rw [smallFs_cells]
    exact all c lt
  apart := by
    refine ⟨fun i l e => ?_, fun i j l l' ne e e' => ?_⟩
    · have cells : ∀ c, (smallFs (script, pairDisk)).cells (.scripted Sect) c =
          smallFat.cell (smallFat.table pairDisk c) := smallFs_cells _ _
      rcases pairFiles_cases e with ⟨_, rfl⟩ | ⟨_, rfl⟩ | ⟨_, rfl⟩
      · exact .last ((cells 2).trans (by decide +kernel))
      · exact .next ((cells 3).trans (by decide +kernel))
          (.last ((cells 5).trans (by decide +kernel)))
      · exact .next ((cells 4).trans (by decide +kernel))
          (.last ((cells 6).trans (by decide +kernel)))
    · rcases pairFiles_cases e with ⟨rfl, rfl⟩ | ⟨rfl, rfl⟩ | ⟨rfl, rfl⟩ <;>
        rcases pairFiles_cases e' with ⟨rfl, rfl⟩ | ⟨rfl, rfl⟩ | ⟨rfl, rfl⟩ <;>
        first | exact absurd rfl ne | decide
  two i l e := by
    rcases pairFiles_cases e with ⟨_, rfl⟩ | ⟨_, rfl⟩ | ⟨_, rfl⟩ <;> decide

/-- The two files are open on it. -/
lemma pairDesk_open (script : List Bool) :
    Open (.scripted Sect) (fun i => i = 1 ∨ i = 2) (pairDesk script) pairFiles where
  tidy := ⟨pairFs_sound script, Nat.zero_le 7, ⟨rfl, .inl rfl⟩⟩
  held i on := by
    rcases on with rfl | rfl
    · have covers : smallFat.Covers 3 5 := ⟨by decide, by decide⟩
      exact ⟨[3, 5], rfl, rfl, rfl, .head _, 3, .head _, covers⟩
    · have covers : smallFat.Covers 4 6 := ⟨by decide, by decide⟩
      exact ⟨[4, 6], rfl, rfl, rfl, .head _, 4, .head _, covers⟩

/-- The first one is at its start, with its first sector in its buffer. -/
lemma pairDesk_ready (script : List Bool) :
    ((pairDesk script).opened 1).Ready (.scripted Sect) [3, 5] where
  clust := (by decide : [3, 5][0 / smallFat.clustSize]? = some 3)
  sect := (by decide : 5 = smallFat.fileSect [3, 5] (0 / 512))
  buf := rfl
  fits := (by decide : 10 ≤ 512 * smallFat.sectCount [3, 5])

/-- A seek of file 2 fails at a transfer. File 1 is written over the border of its clusters in the
    meantime, and reads what has been written. -/
theorem open_files_are_docs_small :
    let calls : List (Nat × FileCall) :=
      [(1, .seek 510 .start), (2, .seek 512 .start), (1, .write [1#8, 2#8, 3#8, 4#8]), (2, .read 3),
        (1, .seek 510 .start), (1, .read 4)]
    let d := pairDesk [false]
    let r := run (call (.scripted Sect) 128 0#8) d calls
    answersTo (own 2) calls r.1 = [some (errIo, []), some (errNone, [0#8, 0#8, 0#8])] ∧
      ∃ clusters' l', Served (.scripted Sect) (fun i => i = 1 ∨ i = 2) d pairFiles r.2 clusters' ∧
        clusters' 1 = some l' ∧ (r.2.opened 1).Ready (.scripted Sect) l' ∧
        ((d.opened 1).doc (.scripted Sect) [3, 5]).Run
          [.seek 510 .start, .write [1#8, 2#8, 3#8, 4#8], .seek 510 .start, .read 4]
          [[], [], [], [1#8, 2#8, 3#8, 4#8]] ((r.2.opened 1).doc (.scripted Sect) l') := by
  intro calls d r
  have answers : answersTo (own 1) calls r.1 = [[], [], [], [1#8, 2#8, 3#8, 4#8]].map
      fun dst => some (errNone, dst) := by decide +kernel
  have busy : ∀ c ∈ calls, c.1 = 1 ∨ c.1 = 2 := by decide
  obtain ⟨clusters', served, docs⟩ :=
    @open_files_are_docs _ _ _ _ 128 0#8 _ _ _ _ (pairDesk_open [false]) busy
  obtain ⟨l', dsts, e, ready, eq, docRun⟩ := docs 1 [3, 5] (.inl rfl) rfl (pairDesk_ready [false])
    (by
      rw [answers]
      intro a mem
      obtain ⟨dst, _, rfl⟩ := List.mem_map.mp mem
      exact ⟨dst, rfl⟩)
  have same : dsts = [[], [], [], [1#8, 2#8, 3#8, 4#8]] := by
    refine List.map_injective_iff.mpr (fun a b h => ?_) (eq.symm.trans answers)
    exact congrArg Prod.snd (Option.some.inj h)
  rw [same] at docRun
  exact ⟨by decide +kernel, clusters', l', served, e, ready, docRun⟩

end Desk

end TRS.Fat
