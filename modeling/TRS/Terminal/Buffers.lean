import TRS.Lib.Run
import TRS.Terminal.Cd
import TRS.Terminal.Tokens

/-!
# The buffers of the terminal

`current` stays a string within its 100 bytes. `path` holds what `wh` builds in it as long as no
`wh` names more than 122 bytes.

* `runArgs_wh`, `runArgs_other`: the command line by its first word.
* `strcat_path`, `strcat_path_fault`: the argument of `wh` behind its prefix.
* `command_ok`, `command_fault`: one command line.

The headline `buffers_hold_iff` is over all sequences of lines, by `Along.iff_guarded`;
`wh_overflows` is one argument of 123 bytes.
-/

namespace TRS.Terminal
open TRS.Lib TRS.Libc

/-- What `scanf(command, 256)` leaves in `command`. -/
structure Line where
  text : List Byte
  rest : List Byte
  no_nul : 0#8 ∉ text
  size : text.length + 1 + rest.length = 256

/-- The bytes of `command`. -/
def Line.command (l : Line) : List Byte := l.text ++ 0#8 :: l.rest

/-- A line in an array of zeros. -/
def Line.ofText (text : List Byte) (no_nul : 0#8 ∉ text) (short : text.length ≤ 255) : Line where
  text := text
  rest := List.replicate (255 - text.length) 0#8
  no_nul := no_nul
  size := by rw [List.length_replicate]; omega

/-- The array holds a string that ends within its bytes. -/
def Terminated (size : Nat) (b : List Byte) : Prop := b.length = size ∧ ∃ s, CStr b s

/-- A command leaves `current` terminated, and every path it builds lies in `path`. -/
def KeepsBuffers (_ : List Byte) (_ : Line) (acts : List Action) (current' : List Byte) : Prop :=
  Terminated currentSize current' ∧ ∀ p, .wh p ∈ acts → Terminated pathSize p

/-- One command of the terminal. -/
def command (current : List Byte) (l : Line) : Except Fault (List Action × List Byte) :=
  commandParser current l.command

/-- A `wh` whose argument, behind `/dsk/` and before its NUL, is too long for `path`. -/
def LongWh (l : Line) : Prop :=
  match tokens argMax l.text with
  | name :: arg :: _ => name = Lib.text "wh" ∧ pathSize < 5 + arg.length + 1
  | _ => False

/-! ## The commands -/

/-- Comparing a token with the name of a command. -/
lemma strcmp_name {a name : List Byte} (h : CStr a name) {s : String} (ne : 0#8 ∉ text s) :
    ∃ r, strcmp a (literal s) = .ok r ∧ (r = 0 ↔ name = text s) :=
  strcmp_ok h (literal_cstr ne)

/-- The command line by its first word. -/
lemma runArgs_eq {current a0 a1 name : List Byte} {argc : Nat} (h : CStr a0 name) :
    runArgs current argc a0 a1 =
      if name = text "view" then .ok (noArgs argc [.view], current)
      else if name = text "clr" then .ok (noArgs argc [.clear], current)
      else if name = text "pwd" then
        .ok (noArgs argc [.setColor sapphire termBG, .print (literal "\n\t"), .print current,
          .setColor yantar termBG], current)
      else if name = text "wh" then (whPath current argc a1).map fun path => ([.wh path], current)
      else if name = text "cd" then cdCommand current argc a1
      else if name = text "help" then .ok (noArgs argc [.print (literal "\n"), .help], current)
      else .ok ([.print (literal "\nt3rm: unknown command")], current) := by
  obtain ⟨r1, e1, iff1⟩ := strcmp_name h (s := "view") (by decide)
  obtain ⟨r2, e2, iff2⟩ := strcmp_name h (s := "clr") (by decide)
  obtain ⟨r3, e3, iff3⟩ := strcmp_name h (s := "pwd") (by decide)
  obtain ⟨r4, e4, iff4⟩ := strcmp_name h (s := "wh") (by decide)
  obtain ⟨r5, e5, iff5⟩ := strcmp_name h (s := "cd") (by decide)
  obtain ⟨r6, e6, iff6⟩ := strcmp_name h (s := "help") (by decide)
  unfold runArgs
  simp only [e1, e2, e3, e4, e5, e6, ok_bind, iff1, iff2, iff3, iff4, iff5, iff6]
  cases whPath current argc a1 <;> rfl

/-- Commands without arguments build no path. -/
lemma wh_not_mem_noArgs {argc : Nat} {acts : List Action} (none : ∀ p, .wh p ∉ acts) :
    ∀ p, .wh p ∉ noArgs argc acts := by
  unfold noArgs
  split
  · simp
  · exact none

/-- The path starts as `/dsk/`. -/
lemma pathInit_cstr : CStr pathInit (text "/dsk/") :=
  ⟨by decide, List.replicate 122 0#8, List.append_assoc ..⟩

/-- It has its full size. -/
lemma pathInit_length : pathInit.length = pathSize := by
  rw [pathInit, List.length_append, List.length_replicate]
  rfl

/-- The path of `wh` fits if the string behind `/dsk/` does. -/
lemma strcat_path {src t : List Byte} (h : CStr src t) (fits : 5 + t.length + 1 ≤ pathSize) :
    ∃ path, strcat pathInit src = .ok path ∧ Terminated pathSize path := by
  obtain ⟨path, e, str, len⟩ := strcat_ok pathInit_cstr h (by rw [pathInit_length]; exact fits)
  exact ⟨path, e, len, _, str⟩

/-- The path of `wh` runs past its array if the string behind `/dsk/` does not fit. -/
lemma strcat_path_fault {src t : List Byte} (h : CStr src t) (big : pathSize < 5 + t.length + 1) :
    strcat pathInit src = .error .bounds :=
  strcat_fault pathInit_cstr h (by rw [pathInit_length]; exact Nat.le_of_lt_succ big)

/-- The path of a `wh` with an argument. -/
lemma whPath_arg (current : List Byte) (n : Nat) (a1 : List Byte) :
    whPath current (n + 1 + 1) a1 = strcat pathInit a1 := if_pos (by omega)

/-- The path of a `wh` without one. -/
lemma whPath_current {current a1 : List Byte} (h : Terminated currentSize current) :
    ∃ path, whPath current 1 a1 = .ok path ∧ Terminated pathSize path := by
  obtain ⟨size, s, hs⟩ := h
  have short := hs.length_lt
  exact strcat_path hs (by simp only [currentSize, pathSize] at *; omega)

/-- A command other than `wh` builds no path and leaves `current` terminated. -/
lemma runArgs_other {current a0 a1 name : List Byte} {argc : Nat} (h0 : CStr a0 name)
    (other : name ≠ text "wh") (h1 : ¬ argc < 2 → ∃ t, CStr a1 t)
    (h : Terminated currentSize current) :
    ∃ acts current', runArgs current argc a0 a1 = .ok (acts, current') ∧
      Terminated currentSize current' ∧ ∀ p, .wh p ∉ acts := by
  obtain ⟨size, s, hs⟩ := h
  have quiet : ∀ acts : List Action, (∀ p, .wh p ∉ acts) →
      ∃ acts' current', (.ok (acts, current) : Except Fault _) = .ok (acts', current') ∧
        Terminated currentSize current' ∧ ∀ p, .wh p ∉ acts' :=
    fun acts no => ⟨acts, current, rfl, ⟨size, s, hs⟩, no⟩
  rw [runArgs_eq h0, if_neg other]
  split
  · exact quiet _ (wh_not_mem_noArgs (by simp))
  split
  · exact quiet _ (wh_not_mem_noArgs (by simp))
  split
  · exact quiet _ (wh_not_mem_noArgs (by simp))
  split
  · by_cases few : argc < 2
    · obtain ⟨current', e, size', hs'⟩ := cdCommand_home a1 few size
      exact ⟨_, _, e, ⟨size', _, hs'⟩, by simp⟩
    · obtain ⟨t, ht⟩ := h1 few
      obtain ⟨acts, current', e, no, size', hs'⟩ := cdCommand_target few size hs ht
      exact ⟨_, _, e, ⟨size', _, hs'⟩, no⟩
  split
  · exact quiet _ (wh_not_mem_noArgs (by simp))
  · exact quiet _ (by simp)

/-- `wh` builds its path, or runs past the array. -/
lemma runArgs_wh {current a0 a1 : List Byte} {argc : Nat} (h0 : CStr a0 (text "wh")) :
    runArgs current argc a0 a1 =
      (whPath current argc a1).map fun path => ([.wh path], current) := by
  rw [runArgs_eq h0]
  rfl

/-- A line that is no long `wh` keeps the buffers. -/
lemma command_ok {current : List Byte} {l : Line} (h : Terminated currentSize current)
    (short : ¬ LongWh l) :
    ∃ acts current', command current l = .ok (acts, current') ∧
      KeepsBuffers current l acts current' := by
  unfold command Line.command
  rcases commandParser_spec current l.rest l.no_nul with
    ⟨_, e⟩ | ⟨name, ts, a0, a1, eq, h0, h1, e⟩
  · exact ⟨[], current, e, h, by simp⟩
  rw [e]
  by_cases isWh : name = text "wh"
  · subst isWh
    obtain ⟨path, built, fits⟩ : ∃ path, whPath current (ts.length + 1) a1 = .ok path ∧
        Terminated pathSize path := by
      cases ts with
      | nil => exact whPath_current h
      | cons arg ts =>
        have le : ¬ pathSize < 5 + arg.length + 1 := by
          intro big
          apply short
          unfold LongWh
          rw [eq]
          exact ⟨rfl, big⟩
        rw [List.length_cons, whPath_arg]
        exact strcat_path (h1 arg rfl) (Nat.le_of_not_lt le)
    rw [runArgs_wh h0, built]
    refine ⟨_, _, rfl, h, fun p m => ?_⟩
    cases List.mem_singleton.mp m
    exact fits
  · have target : ¬ ts.length + 1 < 2 → ∃ t, CStr a1 t := by
      intro some_
      cases ts with
      | nil => exact absurd (Nat.lt_succ_self 1) some_
      | cons arg ts => exact ⟨arg, h1 arg rfl⟩
    obtain ⟨acts, current', e', h', no⟩ := runArgs_other h0 isWh target h
    exact ⟨acts, current', e', h', fun p m => absurd m (no p)⟩

/-- A long `wh` writes past `path`. -/
lemma command_fault (current : List Byte) {l : Line} (long : LongWh l) :
    command current l = .error .bounds := by
  unfold command Line.command
  unfold LongWh at long
  rcases commandParser_spec current l.rest l.no_nul with
    ⟨eq, _⟩ | ⟨name, ts, a0, a1, eq, h0, h1, e⟩
  · rw [eq] at long
    cases long
  rw [eq] at long
  cases ts with
  | nil => cases long
  | cons arg ts =>
    obtain ⟨rfl, big⟩ := long
    rw [e, runArgs_wh h0, List.length_cons, whPath_arg, strcat_path_fault (h1 arg rfl) big]
    rfl

/-- The current directory is a string from the start on. -/
lemma currentInit_terminated : Terminated currentSize currentInit :=
  ⟨by decide, home, by decide, List.replicate 89 0#8, List.append_assoc ..⟩

/-- The buffers of the terminal hold in a run exactly if none of its lines is a long `wh`. -/
theorem buffers_hold_iff (lines : List Line) :
    Along command KeepsBuffers currentInit lines ↔ ∀ l ∈ lines, ¬ LongWh l := by
  refine Along.iff_forall (I := Terminated currentSize) ?_ ?_ currentInit_terminated
  · intro current l h short
    obtain ⟨acts, current', e, keeps⟩ := command_ok h short
    exact ⟨acts, current', e, keeps, keeps.1⟩
  · intro current l acts current' _ e _ long
    rw [command_fault current long] at e
    cases e

/-- `wh` with an argument of 123 letters. -/
def whLine : Line :=
  .ofText (text "wh " ++ List.replicate 123 0x61#8) (by decide +kernel) (by decide +kernel)

/-- The path of 123 letters behind `/dsk/` runs one byte past `path`. -/
theorem wh_overflows : ¬ Along command KeepsBuffers currentInit [whLine] := by
  rintro ⟨acts, current', e, _⟩
  have eq : tokens argMax whLine.text = [text "wh", List.replicate 123 0x61#8] := by decide +kernel
  have long : LongWh whLine := by
    unfold LongWh
    rw [eq]
    exact ⟨rfl, by decide +kernel⟩
  rw [command_fault currentInit long] at e
  cases e

end TRS.Terminal
