import TRS.Lib.Components
import TRS.Terminal.Buffers

/-!
# The working directory

`chdir` is `cd` on the components of the directory; the terminal works on the string in `current`.
The two agree as long as `cd ..` finds the slash before the last component (`ExactCd`).

* `components_up`, `components_joined`: what the two string operations are to the components.
* `changeDir_absolute`, `changeDir_relative`, `changeDir_unfit`: each kind of argument.
* `changeDir_exact`: all of them.

The headline `cd_follows_iff` is over all sequences of lines, by `Along.iff_guarded`; `cd_up_stays`
is a `cd ..` that goes nowhere.
-/

namespace TRS.Terminal
open TRS.Lib TRS.Libc

/-- The directory after `cd` with, or without, a target. -/
def chdir (dir : List (List Byte)) : Option (List Byte) → List (List Byte)
  | none => [text "space", text "user"]
  | some t =>
    if t = [dot] then dir
    else if t = [dot, dot] then dir.dropLast
    else if t.head? = some slash then components slash t
    else dir ++ components slash t

/-- Entering a directory and leaving it again. -/
lemma chdir_up_chdir (dir : List (List Byte)) {name : List Byte} (no : slash ∉ name)
    (ne : name ≠ []) (here : name ≠ [dot]) (up : name ≠ [dot, dot]) :
    chdir (chdir dir (some name)) (some [dot, dot]) = dir := by
  have relative : name.head? ≠ some slash := fun e => no (List.mem_of_mem_head? e)
  unfold chdir
  simp [here, up, relative, components_name no ne, dot]

/-- A relative target behind the directory. -/
def joined (s t : List Byte) : List Byte :=
  (if s = [] ∨ s.getLast? = some slash then s else s ++ [slash]) ++ t

/-- The string that the command asks for has room in `current`. -/
def Fits (s : List Byte) : Option (List Byte) → Prop
  | none => True
  | some t => t ≠ [dot] → t ≠ [dot, dot] →
      (if t.head? = some slash then t.tail else joined s t).length < currentSize

instance (s : List Byte) (t : Option (List Byte)) : Decidable (Fits s t) := by
  cases t <;> unfold Fits <;> infer_instance

/-- Where `cd` on the string does what it does on the components. `..` needs a slash before the last
    component and none behind it; a target that just fits, but not with the byte the checks reserve
    for a slash, must not matter. -/
def ExactCd (s : List Byte) : Option (List Byte) → Prop
  | none => True
  | some t =>
    (t = [dot, dot] → components slash s = [] ∨ slash ∈ s ∧ s.getLast? ≠ some slash) ∧
    (t.head? = some slash → t.length = currentSize → components slash t = components slash s) ∧
    (t ≠ [dot] → t ≠ [dot, dot] → t.head? ≠ some slash → (s = [] ∨ s.getLast? = some slash) →
      s.length + t.length + 1 = currentSize → t = [])

/-! ## The string and its components -/

/-- A path has a last slash or none. -/
lemma beforeLast_cases (s : List Byte) :
    (slash ∉ s ∧ beforeLast slash s = none) ∨
      ∃ pre post, s = pre ++ slash :: post ∧ slash ∉ post ∧ beforeLast slash s = some pre := by
  by_cases sep : slash ∈ s
  · -- the first slash of the reversed path is the last one of the path
    obtain ⟨a, b, e, no⟩ := List.eq_append_cons_of_mem (List.mem_reverse.mpr sep)
    have split : s = b.reverse ++ slash :: a.reverse := by
      rw [← List.reverse_reverse s, e]
      simp
    have no' : slash ∉ a.reverse := fun m => no (List.mem_reverse.mp m)
    exact .inr ⟨_, _, split, no', by rw [split, beforeLast_some _ no']⟩
  · exact .inl ⟨sep, beforeLast_none sep⟩

/-- What `cd ..` leaves is the parent exactly if a slash stands right before the last component. -/
lemma components_up (s : List Byte) :
    components slash ((beforeLast slash s).getD s) = (components slash s).dropLast ↔
      components slash s = [] ∨ slash ∈ s ∧ s.getLast? ≠ some slash := by
  rcases beforeLast_cases s with ⟨sep, e⟩ | ⟨pre, post, rfl, no, e⟩
  · rw [e, Option.getD_none]
    simp only [sep, false_and, or_false]
    cases s with
    | nil => simp
    | cons c cs => simp [components_name sep]
  · rw [e, Option.getD_some, components_snoc pre no]
    cases post with
    | nil =>
      -- a trailing slash: only the slash is cut off
      simp only [if_true, List.append_nil, List.getLast?_concat, ne_eq, not_true, and_false,
        or_false]
      constructor
      · intro h
        have len := congrArg List.length h
        rw [List.length_dropLast] at len
        exact List.eq_nil_of_length_eq_zero (by omega)
      · intro h
        rw [h]
        rfl
    | cons c cs =>
      have last : (c :: cs).getLast? ≠ some slash := fun h => no (List.mem_of_getLast? h)
      simp [last]

/-- The components of a joined path are those of its parts. -/
lemma components_joined (s t : List Byte) :
    components slash (joined s t) = components slash s ++ components slash t := by
  unfold joined
  split
  · next closed => exact components_concat closed t
  · rw [List.append_assoc, List.singleton_append, components_append]

/-- The check of `cd` on a relative target always counts a slash. -/
lemma fits_of_room {s t : List Byte} (room : s.length + 1 + t.length < currentSize) :
    (joined s t).length < currentSize := by
  unfold joined
  split <;> simp only [List.length_append, List.length_singleton] <;> omega

/-- The directory that the command asks for, or the old one if the string for it does not fit. -/
def chdirFits (s : List Byte) (dir : List (List Byte)) (t : Option (List Byte)) :
    List (List Byte) :=
  if Fits s t then chdir dir t else dir

/-- A command that does not fit leaves the directory. -/
lemma changeDir_unfit {s : List Byte} {t : Option (List Byte)} (no : ¬ Fits s t) :
    changeDir s t = s := by
  cases t with
  | none => exact absurd trivial no
  | some t =>
    simp only [Fits, not_forall] at no
    obtain ⟨here, up, big⟩ := no
    unfold changeDir
    simp only [if_neg here, if_neg up]
    split
    · next abs =>
      rw [if_pos abs, List.length_tail] at big
      exact if_neg (by omega)
    · next rel =>
      rw [if_neg rel] at big
      exact if_neg fun room => big (fits_of_room room)

/-- An absolute path leads where it says, unless it is as long as the buffer and leads elsewhere. -/
lemma changeDir_absolute {s t : List Byte} (abs : t.head? = some slash) :
    components slash (changeDir s (some t)) = chdirFits s (components slash s) (some t) ↔
      (t.length = currentSize → components slash t = components slash s) := by
  obtain ⟨p, rfl⟩ : ∃ p, t = slash :: p := by
    cases t with
    | nil => cases abs
    | cons c p => exact ⟨p, by rw [Option.some.inj abs]⟩
  have here : slash :: p ≠ [dot] := fun e => absurd (List.cons.inj e).1 (by decide)
  have up : slash :: p ≠ [dot, dot] := fun e => absurd (List.cons.inj e).1 (by decide)
  have fits : Fits s (some (slash :: p)) ↔ p.length < currentSize := by
    simp [Fits, here, up]
  unfold changeDir chdirFits chdir
  simp only [fits, if_neg here, if_neg up, abs, if_true, List.tail_cons, List.length_cons,
    components_cons_self]
  by_cases room : p.length + 1 < currentSize
  · rw [if_pos room, if_pos (by omega)]
    exact ⟨fun _ e => absurd e (by omega), fun _ => rfl⟩
  · rw [if_neg room]
    by_cases tight : p.length < currentSize
    · rw [if_pos tight]
      exact ⟨fun h _ => h.symm, fun h => (h (by omega)).symm⟩
    · rw [if_neg tight]
      exact ⟨fun _ e => absurd e (by omega), fun _ => rfl⟩

/-- A relative path leads where it says, unless it is appended behind a slash and fills the buffer.
    -/
lemma changeDir_relative {s t : List Byte} (here : t ≠ [dot]) (up : t ≠ [dot, dot])
    (rel : t.head? ≠ some slash) :
    components slash (changeDir s (some t)) = chdirFits s (components slash s) (some t) ↔
      ((s = [] ∨ s.getLast? = some slash) → s.length + t.length + 1 = currentSize → t = []) := by
  have fits : Fits s (some t) ↔ (joined s t).length < currentSize := by
    simp [Fits, here, up, rel]
  unfold changeDir chdirFits chdir
  simp only [fits, if_neg here, if_neg up, if_neg rel]
  by_cases room : s.length + 1 + t.length < currentSize
  · rw [if_pos room, if_pos (fits_of_room room)]
    exact ⟨fun _ _ e => absurd e (by omega), fun _ => components_joined s t⟩
  · rw [if_neg room]
    by_cases tight : (joined s t).length < currentSize
    · -- it fits since no slash is added, but the check counts one
      obtain ⟨closed, len⟩ : (s = [] ∨ s.getLast? = some slash) ∧
          s.length + t.length + 1 = currentSize := by
        unfold joined at tight
        split at tight
        · next closed =>
          rw [List.length_append] at tight
          exact ⟨closed, by omega⟩
        · rw [List.length_append, List.length_append, List.length_singleton] at tight
          omega
      rw [if_pos tight]
      simp only [closed, len, forall_const, List.self_eq_append_right]
      cases t with
      | nil => simp
      | cons c t =>
        have ne : c ≠ slash := fun e => rel (by rw [e]; rfl)
        simp [components_ne_nil ne]
    · rw [if_neg tight]
      refine ⟨fun _ closed len => absurd ?_ tight, fun _ => rfl⟩
      unfold joined
      rw [if_pos closed, List.length_append]
      omega

/-- `cd` on the string is `cd` on the components exactly under `ExactCd`. -/
lemma changeDir_exact (s : List Byte) (t : Option (List Byte)) :
    components slash (changeDir s t) = chdirFits s (components slash s) t ↔ ExactCd s t := by
  cases t with
  | none =>
    have same : components slash home = [text "space", text "user"] := by decide
    exact ⟨fun _ => trivial, fun _ => same⟩
  | some t =>
    unfold ExactCd
    by_cases here : t = [dot]
    · subst here
      simp [changeDir, chdirFits, chdir, dot, slash]
    by_cases up : t = [dot, dot]
    · subst up
      simp only [changeDir, chdirFits, chdir, Fits, dot, slash] at *
      simpa using components_up s
    by_cases abs : t.head? = some slash
    · rw [changeDir_absolute abs]
      simp [up, abs]
    · rw [changeDir_relative here up abs]
      simp [here, up, abs]

/-! ## The commands -/

/-- A line whose command is `cd`. -/
structure CdLine extends Line where
  is_cd : (tokens argMax text).head? = some (Lib.text "cd")

/-- The target, if the line names one. -/
def CdLine.target (l : CdLine) : Option (List Byte) := (tokens argMax l.text).tail.head?

/-- The string that an array holds. -/
def strOf (b : List Byte) : List Byte := b.takeWhile (· ≠ 0#8)

/-- The string of a buffer. -/
lemma strOf_eq {b s : List Byte} (h : CStr b s) : strOf b = s := by
  obtain ⟨ne, rest, rfl⟩ := h
  have text : ∀ c ∈ s, decide (c ≠ 0#8) = true := by
    intro c m
    exact decide_eq_true fun e => ne (e ▸ m)
  unfold strOf
  rw [List.takeWhile_append_of_pos text]
  simp

/-- The terminal's `current`, and the components that it stands for. -/
structure Shell where
  current : List Byte
  dir : List (List Byte)

/-- The shell before the first command. -/
def shellInit : Shell := ⟨currentInit, [text "space", text "user"]⟩

/-- One command, on `current` and on the components. -/
def cdStep (sh : Shell) (l : CdLine) : Except Fault (List Action × Shell) :=
  (command sh.current l.toLine).map fun r =>
    (r.1, ⟨r.2, chdirFits (strOf sh.current) sh.dir l.target⟩)

/-- `current` has the components of the directory, and a command that does not fit leaves it
    alone. -/
def Follows (sh : Shell) (l : CdLine) (_ : List Action) (sh' : Shell) : Prop :=
  components slash (strOf sh'.current) = sh'.dir ∧
    (¬ Fits (strOf sh.current) l.target → strOf sh'.current = strOf sh.current)

/-- What the branch `cd` of the terminal leaves in `current`. -/
lemma command_cd {current s : List Byte} (size : current.length = currentSize) (hs : CStr current s)
    (l : CdLine) : ∃ acts current', command current l.toLine = .ok (acts, current') ∧
      current'.length = currentSize ∧ CStr current' (changeDir s l.target) := by
  have is_cd := l.is_cd
  unfold command Line.command CdLine.target
  rcases commandParser_spec current l.rest l.no_nul with
    ⟨eq, _⟩ | ⟨name, ts, a0, a1, eq, h0, h1, e⟩
  · rw [eq] at is_cd
    cases is_cd
  rw [eq] at is_cd ⊢
  obtain rfl : name = text "cd" := Option.some.inj is_cd
  have branch : runArgs current (ts.length + 1) a0 a1 = cdCommand current (ts.length + 1) a1 := by
    rw [runArgs_eq h0]
    rfl
  rw [e, branch]
  cases ts with
  | nil =>
    obtain ⟨current', e', size', hs'⟩ := cdCommand_home a1 (Nat.lt_succ_self 1) size
    exact ⟨_, _, e', size', hs'⟩
  | cons t ts =>
    have some_ : ¬ (t :: ts).length + 1 < 2 := by rw [List.length_cons]; omega
    obtain ⟨acts, current', e', _, size', hs'⟩ := cdCommand_target some_ size hs (h1 t rfl)
    exact ⟨acts, current', e', size', hs'⟩

/-- The working directory follows the commands of a run exactly if each of them is exact. -/
theorem cd_follows_iff (lines : List CdLine) :
    Along cdStep Follows shellInit lines ↔
      Guarded cdStep (fun sh l => ExactCd (strOf sh.current) l.target) shellInit lines := by
  refine Along.iff_guarded (I := fun sh => Terminated currentSize sh.current ∧
    components slash (strOf sh.current) = sh.dir) (G := fun _ _ => True) ?_ ?_ ?_
  · rintro ⟨current, dir⟩ l ⟨⟨size, s, hs⟩, eq⟩ -
    obtain ⟨acts, current', e, size', hs'⟩ := command_cd size hs l
    dsimp only at eq
    rw [strOf_eq hs] at eq
    subst eq
    refine ⟨acts, ⟨current', _⟩, by rw [cdStep, e]; rfl, ?_, fun h => ⟨⟨size', _, hs'⟩, h.1⟩⟩
    dsimp only [Follows]
    rw [strOf_eq hs, strOf_eq hs', changeDir_exact]
    exact ⟨fun h => h.1, fun h => ⟨h, changeDir_unfit⟩⟩
  · exact ⟨currentInit_terminated, by decide⟩
  · exact Guarded.of_true

/-- `cd ..`. -/
def upLine : CdLine where
  toLine := .ofText (text "cd ..") (by decide) (by decide)
  is_cd := by decide

/-- From `space` there is no way up to the root of the volume. -/
theorem cd_up_stays : ¬ Along cdStep Follows shellInit [upLine, upLine] := by
  rintro ⟨_, sh1, e1, _, _, sh2, e2, ⟨dir, _⟩, _⟩
  have run : (exec cdStep shellInit [upLine, upLine]).toOption.map (fun sh =>
      (components slash (strOf sh.current), sh.dir)) = some ([text "space"], []) := by
    decide +kernel
  rw [exec_cons e1, exec_cons e2] at run
  have eq := Option.some.inj run
  rw [Prod.mk.injEq, dir] at eq
  rw [eq.2] at eq
  cases eq.1

end TRS.Terminal
