import Mathlib.Data.List.Forall2
import TRS.Terminal.Parser

/-!
# The grammar of command lines

`tokens` reads the tokens off a line as text; the tokenizer leaves pointers to exactly these strings
(`parseArgs_ok`).

* `nextArg_token`: one argument is found and cut out of the line.
* `parseArgs_spec`: so are all, by induction on the arguments that are left.
* `commandParser_spec`: and the command is run on them.
-/

namespace TRS.Terminal
open TRS.Lib TRS.Libc

/-- The token that a text starts with, and the text behind it. -/
def token (c : Byte) (cs : List Byte) : List Byte × List Byte :=
  if c = quote then (cs.takeWhile inQuote, cs.dropWhile inQuote)
  else ((c :: cs).takeWhile inWord, (c :: cs).dropWhile inWord)

/-- The first `n` tokens of a line. -/
def tokens : (n : Nat) → List Byte → List (List Byte)
  | 0, _ => []
  | n + 1, s =>
    match s.dropWhile isBlank with
    | [] => []
    | c :: cs => (token c cs).1 :: tokens n ((token c cs).2.drop 1)

/-- An empty line has no argument. -/
lemma tokens_nil (n : Nat) : tokens n [] = [] := by
  cases n <;> rfl

/-- The pointers of `argv` point to the tokens. -/
abbrev PointTo (line : List Byte) (argv : List Nat) (ts : List (List Byte)) : Prop :=
  List.Forall₂ (fun p t => CStr (line.drop p) t) argv ts

/-- The pointers of `argv` point to tokens that end, with their NUL, before offset `n`. -/
abbrev PointBelow (line : List Byte) (n : Nat) (argv : List Nat) (ts : List (List Byte)) : Prop :=
  List.Forall₂ (fun p t => p + t.length < n ∧ CStr (line.drop p) t) argv ts

/-- Storing a NUL behind the tokens found so far keeps them. -/
lemma PointBelow.set {line : List Byte} {n m : Nat} {argv : List Nat} {ts : List (List Byte)}
    (h : PointBelow line n argv ts) (le : n ≤ m) (v : Byte) :
    PointBelow (line.set m v) (m + 1) argv ts := by
  refine h.imp fun p t hp => ⟨by omega, ?_⟩
  rw [List.drop_set, if_neg (by omega)]
  exact hp.2.set (by omega) v

/-- One more pair at the end. -/
lemma forall₂_snoc {α β : Type*} {R : α → β → Prop} {as : List α} {bs : List β} {a : α} {b : β}
    (h : List.Forall₂ R as bs) (r : R a b) : List.Forall₂ R (as ++ [a]) (bs ++ [b]) := by
  induction h with
  | nil => exact .cons r .nil
  | cons r' _ ih => exact .cons r' ih

/-- Behind its beginning is the rest. -/
lemma drop_pre {pre s : List Byte} {n : Nat} (e : n = pre.length) : (pre ++ s).drop n = s := by
  rw [e, List.drop_left]

/-- The byte that a text, or else its NUL, starts with. -/
lemma deref_text (text rest : List Byte) :
    deref (text ++ 0#8 :: rest) = .ok (text.headD 0#8) := by
  cases text <;> rfl

/-- Where the loop over the blanks ends. -/
lemma drop_blanks (pre text rest : List Byte) :
    (pre ++ (text ++ 0#8 :: rest)).drop (pre.length + (text.takeWhile isBlank).length) =
      text.dropWhile isBlank ++ 0#8 :: rest := by
  have split : text ++ 0#8 :: rest =
      text.takeWhile isBlank ++ (text.dropWhile isBlank ++ 0#8 :: rest) := by
    rw [← List.append_assoc, List.takeWhile_append_dropWhile]
  rw [← List.drop_drop, drop_pre rfl, split, drop_pre rfl]

/-- A round of the tokenizer passes the blanks; at the end of the text it stops. -/
lemma nextArg_blank (pre rest : List Byte) {text : List Byte} (end_ : text.dropWhile isBlank = []) :
    nextArg (pre ++ (text ++ 0#8 :: rest)) pre.length = .ok none := by
  have here := drop_blanks pre text rest
  rw [end_] at here
  unfold nextArg
  rw [drop_pre rfl, deref_text, ok_bind, span_append rfl, ok_bind]
  dsimp only
  rw [here, List.nil_append, deref, ok_bind, if_pos rfl, ite_self]

/-- A round of the tokenizer finds the token that the text behind the blanks starts with. -/
lemma nextArg_token (pre rest : List Byte) {text cs : List Byte} {c : Byte} (ne : 0#8 ∉ text)
    (split : text.dropWhile isBlank = c :: cs) :
    ∃ before, pre.length ≤ before.length ∧
      pre ++ text = before ++ ((token c cs).1 ++ (token c cs).2) ∧
      nextArg (pre ++ (text ++ 0#8 :: rest)) pre.length =
        .ok (some (before.length, before.length + (token c cs).1.length)) := by
  have here := drop_blanks pre text rest
  have whole : text = text.takeWhile isBlank ++ c :: cs := by
    rw [← split, List.takeWhile_append_dropWhile]
  have c0 : c ≠ 0#8 := by
    rintro rfl
    rw [whole] at ne
    exact ne (List.mem_append_right _ (.head cs))
  have d0 : text.headD 0#8 ≠ 0#8 := by
    cases text with
    | nil => cases split
    | cons d ds => exact fun e => ne (e ▸ .head ds)
  -- up to the first byte behind the blanks, quoted and plain words are read alike
  have first : nextArg (pre ++ (text ++ 0#8 :: rest)) pre.length =
      (do
        let at_ := pre.length + (text.takeWhile isBlank).length
        let start := if c = quote then at_ + 1 else at_
        let k ← span (if c = quote then inQuote else inWord)
          ((pre ++ (text ++ 0#8 :: rest)).drop start)
        return some (start, start + k)) := by
    unfold nextArg
    rw [drop_pre rfl, deref_text, ok_bind, if_neg d0, span_append rfl, ok_bind]
    dsimp only
    rw [here, split, List.cons_append, deref, ok_bind, if_neg c0]
  rw [first]
  unfold token
  by_cases q : c = quote
  · refine ⟨pre ++ text.takeWhile isBlank ++ [c], ?_, ?_, ?_⟩
    · rw [List.append_assoc, List.length_append]
      exact Nat.le_add_right ..
    · rw [if_pos q, List.takeWhile_append_dropWhile]
      conv => lhs; rw [whole]
      simp
    · have after : (pre ++ (text ++ 0#8 :: rest)).drop
          (pre.length + (text.takeWhile isBlank).length + 1) = cs ++ 0#8 :: rest := by
        rw [← List.drop_drop, here, split]
        rfl
      simp only [if_pos q, after, span_append (show inQuote 0#8 = false from rfl), ok_bind,
        List.length_append, List.length_cons, List.length_nil]
      rfl
  · refine ⟨pre ++ text.takeWhile isBlank, ?_, ?_, ?_⟩
    · rw [List.length_append]
      exact Nat.le_add_right ..
    · rw [if_neg q, List.takeWhile_append_dropWhile]
      conv => lhs; rw [whole]
      simp
    · simp only [if_neg q, here, split, span_append (show inWord 0#8 = false from rfl), ok_bind,
        List.length_append]
      rfl

/-- A token and the text behind it hold no NUL. -/
lemma token_no_nul {c : Byte} {cs : List Byte} (ne : 0#8 ∉ c :: cs) :
    0#8 ∉ (token c cs).1 ∧ 0#8 ∉ (token c cs).2 := by
  unfold token
  split
  · refine ⟨fun m => ne (.tail c ?_), fun m => ne (.tail c ?_)⟩
    · exact (List.takeWhile_sublist _).subset m
    · exact (List.dropWhile_sublist _).subset m
  · refine ⟨fun m => ne ?_, fun m => ne ?_⟩
    · exact (List.takeWhile_sublist _).subset m
    · exact (List.dropWhile_sublist _).subset m

/-- At the NUL the arguments are complete. -/
lemma parseArgs_end (n : Nat) {pre : List Byte} (rest : List Byte) (argv : List Nat) :
    parseArgs n (pre ++ 0#8 :: rest) pre.length argv = .ok (pre ++ 0#8 :: rest, argv) := by
  cases n with
  | zero => rfl
  | succ n =>
    have none_ := nextArg_blank pre rest (show [].dropWhile isBlank = [] from rfl)
    rw [List.nil_append] at none_
    rw [parseArgs, none_]
    rfl

/-- The tokenizer leaves pointers to the tokens of the text, and writes inside the text only. -/
lemma parseArgs_spec (n : Nat) (pre rest : List Byte) {text : List Byte} {argv : List Nat}
    {ts : List (List Byte)} (ne : 0#8 ∉ text)
    (found : PointBelow (pre ++ (text ++ 0#8 :: rest)) pre.length argv ts) :
    ∃ text' argv', text'.length = pre.length + text.length ∧
      parseArgs n (pre ++ (text ++ 0#8 :: rest)) pre.length argv =
        .ok (text' ++ 0#8 :: rest, argv') ∧
      PointTo (text' ++ 0#8 :: rest) argv' (ts ++ tokens n text) := by
  -- on the number of arguments left; `pre` is the part of the line that the tokenizer is behind
  induction n generalizing pre text argv ts with
  | zero =>
    refine ⟨pre ++ text, _, List.length_append, by rw [List.append_assoc]; rfl, ?_⟩
    rw [tokens, List.append_nil, List.append_assoc]
    exact found.imp fun p t h => h.2
  | succ n ih =>
    rw [parseArgs, tokens]
    cases split : text.dropWhile isBlank with
    | nil =>
      refine ⟨pre ++ text, _, List.length_append,
        by rw [nextArg_blank pre rest split, List.append_assoc]; rfl, ?_⟩
      rw [List.append_nil, List.append_assoc]
      exact found.imp fun p t h => h.2
    | cons c cs =>
      obtain ⟨before, le, parts, next⟩ := nextArg_token pre rest ne split
      have nb : 0#8 ∉ c :: cs := fun m => ne ((List.dropWhile_sublist _).subset (split ▸ m))
      obtain ⟨nw, na⟩ := token_no_nul nb
      rw [next, ok_bind]
      dsimp only
      generalize token c cs = tk at parts nw na ⊢
      obtain ⟨word, after⟩ := tk
      dsimp only at parts nw na ⊢
      have line : pre ++ (text ++ 0#8 :: rest) = before ++ word ++ (after ++ 0#8 :: rest) := by
        rw [← List.append_assoc, parts]
        simp
      have len : before.length + word.length = (before ++ word).length := List.length_append.symm
      have size : pre.length + text.length = before.length + word.length + after.length := by
        have := congrArg List.length parts
        simp only [List.length_append] at this
        omega
      rw [line] at found ⊢
      rw [size]
      rw [len, drop_pre rfl, deref_text, ok_bind]
      cases after with
      | nil =>
        -- the token ends the text, and no byte of it is overwritten
        rw [if_neg (by simp), List.nil_append, parseArgs_end, List.drop_nil, tokens_nil]
        refine ⟨before ++ word, _, rfl, rfl,
          forall₂_snoc (found.imp fun p t h => h.2) ⟨nw, rest, ?_⟩⟩
        rw [List.append_assoc, drop_pre rfl]
      | cons d after =>
        have d0 : d ≠ 0#8 := fun e => na (e ▸ .head after)
        rw [List.headD_cons, if_pos d0]
        -- the byte behind the token becomes its NUL, past all that the pointers so far point to
        have line' :
            (before ++ word ++ (d :: after ++ 0#8 :: rest)).set (before ++ word).length 0#8 =
              before ++ word ++ [0#8] ++ (after ++ 0#8 :: rest) := by
          simp
        have found' := found.set (m := (before ++ word).length) (by rw [← len]; omega) 0#8
        rw [line'] at found' ⊢
        have len' : (before ++ word).length + 1 = (before ++ word ++ [0#8]).length :=
          (List.length_append : (before ++ word ++ [0#8]).length = _).symm
        rw [len'] at found' ⊢
        have points' := forall₂_snoc found' (a := before.length) (b := word)
          ⟨by simp, nw, after ++ 0#8 :: rest, by simp⟩
        obtain ⟨l, as, size', e, points⟩ := ih _ (fun m => na (.tail d m)) points'
        refine ⟨l, as, ?_, e, ?_⟩
        · simp only [List.length_append, List.length_cons, List.length_nil] at size' ⊢
          omega
        · rw [List.append_assoc] at points
          exact points

/-- `command_parser` runs the tokens of its line. -/
lemma commandParser_spec (current : List Byte) {text : List Byte} (rest : List Byte)
    (ne : 0#8 ∉ text) :
    (tokens argMax text = [] ∧
      commandParser current (text ++ 0#8 :: rest) = .ok ([], current)) ∨
    ∃ t ts a0 a1, tokens argMax text = t :: ts ∧ CStr a0 t ∧ (∀ t1 ∈ ts.head?, CStr a1 t1) ∧
      commandParser current (text ++ 0#8 :: rest) = runArgs current (ts.length + 1) a0 a1 := by
  unfold commandParser
  rw [deref_text, ok_bind]
  by_cases e : text.headD 0#8 = 0#8
  · cases text with
    | nil => exact .inl ⟨tokens_nil _, rfl⟩
    | cons c cs => exact absurd (e ▸ .head cs) ne
  · rw [if_neg e]
    obtain ⟨text', argv', _, parse, points⟩ :=
      parseArgs_spec argMax [] rest ne (.nil : PointBelow _ _ [] [])
    rw [List.nil_append, List.length_nil] at parse
    rw [List.nil_append] at points
    rw [parse, ok_bind]
    generalize tokens argMax text = ts at points ⊢
    cases points with
    | nil => exact .inl ⟨rfl, rfl⟩
    | cons p ps =>
      refine .inr ⟨_, _, _, _, rfl, p, ?_, by rw [← ps.length_eq]⟩
      cases ps with
      | nil => exact fun t m => by cases m
      | cons q _ =>
        intro t m
        cases m
        exact q

end TRS.Terminal
