import TRS.Terminal.Tokens

/-!
# The tokenizer and its grammar

`Lexed` is the grammar of a command line, as text: tokens in quotes and plain tokens between blanks.
The loop of `command_parser` finds its first 16 tokens, and cuts them out of the line in place.

* `exists_tokens`, `Lexed.unique`: every line has tokens by the grammar, and no others.
* `Lexed.tokens_eq`: they are those that the loop reads off the line.
* `parseArgs_prefix`: the loop finds the first ones of them.

The headline `tokenizer_accepts_grammar` joins this with `commandParser_spec`; the line is taken
apart token by token, by induction on its length.
-/

namespace TRS.Terminal
open TRS.Lib TRS.Libc

/-- The text consists of blanks. -/
def Blank (s : List Byte) : Prop := ∀ c ∈ s, isBlank c = true

/-- A line and its tokens. A token that starts with a quote goes up to the next quote, or else to
    the end of the line; any other token goes up to the next blank, or else to the end of the
    line. -/
inductive Lexed : List Byte → List (List Byte) → Prop where
  | blank {seps} : Blank seps → Lexed seps []
  | quoted {seps tok after ts} : Blank seps → quote ∉ tok → Lexed after ts →
    Lexed (seps ++ quote :: (tok ++ quote :: after)) (tok :: ts)
  | unclosed {seps tok} : Blank seps → quote ∉ tok → Lexed (seps ++ quote :: tok) [tok]
  | word {seps c tok after ts} : Blank seps → c ≠ quote → (∀ b ∈ c :: tok, isBlank b = false) →
    (∀ b ∈ after.head?, isBlank b = true) → Lexed after ts →
    Lexed (seps ++ (c :: tok ++ after)) ((c :: tok) :: ts)

/-! ## The array `argv` -/

/-- `argv[i] = p`, with `none` for `NULL`. -/
def storeArg (argv : List (Option Nat)) (i : Nat) (p : Option Nat) :
    Except Fault (List (Option Nat)) :=
  if i < argv.length then .ok (argv.set i p) else .error .bounds

/-- The loop of `command_parser` with the array `argv`, and room for `n` more tokens. -/
def argLoop : (n : Nat) → (line : List Byte) → (com argc : Nat) → (argv : List (Option Nat)) →
    Except Fault (List Byte × Nat × List (Option Nat))
  | 0, line, _, argc, argv => .ok (line, argc, argv)
  | n + 1, line, com, argc, argv => do
    let arg ← nextArg line com
    match arg with
    | none => .ok (line, argc, argv)
    | some (start, com) =>
      let argv ← storeArg argv argc (some start)
      let c ← deref (line.drop com)
      if c ≠ 0#8 then argLoop n (line.set com 0#8) (com + 1) (argc + 1) argv
      else argLoop n line com (argc + 1) argv

/-- `command_parser` from `argc = 0` to `argv[argc] = NULL`. -/
def splitLine (line : List Byte) (argv : List (Option Nat)) :
    Except Fault (List Byte × Nat × List (Option Nat)) := do
  let (line, argc, argv) ← argLoop argMax line 0 0 argv
  let argv ← storeArg argv argc none
  return (line, argc, argv)

/-- The array holds the tokens found so far; its other slots are as they were. -/
lemma argLoop_spec (n : Nat) (line : List Byte) (com : Nat) (found : List Nat)
    {rest : List (Option Nat)} (room : n ≤ rest.length) {line' : List Byte} {argv' : List Nat}
    (parse : parseArgs n line com found = .ok (line', argv')) :
    ∃ more, argv' = found ++ more ∧ more.length ≤ n ∧
      argLoop n line com found.length (found.map some ++ rest) =
        .ok (line', argv'.length, argv'.map some ++ rest.drop more.length) := by
  induction n generalizing line com found rest with
  | zero =>
    cases parse
    exact ⟨[], (List.append_nil _).symm, Nat.le_refl 0, rfl⟩
  | succ n ih =>
    rw [parseArgs] at parse
    rw [argLoop]
    cases e : nextArg line com with
    | error f =>
      rw [e] at parse
      cases parse
    | ok arg =>
      rw [e] at parse
      cases arg with
      | none =>
        cases parse
        exact ⟨[], (List.append_nil _).symm, Nat.zero_le _, rfl⟩
      | some at_ =>
        obtain ⟨start, com'⟩ := at_
        rw [ok_bind] at parse ⊢
        dsimp only at parse ⊢
        obtain ⟨slot, rest, rfl⟩ : ∃ slot rest', rest = slot :: rest' := by
          cases rest with
          | nil => cases room
          | cons slot rest => exact ⟨slot, rest, rfl⟩
        have stored : storeArg (found.map some ++ slot :: rest) found.length (some start) =
            .ok ((found ++ [start]).map some ++ rest) := by
          rw [storeArg, if_pos (by simp)]
          simp
        have next : ∀ line com, parseArgs n line com (found ++ [start]) = .ok (line', argv') →
            ∃ more, argv' = found ++ more ∧ more.length ≤ n + 1 ∧
              argLoop n line com (found.length + 1) ((found ++ [start]).map some ++ rest) =
                .ok (line', argv'.length,
                  argv'.map some ++ (slot :: rest).drop more.length) := by
          intro line com parse
          obtain ⟨more, argv, few, loop⟩ := ih line com _ (Nat.le_of_succ_le_succ room) parse
          rw [List.length_append] at loop
          refine ⟨start :: more, ?_, Nat.succ_le_succ few, loop⟩
          rw [argv, List.append_assoc]
          rfl
        rw [stored, ok_bind]
        cases e' : deref (line.drop com') with
        | error f =>
          rw [e'] at parse
          cases parse
        | ok c =>
          rw [e', ok_bind] at parse
          rw [ok_bind]
          split at parse
          · rw [if_pos ‹_›]
            exact next _ _ parse
          · rw [if_neg ‹_›]
            exact next _ _ parse

/-- The tokenizer leaves the pointers in the array and `NULL` behind them. -/
lemma splitLine_spec {line line' : List Byte} {found : List Nat} {slots : List (Option Nat)}
    (size : slots.length = argMax + 1) (parse : parseArgs argMax line 0 [] = .ok (line', found)) :
    ∃ argv, splitLine line slots = .ok (line', found.length, argv) ∧ found.length ≤ argMax ∧
      argv.take found.length = found.map some ∧ argv[found.length]? = some none := by
  have slot : argMax ≤ slots.length := Nat.le_of_succ_le (Nat.le_of_eq size.symm)
  obtain ⟨more, same, few, loop⟩ := argLoop_spec argMax line 0 [] slot parse
  rw [List.nil_append] at same
  subst same
  rw [List.length_nil, List.map_nil, List.nil_append] at loop
  -- the sixteen tokens at most leave a slot for `NULL`
  have room : found.length < (found.map some ++ slots.drop found.length).length := by
    rw [List.length_append, List.length_map, List.length_drop, size]
    omega
  have stored : storeArg (found.map some ++ slots.drop found.length) found.length none =
      .ok ((found.map some ++ slots.drop found.length).set found.length none) := if_pos room
  refine ⟨(found.map some ++ slots.drop found.length).set found.length none, ?_, few, ?_, ?_⟩
  · unfold splitLine
    rw [loop, ok_bind]
    dsimp only
    rw [stored, ok_bind]
    rfl
  · rw [List.take_set_of_le (Nat.le_refl _),
      List.take_append_of_le_length (Nat.le_of_eq (List.length_map some).symm)]
    exact List.take_of_length_le (Nat.le_of_eq (List.length_map some))
  · exact List.getElem?_set_self room

/-- More rounds of the tokenizer leave the pointers found so far. -/
lemma parseArgs_prefix (n m : Nat) {line : List Byte} {com : Nat} {argv : List Nat}
    {line₁ line₂ : List Byte} {argv₁ argv₂ : List Nat}
    (some_ : parseArgs n line com argv = .ok (line₁, argv₁))
    (more : parseArgs (n + m) line com argv = .ok (line₂, argv₂)) : argv₁ <+: argv₂ := by
  induction n generalizing line com argv with
  | zero =>
    have room : 0 + m ≤ (List.replicate (0 + m) (none : Option Nat)).length :=
      Nat.le_of_eq List.length_replicate.symm
    obtain ⟨found, e, _⟩ := argLoop_spec _ line com argv room more
    cases some_
    exact ⟨found, e.symm⟩
  | succ n ih =>
    rw [Nat.succ_add, parseArgs] at more
    rw [parseArgs] at some_
    cases e : nextArg line com with
    | error f =>
      rw [e] at some_
      cases some_
    | ok arg =>
      rw [e, ok_bind] at some_ more
      cases arg with
      | none =>
        cases some_
        cases more
        exact List.prefix_refl _
      | some at_ =>
        dsimp only at some_ more
        cases e' : deref (line.drop at_.2) with
        | error f =>
          rw [e'] at some_
          cases some_
        | ok c =>
          rw [e', ok_bind] at some_ more
          by_cases last : c ≠ 0#8
          · rw [if_pos last] at some_ more
            exact ih some_ more
          · rw [if_neg last] at some_ more
            exact ih some_ more

/-! ## The grammar -/

/-- A loop over bytes stops where its condition ends. -/
lemma span_run {p : Byte → Bool} {run : List Byte} (inside : ∀ b ∈ run, p b = true)
    (after : List Byte) (stop : ∀ b ∈ after.head?, p b = false) :
    (run ++ after).takeWhile p = run ∧ (run ++ after).dropWhile p = after := by
  rw [List.takeWhile_append_of_pos inside, List.dropWhile_append_of_pos inside]
  cases after with
  | nil => exact ⟨List.append_nil _, rfl⟩
  | cons b bs =>
    have out := stop b rfl
    rw [List.takeWhile_cons_of_neg (by rw [out]; exact Bool.false_ne_true),
      List.dropWhile_cons_of_neg (by rw [out]; exact Bool.false_ne_true)]
    exact ⟨List.append_nil _, rfl⟩

/-- Any bytes are split where the condition ends. -/
lemma exists_run (p : Byte → Bool) (s : List Byte) : ∃ run after, s = run ++ after ∧
    (∀ b ∈ run, p b = true) ∧ (∀ b ∈ after.head?, p b = false) := by
  refine ⟨s.takeWhile p, s.dropWhile p, List.takeWhile_append_dropWhile.symm, ?_, ?_⟩
  · exact List.all_eq_true.mp List.all_takeWhile
  · intro b mem
    have stop := List.head?_dropWhile_not p s
    rw [Option.mem_def.mp mem] at stop
    exact stop

/-- A quoted argument ends at the quote. -/
lemma token_quoted {tok : List Byte} (ne : 0#8 ∉ tok) (inside : quote ∉ tok) (after : List Byte)
    (stop : ∀ b ∈ after.head?, b = quote) : token quote (tok ++ after) = (tok, after) := by
  have run : ∀ b ∈ tok, inQuote b = true := by
    intro b mem
    have b0 : b ≠ 0#8 := fun e => ne (e ▸ mem)
    have bq : b ≠ quote := fun e => inside (e ▸ mem)
    simp [inQuote, b0, bq]
  obtain ⟨word, rest⟩ := span_run run after fun b mem => by
    rw [stop b mem]
    rfl
  rw [token, if_pos rfl, word, rest]

/-- A word ends at a blank. -/
lemma token_word {c : Byte} {tok after : List Byte} (cq : c ≠ quote) (ne : 0#8 ∉ c :: tok)
    (cr : return_ ∉ c :: tok) (inside : ∀ b ∈ c :: tok, isBlank b = false)
    (stop : ∀ b ∈ after.head?, isBlank b = true) :
    token c (tok ++ after) = (c :: tok, after) := by
  have run : ∀ b ∈ c :: tok, inWord b = true := by
    intro b mem
    have b0 : b ≠ 0#8 := fun e => ne (e ▸ mem)
    have br : b ≠ return_ := fun e => cr (e ▸ mem)
    have blank := inside b mem
    simp only [isBlank, Bool.or_eq_false_iff, beq_eq_false_iff_ne] at blank
    simp [inWord, b0, br, blank]
  obtain ⟨word, rest⟩ := span_run run after fun b mem => by
    have blank := stop b mem
    simp only [isBlank, Bool.or_eq_true, beq_iff_eq] at blank
    rcases blank with (rfl | rfl) | rfl <;> rfl
  rw [List.cons_append] at word rest
  rw [token, if_neg cq, word, rest]

/-- Blanks in front of a line do not count. -/
lemma tokens_blank {seps : List Byte} (blank : Blank seps) (n : Nat) (text : List Byte) :
    tokens n (seps ++ text) = tokens n text := by
  cases n with
  | zero => rfl
  | succ n => rw [tokens, tokens, List.dropWhile_append_of_pos blank]

/-- The first argument, and then the others. -/
lemma tokens_cons (n : Nat) {c : Byte} (cs : List Byte) (c0 : isBlank c = false) :
    tokens (n + 1) (c :: cs) = (token c cs).1 :: tokens n ((token c cs).2.drop 1) := by
  rw [tokens, List.dropWhile_cons_of_neg (by rw [c0]; exact Bool.false_ne_true)]

namespace Lexed
variable {text : List Byte} {ts : List (List Byte)}

/-- The tokens of a line by the grammar are those that `tokens` reads off it. -/
lemma tokens_eq (line : Lexed text ts) (ne : 0#8 ∉ text) (cr : return_ ∉ text) (n : Nat) :
    tokens n text = ts.take n := by
  induction line generalizing n with
  | @blank seps blank =>
    have none_ := tokens_blank blank n []
    rw [List.append_nil, tokens_nil] at none_
    rw [none_, List.take_nil]
  | @quoted seps tok after ts blank inside _ ih =>
    cases n with
    | zero => rfl
    | succ n =>
      simp only [List.mem_append, List.mem_cons, not_or] at ne cr
      rw [tokens_blank blank, tokens_cons n _ rfl,
        token_quoted ne.2.2.1 inside (quote :: after) fun b mem => by cases mem; rfl]
      exact congrArg _ (ih ne.2.2.2.2 cr.2.2.2.2 n)
  | @unclosed seps tok blank inside =>
    cases n with
    | zero => rfl
    | succ n =>
      simp only [List.mem_append, List.mem_cons, not_or] at ne
      have all := token_quoted ne.2.2 inside [] fun b mem => by cases mem
      rw [List.append_nil] at all
      rw [tokens_blank blank, tokens_cons n _ rfl, all, List.drop_nil, tokens_nil]
      exact congrArg _ List.take_nil.symm
  | @word seps c tok after ts blank cq inside stop _ ih =>
    cases n with
    | zero => rfl
    | succ n =>
      simp only [List.mem_append, not_or] at ne cr
      rw [tokens_blank blank, List.cons_append, tokens_cons n _ (inside c (.head tok)),
        token_word cq ne.2.1 cr.2.1 inside stop, List.take_succ_cons, ← ih ne.2.2 cr.2.2 n]
      refine congrArg _ ?_
      -- the blank that ends the token is one of those before the next
      cases after with
      | nil => rfl
      | cons b bs =>
        have blank : Blank [b] := List.forall_mem_singleton.mpr (stop b rfl)
        exact (tokens_blank blank n bs).symm

/-- Every line has tokens. -/
lemma exists_tokens (text : List Byte) : ∃ ts, Lexed text ts := by
  -- on the length, as a token takes at least one byte
  obtain ⟨n, le⟩ : ∃ n, text.length ≤ n := ⟨_, Nat.le_refl _⟩
  induction n generalizing text with
  | zero =>
    obtain rfl : text = [] := List.length_eq_zero_iff.mp (Nat.le_zero.mp le)
    exact ⟨[], .blank (List.forall_mem_nil _)⟩
  | succ n ih =>
    obtain ⟨seps, after, rfl, blank, stop⟩ := exists_run isBlank text
    cases after with
    | nil => exact ⟨[], (List.append_nil seps).symm ▸ .blank blank⟩
    | cons c cs =>
      simp only [List.length_append, List.length_cons] at le
      by_cases cq : c = quote
      · subst cq
        obtain ⟨tok, after, rfl, inside, stop⟩ := exists_run (· != quote) cs
        have noQuote : quote ∉ tok := fun mem => absurd (inside quote mem) (by decide)
        cases after with
        | nil => exact ⟨[tok], (List.append_nil tok).symm ▸ .unclosed blank noQuote⟩
        | cons q after =>
          obtain rfl : q = quote := by simpa using stop q rfl
          simp only [List.length_append, List.length_cons] at le
          obtain ⟨ts, line⟩ := ih after (by omega)
          exact ⟨tok :: ts, .quoted blank noQuote line⟩
      · obtain ⟨tok, after, rfl, inside, stop'⟩ := exists_run (fun b => !isBlank b) cs
        simp only [List.length_append] at le
        obtain ⟨ts, line⟩ := ih after (by omega)
        refine ⟨(c :: tok) :: ts,
          .word blank cq (List.forall_mem_cons.mpr ⟨stop c rfl, ?_⟩) ?_ line⟩
        · exact fun b mem => by simpa using inside b mem
        · exact fun b mem => by simpa using stop' b mem

/-- A line has its tokens in one way only. -/
lemma unique (line : Lexed text ts) {ts' : List (List Byte)} (line' : Lexed text ts')
    (ne : 0#8 ∉ text) (cr : return_ ∉ text) : ts' = ts := by
  have same := (line'.tokens_eq ne cr (ts.length + ts'.length)).symm.trans
    (line.tokens_eq ne cr (ts.length + ts'.length))
  rwa [List.take_of_length_le (Nat.le_add_left ..), List.take_of_length_le (Nat.le_add_right ..)]
    at same

end Lexed

/-- What `splitLine` leaves of a line with the tokens `ts`: `argv` holds pointers to the strings of
    the first 16 and then `NULL`; only bytes of the text have been overwritten; and the strings
    found by any number of rounds are still there. -/
structure Tokenized (text rest : List Byte) (ts : List (List Byte)) (line : List Byte) (argc : Nat)
    (argv : List (Option Nat)) : Prop where
  count : argc = (ts.take argMax).length
  le : argc ≤ argMax
  pointers : ∃ found, argv.take argc = found.map some ∧ PointTo line found (ts.take argMax)
  null : argv[argc]? = some none
  inside : ∃ text', text'.length = text.length ∧ line = text' ++ 0#8 :: rest
  kept : ∀ n ≤ argMax, ∃ line' found,
    parseArgs n (text ++ 0#8 :: rest) 0 [] = .ok (line', found) ∧ found.map some <+: argv ∧
      PointTo line' found (ts.take n) ∧ PointTo line found (ts.take n)

/-- The tokenizer accepts exactly its grammar: on every line without carriage returns it ends, and
    leaves the first 16 tokens that the grammar gives the line. -/
theorem tokenizer_accepts_grammar {text : List Byte} (rest : List Byte) (ne : 0#8 ∉ text)
    (cr : return_ ∉ text) {slots : List (Option Nat)} (size : slots.length = argMax + 1) :
    ∃ ts line argc argv, Lexed text ts ∧ (∀ ts', Lexed text ts' → ts' = ts) ∧
      splitLine (text ++ 0#8 :: rest) slots = .ok (line, argc, argv) ∧
      Tokenized text rest ts line argc argv := by
  obtain ⟨ts, grammar⟩ := Lexed.exists_tokens text
  have parsed : ∀ n, ∃ text' found, text'.length = text.length ∧
      parseArgs n (text ++ 0#8 :: rest) 0 [] = .ok (text' ++ 0#8 :: rest, found) ∧
      PointTo (text' ++ 0#8 :: rest) found (ts.take n) := by
    intro n
    obtain ⟨text', found, len, parse, points⟩ :=
      parseArgs_spec n [] rest ne (.nil : PointBelow _ _ [] [])
    rw [List.nil_append, grammar.tokens_eq ne cr] at points
    exact ⟨text', found, len.trans (Nat.zero_add _), parse, points⟩
  obtain ⟨text', found, len, parse, points⟩ := parsed argMax
  obtain ⟨argv, split, few, taken, null⟩ := splitLine_spec size parse
  refine ⟨ts, text' ++ 0#8 :: rest, found.length, argv, grammar,
    fun ts' line' => grammar.unique line' ne cr, split, ?_⟩
  constructor
  · exact points.length_eq
  · exact few
  · exact ⟨found, taken, points⟩
  · exact null
  · exact ⟨text', len, rfl⟩
  · intro n le
    obtain ⟨text₁, found₁, _, parse₁, points₁⟩ := parsed n
    obtain ⟨m, more⟩ := Nat.exists_eq_add_of_le le
    rw [more] at parse
    have first := parseArgs_prefix n m parse₁ parse
    refine ⟨_, _, parse₁, ?_, points₁, ?_⟩
    · have whole := List.take_prefix found.length argv
      rw [taken] at whole
      exact (first.map some).trans whole
    · -- the first pointers point to the first strings
      have part := List.forall₂_take found₁.length points
      rw [← List.prefix_iff_eq_take.mp first, points₁.length_eq, List.take_take, List.length_take,
        Nat.min_eq_left (Nat.le_trans (Nat.min_le_left ..) le), ← List.take_take,
        List.take_length] at part
      exact part

/-- A line with a quoted token, one that is not closed, and separators. -/
theorem tokenizer_accepts_grammar_quotes :
    ∃ ts line argc argv, Lexed (text " cd\t\"a b\"x \"y ") ts ∧
      (∀ ts', Lexed (text " cd\t\"a b\"x \"y ") ts' → ts' = ts) ∧
      splitLine (text " cd\t\"a b\"x \"y " ++ 0#8 :: [7#8]) (List.replicate 17 none) =
        .ok (line, argc, argv) ∧
      Tokenized (text " cd\t\"a b\"x \"y ") [7#8] ts line argc argv :=
  tokenizer_accepts_grammar [7#8] (by decide) (by decide) rfl

end TRS.Terminal
