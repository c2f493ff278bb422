import TRS.Fat.Chain

/-!
# The chains of the files stay apart

Whatever files are created, extended and removed, and whatever transfers of the disk fail, every
other file keeps exactly its clusters, and the disk itself always holds an intact chain for it.

* `create_apart`, `stretch_apart`, `stray_apart`: the tables that a call leaves, over `Apart`.
* `create_during`, `stretch_during`, `remove_during`: and those in between its puts.
* `Sound.create`, `Sound.stretch`, `Sound.remove`: each call keeps the files apart (`Keeps`).
* `track_keeps`, `run_keeps`: so does any call, and any run of calls.

The headline `chains_stay_apart` is the run; `Keeps.trans` joins its calls.
-/

namespace TRS.Fat
open TRS.Lib TRS.Lib.Program

/-! ## Puts on the table -/

section Table
variable {fat : FatFs} {t : Nat → Nat} {ι : Type} {files : ι → Option (List Nat)} {i j : ι}
  {l l' : List Nat} {c p : Nat}

/-- The cells of a table with a new item. -/
lemma FatFs.cell_update (fat : FatFs) (t : Nat → Nat) (c val : Nat) :
    fat.cell ∘ Function.update t c val = Function.update (fat.cell ∘ t) c (fat.cell val) :=
  Function.comp_update ..

lemma FatFs.cell_eoc (fat : FatFs) : fat.cell 0x0FFFFFFF = .last := rfl

/-- The item that links a cluster is a link to it. -/
lemma FatFs.Layout.cell_next (lay : fat.Layout) (two : 2 ≤ c) (lt : c < fat.clustCnt) :
    fat.cell c = .next c := by
  have := lay.small
  unfold FatFs.cell
  rw [if_neg (by omega), if_neg (by omega), if_neg (by omega), if_pos ⟨two, lt⟩]

/-- The table has a chain that starts with the clusters `l`. -/
def FatFs.Has (fat : FatFs) (t : Nat → Nat) (l : List Nat) : Prop :=
  ∃ l', Chain (fat.cell ∘ t) l' ∧ l <+: l'

/-- A table with the chains of the files has each of them, and its beginnings. -/
lemma FatFs.Has.of_apart (h : Apart (fat.cell ∘ t) files) (e : files i = some l') (sub : l <+: l') :
    fat.Has t l :=
  ⟨l', h.chain i l' e, sub⟩

/-- The table with a new first cluster. -/
lemma create_apart [DecidableEq ι] (h : Apart (fat.cell ∘ t) files)
    (free : fat.cell (t c) = .free) :
    Apart (fat.cell ∘ applyWrites (Fs.takePuts 0 c) t) (Function.update files i (some [c])) := by
  have created := h.create (i := i) free
  rwa [← fat.cell_eoc, ← FatFs.cell_update] at created

/-- The table with a file that has been extended. -/
lemma stretch_apart [DecidableEq ι] (lay : fat.Layout) (h : Apart (fat.cell ∘ t) files)
    (free : fat.cell (t c) = .free) (two : 2 ≤ c) (lt : c < fat.clustCnt) (pos : p ≠ 0)
    (e : files i = some (l ++ [p])) :
    Apart (fat.cell ∘ applyWrites (Fs.takePuts p c) t)
      (Function.update files i (some (l ++ [p] ++ [c]))) := by
  have grown := h.stretch free e
  rw [← lay.cell_next two lt, ← fat.cell_eoc, ← FatFs.cell_update, ← FatFs.cell_update] at grown
  rw [Fs.takePuts, if_pos pos]
  exact grown

/-- While a cluster is taken, until it is linked, the files stay as they are. -/
lemma stray_apart (h : Apart (fat.cell ∘ t) files) (free : fat.cell (t c) = .free) :
    Apart (fat.cell ∘ applyWrites [(c, 0x0FFFFFFF)] t) files := by
  have stray := h.stray free (fat.cell 0x0FFFFFFF)
  rwa [← FatFs.cell_update] at stray

/-- At every moment of taking a first cluster, every file has its chain. -/
lemma create_during (h : Apart (fat.cell ∘ t) files) (free : fat.cell (t c) = .free)
    (e : files i = some l) (k : Nat) : fat.Has (applyWrites ((Fs.takePuts 0 c).take k) t) l := by
  cases k with
  | zero => exact .of_apart h e (List.prefix_refl l)
  | succ k =>
    rw [Fs.takePuts, List.take_succ_cons, if_neg (not_not.mpr rfl), List.take_nil]
    exact .of_apart (stray_apart h free) e (List.prefix_refl l)

/-- And at every moment of extending one of them. -/
lemma stretch_during [DecidableEq ι] (lay : fat.Layout) (h : Apart (fat.cell ∘ t) files)
    (free : fat.cell (t c) = .free) (two : 2 ≤ c) (lt : c < fat.clustCnt) (pos : p ≠ 0)
    (e : files i = some (l ++ [p])) (e' : files j = some l') (k : Nat) :
    fat.Has (applyWrites ((Fs.takePuts p c).take k) t) l' := by
  match k with
  | 0 => exact .of_apart h e' (List.prefix_refl l')
  | 1 => exact .of_apart (stray_apart h free) e' (List.prefix_refl l')
  | k + 2 =>
    have all : (Fs.takePuts p c).take (k + 2) = Fs.takePuts p c := by
      rw [Fs.takePuts, if_pos pos]
      exact List.take_of_length_le (Nat.le_add_left ..)
    have grown := stretch_apart lay h free two lt pos e
    rw [all]
    by_cases same : j = i
    · subst same
      rw [e] at e'
      cases e'
      exact .of_apart grown (Function.update_self ..) (List.prefix_append _ _)
    · exact .of_apart grown ((Function.update_of_ne same ..).trans e') (List.prefix_refl l')

/-- At every moment of removing a file, the other ones have their chains. -/
lemma remove_during [DecidableEq ι] (h : Apart (fat.cell ∘ t) files) (e : files i = some l)
    (e' : files j = some l') (ne : j ≠ i) {l₁ l₂ : List Nat} (split : l = l₁ ++ l₂) :
    fat.Has (applyWrites (l₁.map (·, 0)) t) l' := by
  have same : ∀ a ∉ l,
      (fat.cell ∘ applyWrites (l₁.map (·, 0)) t) a = (fat.cell ∘ t) a := fun a out => by
    rw [Function.comp_apply, applyWrites_other]
    · rfl
    · intro q mem
      obtain ⟨b, mem_b, rfl⟩ := List.mem_map.mp mem
      rintro rfl
      exact out (split ▸ List.mem_append_left _ mem_b)
  have removed := h.remove e same
  exact .of_apart removed ((Function.update_of_ne ne ..).trans e') (List.prefix_refl l')

end Table

/-! ## Calls -/

namespace Fs
variable {σ ι : Type} (ops : Device σ Sect)

/-- The table is sound, and the chains of the files are apart. -/
structure Sound (s : Fs σ) (files : ι → Option (List Nat)) : Prop where
  layout : s.fat.Layout
  coherent : s.Coherent ops
  reserved : ∀ c < 2, s.cells ops c ≠ .free
  apart : Apart (s.cells ops) files
  two : ∀ i l, files i = some l → ∀ c ∈ l, 2 ≤ c

variable {ops} {s t : Fs σ} {files files' : ι → Option (List Nat)} {i j : ι} {l l' : List Nat}
  {fuel : Nat}

/-- What a call keeps: the files stay apart, every file but those `gone` keeps its clusters, and it
    has them after each of the puts of the call. -/
structure Keeps (ops : Device σ Sect) (s : Fs σ) (files : ι → Option (List Nat)) (gone : ι → Prop)
    (t : Fs σ) (files' : ι → Option (List Nat)) : Prop where
  sound : Sound ops t files'
  grow : ∀ j l, files j = some l → ¬ gone j → ∃ l', files' j = some l' ∧ l <+: l'
  puts : ∃ ps torn, Puts ops s ps torn t ∧
    ∀ k j l, files j = some l → ¬ gone j → s.fat.Has (applyWrites (ps.take k) (s.table ops)) l

/-- A free cluster is not a reserved one. -/
lemma Sound.two_le (h : Sound ops s files) {c : Nat} (free : s.cells ops c = .free) : 2 ≤ c := by
  by_contra lt
  exact h.reserved c (by omega) free

/-- Clusters have valid numbers. -/
lemma Sound.lt (h : Sound ops s files) (e : files i = some l) {c : Nat} (mem : c ∈ l) :
    c < s.fat.clustCnt := by
  have ne : s.cells ops c ≠ .bad := by
    obtain ⟨_, _, _, chain⟩ := (h.apart.chain i l e).from_mem mem
    cases chain with
    | last e => simp [e]
    | next e _ => simp [e]
  exact lt_of_cells ne

/-- Puts at clusters from 2 on keep all but the chains. -/
lemma Sound.of_puts (h : Sound ops s files) {ps : List (Nat × Nat)} {torn : List Nat}
    (puts : Puts ops s ps torn t) (two : ∀ q ∈ ps, 2 ≤ q.1)
    (apart : Apart (s.fat.cell ∘ applyWrites ps (s.table ops)) files')
    (two' : ∀ i l, files' i = some l → ∀ c ∈ l, 2 ≤ c) : Sound ops t files' where
  layout := puts.layout h.layout
  coherent := puts.coherent h.coherent
  reserved c lt := by
    rw [puts.cells_other c fun q mem => by have := two q mem; omega]
    exact h.reserved c lt
  apart := by
    rw [puts.cells_eq]
    exact apart
  two := two'

/-- A call that finds no such file, or one that exists already, does nothing. -/
lemma Keeps.refl (h : Sound ops s files) (gone : ι → Prop) : Keeps ops s files gone s files :=
  ⟨h, fun _ l e _ => ⟨l, e, List.prefix_refl l⟩, [], [], .of_moves (.refl s), fun k j l e _ => by
    rw [List.take_nil]
    exact .of_apart h.apart e (List.prefix_refl l)⟩

/-- What keeps all files but some keeps all but more. -/
lemma Keeps.mono {gone gone' : ι → Prop} (h : Keeps ops s files gone t files')
    (sub : ∀ i, gone i → gone' i) : Keeps ops s files gone' t files' := by
  obtain ⟨ps, torn, puts, during⟩ := h.puts
  exact ⟨h.sound, fun j l e ne => h.grow j l e fun g => ne (sub j g), ps, torn, puts,
    fun k j l e ne => during k j l e fun g => ne (sub j g)⟩

/-- The step from one state to the next one, and from there. -/
lemma Keeps.trans {u : Fs σ} {files'' : ι → Option (List Nat)} {gone : ι → Prop}
    (first : Keeps ops s files gone t files') (second : Keeps ops t files' gone u files'') :
    Keeps ops s files gone u files'' := by
  obtain ⟨ps, torn, puts, during⟩ := first.puts
  obtain ⟨ps', torn', puts', during'⟩ := second.puts
  refine ⟨second.sound, fun j l e ne => ?_, ps ++ ps', torn ++ torn', puts.trans puts',
    fun k j l e ne => ?_⟩
  · obtain ⟨l', e', sub⟩ := first.grow j l e ne
    obtain ⟨l'', e'', sub'⟩ := second.grow j l' e' ne
    exact ⟨l'', e'', sub.trans sub'⟩
  · by_cases le : k ≤ ps.length
    · rw [List.take_append_of_le_length le]
      exact during k j l e ne
    · obtain ⟨l', e', sub⟩ := first.grow j l e ne
      obtain ⟨l'', chain, sub'⟩ := during' (k - ps.length) j l' e' ne
      have same : t.fat.cell = s.fat.cell := by
        funext val
        unfold FatFs.cell
        rw [puts.clustCnt]
      rw [puts.table_eq, ← applyWrites_append, same] at chain
      refine ⟨l'', ?_, sub.trans sub'⟩
      rw [List.take_append, List.take_of_length_le (by omega)]
      exact chain

variable [DecidableEq ι]

/-- A first cluster is taken, or lost. -/
lemma Sound.create (h : Sound ops s files) {c k : Nat} {torn : List Nat}
    (free : k ≠ 0 → s.cells ops c = .free) (puts : Puts ops s ((takePuts 0 c).take k) torn t) :
    Keeps ops s files (fun _ => False) t files ∧
      (k ≠ 0 → files i = none →
        Keeps ops s files (fun _ => False) t (Function.update files i (some [c]))) := by
  cases k with
  | zero =>
    have sound := h.of_puts puts nofun h.apart h.two
    refine ⟨⟨sound, fun j l e _ => ⟨l, e, List.prefix_refl l⟩, _, _, puts, fun k j l e _ => ?_⟩,
      fun ne => absurd rfl ne⟩
    rw [List.take_zero, List.take_nil]
    exact .of_apart h.apart e (List.prefix_refl l)
  | succ k =>
    have free := free (Nat.succ_ne_zero k)
    have two := h.two_le free
    have all : (takePuts 0 c).take (k + 1) = takePuts 0 c := by
      rw [takePuts, if_neg (not_not.mpr rfl)]
      exact List.take_of_length_le (Nat.le_add_left ..)
    rw [all] at puts
    have at_c : ∀ q ∈ takePuts 0 c, 2 ≤ q.1 := by
      intro q mem
      rw [takePuts, if_neg (not_not.mpr rfl), List.mem_singleton] at mem
      rw [mem]
      exact two
    have during : ∀ k j l, files j = some l → ¬ False →
        s.fat.Has (applyWrites ((takePuts 0 c).take k) (s.table ops)) l :=
      fun k j l e _ => create_during h.apart free e k
    refine ⟨⟨h.of_puts puts at_c ?_ h.two, fun j l e _ => ⟨l, e, List.prefix_refl l⟩, _, _, puts,
      during⟩, fun _ none_ => ⟨h.of_puts puts at_c (create_apart h.apart free) ?_, ?_, _, _, puts,
      during⟩⟩
    · rw [takePuts, if_neg (not_not.mpr rfl)]
      exact stray_apart h.apart free
    · intro j l e
      by_cases same : j = i
      · rw [same, Function.update_self] at e
        cases e
        intro d mem
        rw [List.mem_singleton.mp mem]
        exact two
      · rw [Function.update_of_ne same] at e
        exact h.two j l e
    · intro j l e _
      have ne : j ≠ i := by
        rintro rfl
        rw [none_] at e
        cases e
      exact ⟨l, (Function.update_of_ne ne ..).trans e, List.prefix_refl l⟩

/-- The clusters of a file after `stretch_chain`, which may have failed. -/
def regrown (ops : Device σ Sect) (t : Fs σ) (l : List Nat) : List Nat :=
  match l.getLast?.map (t.cells ops) with
  | some (.next c) => l ++ [c]
  | _ => l

/-- Where both puts have arrived, the last cluster of the file leads to the new one. -/
lemma regrown_of_puts {c p : Nat} {torn : List Nat} (lay : s.fat.Layout) (two : 2 ≤ c)
    (lt : c < s.fat.clustCnt) (pos : p ≠ 0) (puts : Puts ops s (takePuts p c) torn t) :
    regrown ops t (l ++ [p]) = l ++ [p] ++ [c] := by
  have linked : t.cells ops p = .next c := by
    rw [puts.cells_eq, takePuts, if_pos pos]
    exact (congrArg _ (Function.update_self ..)).trans (lay.cell_next two lt)
  rw [regrown, List.getLast?_concat, Option.map_some, linked]

/-- A file is extended, or a cluster is lost, or nothing happens. -/
lemma Sound.stretch (h : Sound ops s files) {c p k : Nat} {torn : List Nat}
    (e : files i = some (l ++ [p])) (lt : c < s.fat.clustCnt) (free : k ≠ 0 → s.cells ops c = .free)
    (puts : Puts ops s ((takePuts p c).take k) torn t) :
    Keeps ops s files (fun _ => False) t
      (Function.update files i (some (regrown ops t (l ++ [p])))) := by
  have two_p : 2 ≤ p := h.two i _ e p (by simp)
  have pos : p ≠ 0 := by omega
  have last : s.cells ops p = .last := (h.apart.chain i _ e).last_eq
  have whole : takePuts p c = [(c, 0x0FFFFFFF), (p, c)] := by rw [takePuts, if_pos pos]
  have stay : t.cells ops p = s.cells ops p → Function.update files i
      (some (regrown ops t (l ++ [p]))) = files := by
    intro same
    rw [regrown, List.getLast?_concat, Option.map_some, same, last, ← e]
    exact Function.update_eq_self ..
  cases k with
  | zero =>
    have same := puts.cells_other p (List.forall_mem_nil _)
    rw [stay same]
    exact (h.create (i := i) (c := c) (k := 0) free puts).1
  | succ k =>
    have c_free := free (Nat.succ_ne_zero k)
    cases k with
    | zero =>
      have ne : c ≠ p := by
        rintro rfl
        rw [c_free] at last
        cases last
      have same := puts.cells_other p (by simpa [whole] using ne)
      rw [stay same]
      have none_ : (takePuts p c).take 1 = (takePuts 0 c).take 1 := rfl
      rw [none_] at puts
      exact (h.create (i := i) (fun _ => c_free) puts).1
    | succ k =>
      have two := h.two_le c_free
      have all : (takePuts p c).take (k + 2) = takePuts p c := by
        rw [whole]
        exact List.take_of_length_le (Nat.le_add_left ..)
      rw [all] at puts
      have grown : regrown ops t (l ++ [p]) = l ++ [p] ++ [c] :=
        regrown_of_puts h.layout two lt pos puts
      rw [grown]
      refine ⟨h.of_puts puts ?_ (stretch_apart h.layout h.apart c_free two lt pos e) ?_, ?_, _, _,
        puts, fun k j l' e' _ => stretch_during h.layout h.apart c_free two lt pos e e' k⟩
      · intro q mem
        rw [whole] at mem
        rcases List.mem_cons.mp mem with rfl | mem
        · exact two
        · rw [List.mem_singleton.mp mem]
          exact two_p
      · intro j l' e'
        by_cases same : j = i
        · rw [same, Function.update_self] at e'
          cases e'
          intro d mem
          rcases List.mem_append.mp mem with mem | mem
          · exact h.two i _ e d mem
          · rw [List.mem_singleton.mp mem]
            exact two
        · rw [Function.update_of_ne same] at e'
          exact h.two j l' e'
      · intro j l' e' _
        by_cases same : j = i
        · subst same
          rw [e] at e'
          cases e'
          exact ⟨_, Function.update_self .., List.prefix_append _ _⟩
        · exact ⟨l', (Function.update_of_ne same ..).trans e', List.prefix_refl l'⟩

/-- A file is removed, or the first ones of its clusters are freed. -/
lemma Sound.remove (h : Sound ops s files) {l₁ l₂ torn : List Nat} (e : files i = some (l₁ ++ l₂))
    (puts : Puts ops s (l₁.map (·, 0)) torn t) :
    Keeps ops s files (· = i) t (Function.update files i none) := by
  have other : ∀ j l, Function.update files i none j = some l → files j = some l := by
    intro j l e'
    rwa [Function.update_of_ne] at e'
    rintro rfl
    rw [Function.update_self] at e'
    cases e'
  refine ⟨h.of_puts puts ?_ (h.apart.remove e fun a out => ?_)
      fun j l e' => h.two j l (other j l e'),
    fun j l e' ne => ⟨l, (Function.update_of_ne ne ..).trans e', List.prefix_refl l⟩, _, _, puts,
    fun k j l e' ne => ?_⟩
  · intro q mem
    obtain ⟨b, mem_b, rfl⟩ := List.mem_map.mp mem
    exact h.two i _ e b (List.mem_append_left _ mem_b)
  · rw [Function.comp_apply, applyWrites_other]
    · rfl
    · intro q mem
      obtain ⟨b, mem_b, rfl⟩ := List.mem_map.mp mem
      rintro rfl
      exact out (List.mem_append_left _ mem_b)
  · rw [← List.map_take]
    exact remove_during h.apart e e' ne
      (show l₁ ++ l₂ = l₁.take k ++ (l₁.drop k ++ l₂) by
        rw [← List.append_assoc, List.take_append_drop])

/-! ## Any sequence of calls -/

/-- What is done with the clusters of a file: a first one is taken, another one is taken for its
    end, or all are freed. `junk` and `out` are what `flags` and `*out_clust` hold before. -/
inductive ChainCall (ι : Type) where
  | create (i : ι) (junk : Byte) (out : Nat)
  | stretch (i : ι) (junk : Byte) (out : Nat)
  | remove (i : ι)
  deriving DecidableEq

/-- A call, with the clusters of each file that has not been removed. -/
def track (ops : Device σ Sect) (fuel : Nat) (p : Fs σ × (ι → Option (List Nat))) :
    ChainCall ι → Fs σ × (ι → Option (List Nat))
  | .create i junk out =>
    match p.2 i, createChain ops fuel junk out p.1 with
    | none, .ok c t => (t, Function.update p.2 i (some [c]))
    | none, .error _ t => (t, p.2)
    | some _, _ => p
  | .stretch i junk out =>
    match p.2 i with
    | none => p
    | some l =>
      let t := after (stretchChain ops fuel junk out (l.getLast?.getD 0)) p.1
      (t, Function.update p.2 i (some (regrown ops t l)))
  | .remove i =>
    match p.2 i with
    | none => p
    | some l => (after (removeChain ops fuel (l.headD 0)) p.1, Function.update p.2 i none)

/-- The file that a call removes. -/
def ChainCall.Removes (i : ι) (c : ChainCall ι) : Prop := c = .remove i

/-- One call. -/
lemma track_keeps (h : Sound ops s files) (enough : s.fat.clustCnt ≤ fuel) {c : ChainCall ι}
    (junk : ∀ i out, c ≠ .create i 0#8 out) :
    Keeps ops s files (c.Removes ·) (track ops fuel (s, files) c).1
      (track ops fuel (s, files) c).2 := by
  have lay := h.layout
  cases c with
  | create i junk' out =>
    have junk0 : junk' ≠ 0#8 := by
      rintro rfl
      exact junk i out rfl
    have spec := stretchChain_spec fuel junk' out lay h.coherent
      (show 0 < s.fat.clustCnt by have := lay.two; omega)
    cases e : files i with
    | some l =>
      rw [track]
      dsimp only
      rw [e]
      exact .refl h _
    | none =>
      rw [track]
      dsimp only
      rw [e]
      cases run : createChain ops fuel junk' out s with
      | ok c t =>
        rcases wp_ok spec run with took | ⟨_, zero, _⟩
        · have puts := took.puts
          have all : takePuts 0 c = (takePuts 0 c).take 1 := rfl
          rw [all] at puts
          exact ((h.create (i := i) (fun _ => took.free) puts).2 Nat.one_ne_zero e).mono nofun
        · exact absurd zero junk0
      | error stop t =>
        obtain ⟨torn, may | ⟨c, took⟩⟩ := wp_error spec run
        · obtain ⟨c, k, _, free, puts⟩ := may.puts
          exact (h.create (i := i) free puts).1.mono nofun
        · have puts := took.puts
          have all : takePuts 0 c = (takePuts 0 c).take 1 := rfl
          rw [all] at puts
          exact (h.create (i := i) (fun _ => took.free) puts).1.mono nofun
  | stretch i junk' out =>
    rw [track]
    dsimp only
    cases e : files i with
    | none => exact .refl h _
    | some l =>
      obtain ⟨l, p, rfl⟩ := (List.eq_nil_or_concat' l).resolve_left (h.apart.chain i _ e).ne_nil
      dsimp only
      rw [List.getLast?_concat, Option.getD_some]
      have mem : p ∈ l ++ [p] := by simp
      have two := h.two i _ e p mem
      have step : ∀ {t : Fs σ} {torn : List Nat},
          (MayTake ops s p torn t ∨ ∃ c, Takes ops s p c torn t) →
          Keeps ops s files (fun _ => False) t
            (Function.update files i (some (regrown ops t (l ++ [p])))) := by
        rintro t torn (may | ⟨c, took⟩)
        · obtain ⟨c, k, lt, free, puts⟩ := may.puts
          exact h.stretch e lt free puts
        · have all : (takePuts p c).take 2 = takePuts p c := by
            rw [takePuts]
            exact List.take_of_length_le (by split <;> simp)
          have puts := took.puts
          rw [← all] at puts
          exact h.stretch e took.lt (fun _ => took.free) puts
      have spec := stretchChain_spec fuel junk' out lay h.coherent
        (h.lt e mem)
      have grown : Keeps ops s files (fun _ => False) (after (stretchChain ops fuel junk' out p) s)
          (Function.update files i
            (some (regrown ops (after (stretchChain ops fuel junk' out p) s) (l ++ [p])))) := by
        refine wp_after (P := fun t => Keeps ops s files (fun _ => False) t
          (Function.update files i (some (regrown ops t (l ++ [p]))))) (wp_imp spec ?_ ?_)
        · rintro c t (took | ⟨first, _⟩)
          · exact step (.inr ⟨c, took⟩)
          · omega
        · rintro _ t ⟨torn, outcome⟩
          exact step outcome
      exact grown.mono nofun
  | remove i =>
    rw [track]
    dsimp only
    cases e : files i with
    | none => exact .refl h _
    | some l =>
      have chain := h.apart.chain i _ e
      have head : l.head? = some (l.headD 0) := by
        cases l with
        | nil => exact absurd rfl chain.ne_nil
        | cons => rfl
      have short : l.length ≤ s.fat.clustCnt := by
        have sub : l ⊆ List.range s.fat.clustCnt := fun c mem => List.mem_range.mpr (h.lt e mem)
        have := (chain.nodup.subperm sub).length_le
        rwa [List.length_range] at this
      have spec := removeChain_spec lay h.coherent chain head (short.trans enough)
      have removed : Keeps ops s files (· = i) (after (removeChain ops fuel (l.headD 0)) s)
          (Function.update files i none) := by
        refine wp_after (P := fun t => Keeps ops s files (· = i) t _) (wp_imp spec ?_ ?_)
        · rintro _ t ⟨puts, _⟩
          have e' : files i = some (l ++ []) := by
            rw [List.append_nil]
            exact e
          exact h.remove e' puts
        · rintro _ t ⟨_, l₁, l₂, torn, rfl, puts, _⟩
          exact h.remove e puts
      refine removed.mono ?_
      rintro j rfl
      rfl

/-- Calls in a row keep the files that none of them removes. -/
lemma run_keeps {calls : List (ChainCall ι)} (h : Sound ops s files)
    (enough : s.fat.clustCnt ≤ fuel) (junk : ∀ i out, .create i 0#8 out ∉ calls) :
    Keeps ops s files (fun i => .remove i ∈ calls) (calls.foldl (track ops fuel) (s, files)).1
      (calls.foldl (track ops fuel) (s, files)).2 := by
  induction calls generalizing s files with
  | nil => exact .refl h _
  | cons c cs ih =>
    have here := track_keeps h enough (c := c) fun i out e => junk i out (e ▸ .head cs)
    obtain ⟨_, _, puts, _⟩ := here.puts
    have rest := ih here.sound (by rw [puts.clustCnt]; exact enough)
      fun i out mem => junk i out (.tail c mem)
    rw [List.foldl_cons]
    refine (here.mono ?_).trans (rest.mono ?_)
    · rintro i e
      exact e ▸ .head cs
    · exact fun i mem => .tail c mem

/-- Files are created, extended and removed in any order, and any transfers fail, but no
    `create_chain` finds 0 in its uninitialised `flags`: with 0 there, one whose first `get_fat`
    fails would report success without having set `*out_clust`. Then every file that has not been
    removed still has its clusters, and perhaps more at its end; no two files share a cluster; no
    sector changes but those of the tables and `FsInfo`. If the buffer was clean at the start, the
    disk itself has an intact chain for each of these files. -/
theorem chains_stay_apart {calls : List (ChainCall ι)} (h : Sound ops s files)
    (enough : s.fat.clustCnt ≤ fuel) (junk : ∀ i out, .create i 0#8 out ∉ calls) :
    let r := calls.foldl (track ops fuel) (s, files)
    Apart (r.1.cells ops) r.2 ∧
      (∀ i l, files i = some l → .remove i ∉ calls → ∃ l', r.2 i = some l' ∧ l <+: l') ∧
      (∀ n, n ≠ s.fat.infoSect → ¬ s.fat.InTable n → r.1.view ops n = s.view ops n) ∧
      (s.win.dirty = false → ∀ i l, files i = some l → .remove i ∉ calls →
        ∃ l', Chain (s.fat.cell ∘ s.fat.table (r.1.disk ops)) l' ∧ l <+: l') := by
  intro r
  have keeps := run_keeps h enough junk
  obtain ⟨ps, torn, puts, during⟩ := keeps.puts
  refine ⟨keeps.sound.apart, keeps.grow, fun n => puts.frame, fun clean i l e stays => ?_⟩
  obtain ⟨k, disk⟩ := puts.disk_table clean
  rw [← FatFs.table_of_geometry puts.geometry, disk]
  exact during k i l e stays

/-- The root of a volume, and nothing else. -/
def rootOnly (i : Nat) : Option (List Nat) := if i = 0 then some [2] else none

/-- The small volume is sound. -/
lemma smallFs_sound (script : List Bool) :
    Sound (.scripted Sect) (smallFs (script, smallDisk)) rootOnly where
  layout := smallFs_layout _
  coherent := smallFs_coherent _ _
  reserved c lt := by
    have all : ∀ c < 2, smallFat.cell (smallFat.table smallDisk c) ≠ .free := by decide +kernel
    rw [smallFs_cells]
    exact all c lt
  apart := by
    have only : ∀ i l, rootOnly i = some l → i = 0 ∧ l = [2] := by
      intro i l e
      unfold rootOnly at e
      split at e
      · next zero => exact ⟨zero, (Option.some.inj e).symm⟩
      · cases e
    refine ⟨fun i l e => ?_, fun i j l l' ne e e' => absurd ?_ ne⟩
    · obtain ⟨_, rfl⟩ := only i l e
      refine .last ?_
      rw [smallFs_cells]
      exact (by decide +kernel : smallFat.cell (smallFat.table smallDisk 2) = .last)
    · rw [(only i l e).1, (only j l' e').1]
  two i l e c mem := by
    unfold rootOnly at e
    split at e
    · cases e
      rw [List.mem_singleton.mp mem]
    · cases e

/-- A file is created and extended, and the root is; the write-back of the first item fails. -/
theorem chains_stay_apart_small :
    let ops := Device.scripted Sect
    let s := smallFs ([true, true, true, false], smallDisk)
    let calls : List (ChainCall Nat) :=
      [.create 1 6#8 0, .stretch 0 6#8 0, .create 1 6#8 0, .stretch 1 6#8 0]
    let r := calls.foldl (track ops 128) (s, rootOnly)
    Apart (r.1.cells ops) r.2 ∧
      (∀ i l, rootOnly i = some l → .remove i ∉ calls → ∃ l', r.2 i = some l' ∧ l <+: l') ∧
      (∀ n, n ≠ s.fat.infoSect → ¬ s.fat.InTable n → r.1.view ops n = s.view ops n) ∧
      (s.win.dirty = false → ∀ i l, rootOnly i = some l → .remove i ∉ calls →
        ∃ l', Chain (s.fat.cell ∘ s.fat.table (r.1.disk ops)) l' ∧ l <+: l') :=
  chains_stay_apart (smallFs_sound _) (by decide) (by simp)

end Fs

end TRS.Fat
