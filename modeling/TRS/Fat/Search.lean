import Mathlib.Data.Nat.Find
import TRS.Fat.Chain

/-!
# The search for a free cluster

On a disk that works, `stretch_chain` takes the next free cluster behind `last_used`, around the end
of the table. It never tries `last_used` itself: if no other cluster is free it reports
`FAT_ERR_FULL`, and where `last_used` is not the number of a cluster it searches for ever.

* `syncBuf_total`, …, `linkFree_total`: on a disk that works no function of these fails.
* `NextFree.tried`: the cluster to be found is tried before `last_used` is come to.
* `scan_finds`, `scan_full`, `scan_runs`: the search, by what the table holds.
* `stretchChain_takes`: the cluster that is found is taken.

The headline `stretchChain_exact` puts the cases together, which leave none out
(`nextFree_or_noneFree`); the scans are by `wp_iterate` with the clusters still to be tried.
-/

namespace TRS.Fat
open TRS.Lib TRS.Lib.Program

namespace Fs
variable {σ : Type} {ops : Device σ Sect} {s t : Fs σ} {fuel clust : Nat} {junk : Byte}

/-! ## A disk that works -/

/-- On a disk that works `sync_buf` succeeds. -/
lemma syncBuf_total (works : ops.Reliable) : Total (syncBuf ops) := by
  intro s
  have synced := Window.sync_reliable works s.win
  unfold wp syncBuf
  cases e : s.win.sync ops with
  | mk ok win =>
    rw [e] at synced
    obtain rfl : ok = true := synced
    trivial

/-- So does `update_buf`. -/
lemma updateBuf_total (works : ops.Reliable) (n : Nat) : Total (updateBuf ops n) := by
  intro s
  have loaded := Window.load_reliable works n s.win
  unfold wp updateBuf
  cases e : s.win.load ops n with
  | mk ok win =>
    rw [e] at loaded
    obtain rfl : ok = true := loaded
    trivial

/-- So does `sync_fs`. -/
lemma syncFs_total (works : ops.Reliable) : Total (syncFs ops) := by
  refine .bind (syncBuf_total works) fun _ => .bind .get fun s => ?_
  split
  · exact .bind (updateBuf_total works _) fun _ => .bind (.change _) fun _ =>
      .bind (syncBuf_total works) fun _ => .change _
  · exact .pure _

/-- So does `put_fat2`. -/
lemma putFat2_total (works : ops.Reliable) (fatSect clust val : Nat) :
    Total (putFat2 ops fatSect clust val) :=
  .bind (updateBuf_total works _) fun _ => .change _

/-- So does `put_fat`. -/
lemma putFat_total (works : ops.Reliable) (clust val : Nat) : Total (putFat ops clust val) := by
  refine .bind .get fun s => ?_
  split
  · exact .bind (putFat2_total works _ _ _) fun _ => putFat2_total works _ _ _
  · exact putFat2_total works _ _ _

/-- So a free cluster is linked. -/
lemma linkFree_total (works : ops.Reliable) (prev clust : Nat) :
    Total (linkFree ops prev clust) := by
  refine .bind (putFat_total works _ _) fun _ => ?_
  split
  · exact .bind (putFat_total works _ _) fun _ => .bind (.change _) fun _ =>
      .bind (syncFs_total works) fun _ => .pure _
  · exact .bind (.change _) fun _ => .bind (syncFs_total works) fun _ => .pure _

/-- A valid item is read. -/
lemma getFat_works (works : ops.Reliable) (lay : s.fat.Layout) (co : s.Coherent ops)
    (lt : clust < s.fat.clustCnt) (valid : s.fat.itemFlags (s.table ops clust) ≠ none) :
    wp (getFat ops clust)
      (fun r t => Moves ops s t ∧ r = (s.table ops clust, cellFlags (s.cells ops clust)))
      (fun _ _ => False) s := by
  have reads : wp (getFat ops clust) (fun _ _ => True)
      (fun e _ => e = .code errBroken) s := by
    unfold getFat
    rw [wp_bind, wp_get]
    refine wp_seq (updateBuf_total works _ s) (fun _ t _ => ?_) fun e t h => h.elim
    rw [wp_bind, wp_get]
    dsimp only
    split
    · trivial
    · rfl
  refine wp_imp (wp_and reads (wp_and (getFat_spec lay co lt) (getFat_cell lay co lt)))
    (fun _ _ h => h.2.2) ?_
  rintro e t ⟨rfl, ⟨_, io | ⟨_, none_⟩⟩, _⟩
  · cases io
  · exact valid none_

/-! ## The search -/

/-- All items of the table are valid, and the two reserved clusters are not free. -/
structure Healthy (ops : Device σ Sect) (s : Fs σ) : Prop where
  layout : s.fat.Layout
  coherent : s.Coherent ops
  valid : ∀ c < s.fat.clustCnt, s.fat.itemFlags (s.table ops c) ≠ none
  reserved : ∀ c < 2, s.cells ops c ≠ .free
  lastUsed : s.fat.lastUsed < 2 ^ 32 - 1

/-- `clust` is the next free cluster behind `last_used`, around the end of the table. -/
structure NextFree (ops : Device σ Sect) (s : Fs σ) (clust : Nat) : Prop where
  two : 2 ≤ clust
  lt : clust < s.fat.clustCnt
  free : s.cells ops clust = .free
  above : s.fat.lastUsed < clust →
    ∀ c, s.fat.lastUsed < c → c < clust → s.cells ops c ≠ .free
  around : clust ≤ s.fat.lastUsed → clust ≠ s.fat.lastUsed ∧
    (∀ c, s.fat.lastUsed < c → c < s.fat.clustCnt → s.cells ops c ≠ .free) ∧
    ∀ c, 2 ≤ c → c < clust → s.cells ops c ≠ .free

/-- No cluster is free, but perhaps `last_used`. -/
def NoneFree (ops : Device σ Sect) (s : Fs σ) : Prop :=
  ∀ c, 2 ≤ c → c < s.fat.clustCnt → c ≠ s.fat.lastUsed → s.cells ops c ≠ .free

/-- A round tries the next cluster. -/
lemma scanRound_works (works : ops.Reliable) (h : Healthy ops s) (m : Moves ops s t) (c : Nat)
    (flags : Byte) :
    wp (scanRound ops (c, flags))
      (fun r u => Moves ops s u ∧ s.fat.bump c ≠ s.fat.lastUsed ∧
        (r = .done (some (s.fat.bump c)) ∧ s.cells ops (s.fat.bump c) = .free ∨
          ∃ fl, r = .again (s.fat.bump c, fl) ∧ s.cells ops (s.fat.bump c) ≠ .free))
      (fun e u => Moves ops s u ∧ s.fat.bump c = s.fat.lastUsed ∧ e = .code errFull) t := by
  unfold scanRound
  rw [wp_bind, wp_get]
  dsimp only
  rw [m.fat]
  split
  · next full => exact ⟨m, full, rfl⟩
  · next ne =>
    have lt := h.layout.bump_lt c
    have table : t.table ops = s.table ops := (Puts.of_moves m).table_eq
    have cells : t.cells ops (s.fat.bump c) = s.cells ops (s.fat.bump c) :=
      (Puts.of_moves m).cells_other _ (List.forall_mem_nil _)
    rw [wp_bind, wp_attempt]
    refine wp_imp (getFat_works works (m.fat.symm ▸ h.layout) (m.coherent h.coherent)
      (m.fat.symm ▸ lt) (by rw [m.fat, table]; exact h.valid _ lt)) ?_ fun _ _ h => h.elim
    rintro _ u ⟨m', rfl⟩
    have all := m.trans m'
    dsimp only
    rw [cells]
    cases free : s.cells ops (s.fat.bump c) with
    | free => exact ⟨all, ne, .inl ⟨rfl, rfl⟩⟩
    | bad => exact ⟨all, ne, .inr ⟨_, rfl, by rintro ⟨⟩⟩⟩
    | last => exact ⟨all, ne, .inr ⟨_, rfl, by rintro ⟨⟩⟩⟩
    | next d =>
      rw [if_neg (by rw [cellFlags]; decide)]
      exact ⟨all, ne, .inr ⟨_, rfl, by rintro ⟨⟩⟩⟩

/-- The next cluster of the search, where `++clust` does not wrap. -/
lemma bump_eq {fat : FatFs} {c : Nat} (lt : c < 2 ^ 32 - 1) :
    fat.bump c = if fat.clustCnt ≤ c + 1 then 2 else c + 1 := by
  unfold FatFs.bump
  rw [u32_of_lt (by omega)]

/-- The most clusters that the search tries from `c` until it has tried `goal`. -/
def steps (cnt goal c : Nat) : Nat := if c < goal then goal - c else cnt - c + (goal - 2) + 1

/-- The search is behind `c`, on its way from `last_used` to `goal`. -/
def OnWay (last goal c : Nat) : Prop :=
  c < 2 ^ 32 - 1 ∧ (last < goal ∧ last ≤ c ∧ c < goal ∨ goal < last ∧ last ≤ c ∨
    goal < last ∧ 2 ≤ c ∧ c < goal)

/-- A cluster that is tried on the way is the goal if it is free, and a step nearer otherwise. -/
lemma NextFree.tried (h : Healthy ops s) (next : NextFree ops s clust) {c : Nat}
    (on : OnWay s.fat.lastUsed clust c) :
    s.fat.bump c ≠ s.fat.lastUsed ∧
      (s.cells ops (s.fat.bump c) = .free → s.fat.bump c = clust) ∧
      (s.cells ops (s.fat.bump c) ≠ .free → OnWay s.fat.lastUsed clust (s.fat.bump c) ∧
        steps s.fat.clustCnt clust (s.fat.bump c) < steps s.fat.clustCnt clust c) := by
  obtain ⟨two, lt, free, above, around⟩ := next
  obtain ⟨small, way⟩ := on
  have cnt := h.layout.small
  have ne_goal : ∀ q, s.cells ops q ≠ .free → q ≠ clust := fun q used e => used (e ▸ free)
  rw [bump_eq small]
  rcases way with ⟨less, le, lt'⟩ | ⟨less, le⟩ | ⟨less, le, lt'⟩
  · rw [if_neg (by omega)]
    refine ⟨by omega, fun q_free => ?_, fun used => ?_⟩
    · by_contra ne
      exact above less (c + 1) (by omega) (by omega) q_free
    · have := ne_goal _ used
      unfold OnWay steps
      rw [if_pos (by omega), if_pos (by omega)]
      omega
  · obtain ⟨_, to_end, from_two⟩ := around (by omega)
    by_cases wrap : s.fat.clustCnt ≤ c + 1
    · rw [if_pos wrap]
      refine ⟨by omega, fun q_free => ?_, fun used => ?_⟩
      · by_contra ne
        exact from_two 2 (Nat.le_refl 2) (by omega) q_free
      · have := ne_goal _ used
        unfold OnWay steps
        rw [if_pos (by omega), if_neg (by omega)]
        omega
    · rw [if_neg wrap]
      refine ⟨by omega, fun q_free => ?_, fun used => ?_⟩
      · exact absurd q_free (to_end (c + 1) (by omega) (by omega))
      · unfold OnWay steps
        rw [if_neg (by omega), if_neg (by omega)]
        omega
  · obtain ⟨_, _, from_two⟩ := around (by omega)
    rw [if_neg (by omega)]
    refine ⟨by omega, fun q_free => ?_, fun used => ?_⟩
    · by_contra ne
      exact from_two (c + 1) (by omega) (by omega) q_free
    · have := ne_goal _ used
      unfold OnWay steps
      rw [if_pos (by omega), if_pos (by omega)]
      omega

/-- The search ends at the next free cluster. -/
lemma scan_finds (works : ops.Reliable) (h : Healthy ops s) (m : Moves ops s t)
    (next : NextFree ops s clust) (enough : s.fat.clustCnt ≤ fuel) :
    wp (iterate (scanRound ops) fuel (s.fat.lastUsed, junk))
      (fun r u => Moves ops s u ∧ r = some clust) (fun _ _ => False) t := by
  have last := h.lastUsed
  have lt := next.lt
  refine wp_iterate (fun n b u => Moves ops s u ∧ OnWay s.fat.lastUsed clust b.1 ∧
    steps s.fat.clustCnt clust b.1 ≤ n) ?_ ?_ ⟨m, ?_, ?_⟩
  · rintro ⟨c, flags⟩ u ⟨_, on, spent⟩
    unfold OnWay at on
    unfold steps at spent
    dsimp only at on spent
    split at spent <;> omega
  · rintro n ⟨c, flags⟩ u ⟨m, on, le⟩
    obtain ⟨ne, done, again⟩ := next.tried h on
    refine wp_imp (scanRound_works works h m c flags) ?_ fun e v h => ne h.2.1
    rintro r v ⟨m', _, ⟨rfl, free⟩ | ⟨_, rfl, used⟩⟩
    · exact ⟨m', congrArg some (done free)⟩
    · obtain ⟨on', less⟩ := again used
      exact ⟨m', on', Nat.le_of_lt_succ (less.trans_le le)⟩
  · have around := next.around
    unfold OnWay
    dsimp only
    omega
  · have around := next.around
    have two := next.two
    unfold steps
    dsimp only
    split <;> omega

/-- Where no cluster is free but perhaps `last_used`, the search ends there. -/
lemma scan_full (works : ops.Reliable) (h : Healthy ops s) (m : Moves ops s t)
    (none_ : NoneFree ops s) (two : 2 ≤ s.fat.lastUsed) (lt : s.fat.lastUsed < s.fat.clustCnt)
    (enough : s.fat.clustCnt ≤ fuel) :
    wp (iterate (scanRound ops) fuel (s.fat.lastUsed, junk)) (fun _ _ => False)
      (fun e u => Moves ops s u ∧ e = .code errFull) t := by
  have cnt := h.layout.small
  -- the number of clusters that are left until `last_used`
  refine wp_iterate (fun n b u => Moves ops s u ∧ 2 ≤ b.1 ∧ b.1 < s.fat.clustCnt ∧
    (if b.1 < s.fat.lastUsed then s.fat.lastUsed - b.1
      else s.fat.clustCnt - b.1 + (s.fat.lastUsed - 2)) ≤ n) ?_ ?_ ⟨m, two, lt, ?_⟩
  · rintro ⟨c, flags⟩ u ⟨_, _, c_lt, spent⟩
    dsimp only at c_lt spent
    split at spent <;> omega
  · rintro n ⟨c, flags⟩ u ⟨m, c_two, c_lt, le⟩
    dsimp only at c_two c_lt le
    refine wp_imp (scanRound_works works h m c flags) ?_ fun e v h => ⟨h.1, h.2.2⟩
    have bump : s.fat.bump c = if s.fat.clustCnt ≤ c + 1 then 2 else c + 1 := bump_eq (by omega)
    have inside : 2 ≤ s.fat.bump c ∧ s.fat.bump c < s.fat.clustCnt := by
      rw [bump]
      split <;> omega
    rintro r v ⟨m', ne, ⟨rfl, free⟩ | ⟨_, rfl, _⟩⟩
    · exact none_ _ inside.1 inside.2 ne free
    · refine ⟨m', inside.1, inside.2, ?_⟩
      dsimp only
      rw [bump]
      rw [bump] at ne
      split_ifs at le ne ⊢ <;> omega
  · dsimp only
    rw [if_neg (Nat.lt_irrefl _)]
    omega

/-- Where, besides, `last_used` is not the number of a cluster, the search never ends. -/
lemma scan_runs (works : ops.Reliable) (h : Healthy ops s) (m : Moves ops s t)
    (none_ : NoneFree ops s) (out : s.fat.lastUsed < 2 ∨ s.fat.clustCnt ≤ s.fat.lastUsed) :
    wp (iterate (scanRound ops) fuel (s.fat.lastUsed, junk)) (fun _ _ => False)
      (fun e u => Moves ops s u ∧ e = .rounds) t := by
  have cnt := h.layout.small
  have two := h.layout.two
  have last := h.lastUsed
  refine wp_iterate (fun _ b u => Moves ops s u ∧
    (b.1 = s.fat.lastUsed ∨ 2 ≤ b.1 ∧ b.1 < s.fat.clustCnt ∨ s.fat.lastUsed = 0 ∧ b.1 = 1))
    (fun _ _ h => ⟨h.1, rfl⟩) ?_ ⟨m, .inl rfl⟩
  rintro n ⟨c, flags⟩ u ⟨m, at_⟩
  dsimp only at at_
  have bump : s.fat.bump c = if s.fat.clustCnt ≤ c + 1 then 2 else c + 1 := bump_eq (by omega)
  have inside : s.fat.bump c ≠ s.fat.lastUsed ∧
      (2 ≤ s.fat.bump c ∧ s.fat.bump c < s.fat.clustCnt ∨
        s.fat.lastUsed = 0 ∧ s.fat.bump c = 1) := by
    rw [bump]
    split <;> omega
  refine wp_imp (scanRound_works works h m c flags) ?_ fun e v h => absurd h.2.1 inside.1
  rintro r v ⟨m', ne, ⟨rfl, free⟩ | ⟨_, rfl, _⟩⟩
  · rcases inside.2 with ⟨two', lt'⟩ | ⟨_, one⟩
    · exact none_ _ two' lt' ne free
    · exact h.reserved 1 (by decide) (one ▸ free)
  · exact ⟨m', .inr inside.2⟩

/-- The table has a next free cluster, or no free one. -/
lemma nextFree_or_noneFree (h : Healthy ops s) :
    (∃ c, NextFree ops s c) ∨ NoneFree ops s := by
  by_cases none_ : NoneFree ops s
  · exact .inr none_
  · -- the free cluster that the search tries first
    let place : Nat → Nat := fun c => if s.fat.lastUsed < c then c else c + s.fat.clustCnt
    let P : Nat → Prop := fun c => 2 ≤ c ∧ c < s.fat.clustCnt ∧ c ≠ s.fat.lastUsed ∧
      s.cells ops c = .free
    have some_ : ∃ n c, place c = n ∧ P c := by
      unfold NoneFree at none_
      push Not at none_
      obtain ⟨c, h⟩ := none_
      exact ⟨place c, c, rfl, h⟩
    classical
    obtain ⟨c, at_, two, lt, ne, free⟩ := Nat.find_spec some_
    have first : ∀ d, P d → place c ≤ place d := fun d hd => by
      rw [at_]
      exact Nat.find_min' some_ ⟨d, rfl, hd⟩
    refine .inl ⟨c, two, lt, free, fun above d d_gt d_lt d_free => ?_, fun le => ⟨ne,
      fun d d_gt d_lt d_free => ?_, fun d d_two d_lt d_free => ?_⟩⟩
    · by_cases d_two : 2 ≤ d
      · have := first d ⟨d_two, by omega, by omega, d_free⟩
        simp only [place, if_pos above, if_pos d_gt] at this
        omega
      · exact h.reserved d (by omega) d_free
    · by_cases d_two : 2 ≤ d
      · have := first d ⟨d_two, d_lt, by omega, d_free⟩
        simp only [place, if_neg (show ¬ s.fat.lastUsed < c by omega), if_pos d_gt] at this
        omega
      · exact h.reserved d (by omega) d_free
    · have := first d ⟨d_two, by omega, by omega, d_free⟩
      simp only [place, if_neg (show ¬ s.fat.lastUsed < c by omega),
        if_neg (show ¬ s.fat.lastUsed < d by omega)] at this
      omega

/-- The cluster behind `prev` is tried first, and is not free. -/
def NotBehind (ops : Device σ Sect) (s : Fs σ) (prev : Nat) : Prop :=
  prev = 0 ∨ s.cells ops (s.fat.bump prev) ≠ .free

/-- Without a free cluster behind `prev` all depends on the search. -/
lemma findFree_scans {prev : Nat} {Q : Option Nat → Fs σ → Prop} {E : Stop → Fs σ → Prop}
    (works : ops.Reliable) (h : Healthy ops s) (behind : NotBehind ops s prev)
    (scan : ∀ flags t, Moves ops s t →
      wp (iterate (scanRound ops) fuel (s.fat.lastUsed, flags)) Q E t) :
    wp (findFree ops fuel junk prev) Q E s := by
  unfold findFree
  rw [wp_bind, wp_get]
  by_cases first : prev = 0
  · rw [if_neg (not_not.mpr first)]
    exact scan junk s (.refl s)
  · have used := behind.resolve_left first
    have near := h.layout.bump_lt prev
    rw [if_pos first]
    refine wp_seq (getFat_works works h.layout h.coherent near (h.valid _ near)) ?_
      fun _ _ h => h.elim
    rintro _ t ⟨m, rfl⟩
    dsimp only
    cases cell : s.cells ops (s.fat.bump prev) with
    | free => exact absurd cell used
    | bad => exact scan _ t m
    | last => exact scan _ t m
    | next d =>
      rw [if_neg (by rw [cellFlags]; decide)]
      exact scan _ t m

/-- The cluster that `stretch_chain` takes: the one behind `prev`, or the next free one. -/
def Chosen (ops : Device σ Sect) (s : Fs σ) (prev c : Nat) : Prop :=
  (prev ≠ 0 ∧ s.cells ops c = .free ∧ c = s.fat.bump prev) ∨
    (NotBehind ops s prev ∧ NextFree ops s c)

/-- The search finds the cluster to be taken. -/
lemma findFree_works {prev : Nat} (works : ops.Reliable) (h : Healthy ops s)
    (chosen : Chosen ops s prev clust) (enough : s.fat.clustCnt ≤ fuel) :
    wp (findFree ops fuel junk prev) (fun r t => Moves ops s t ∧ r = some clust)
      (fun _ _ => False) s := by
  rcases chosen with ⟨first, free, rfl⟩ | ⟨behind, next⟩
  · have near := h.layout.bump_lt prev
    unfold findFree
    rw [wp_bind, wp_get, if_pos first]
    refine wp_seq (getFat_works works h.layout h.coherent near (h.valid _ near)) ?_
      fun _ _ h => h.elim
    rintro _ t ⟨m, rfl⟩
    dsimp only
    rw [free]
    exact ⟨m, rfl⟩
  · exact findFree_scans works h behind fun flags t m => scan_finds works h m next enough

/-- A mark before the search changes nothing that the search looks at. -/
lemma Healthy.marked (h : Healthy ops s) : Healthy ops { s with infoDirty := true } :=
  ⟨h.layout, h.coherent, h.valid, h.reserved, h.lastUsed⟩

/-- That `FsInfo` is marked does not matter to it. -/
lemma Chosen.marked {prev : Nat} (h : Chosen ops s prev clust) :
    Chosen ops { s with infoDirty := true } prev clust := by
  rcases h with near | ⟨behind, next⟩
  · exact .inl near
  · exact .inr ⟨behind, next.two, next.lt, next.free, next.above, next.around⟩

/-- The cluster to be taken is one of the volume, and free. -/
lemma Chosen.lt {prev : Nat} (lay : s.fat.Layout) (h : Chosen ops s prev clust) :
    clust < s.fat.clustCnt ∧ s.cells ops clust = .free := by
  rcases h with ⟨_, free, rfl⟩ | ⟨_, next⟩
  · exact ⟨lay.bump_lt prev, free⟩
  · exact ⟨next.lt, next.free⟩

/-- `stretch_chain` takes it. -/
lemma stretchChain_takes {prev : Nat} (junk : Byte) (out : Nat) (works : ops.Reliable)
    (h : Healthy ops s) (lt : prev < s.fat.clustCnt) (chosen : Chosen ops s prev clust)
    (enough : s.fat.clustCnt ≤ fuel) :
    wp (stretchChain ops fuel junk out prev) (fun r t => r = clust ∧ Takes ops s prev clust [] t)
      (fun _ _ => False) s := by
  obtain ⟨c_lt, free⟩ := chosen.lt h.layout
  unfold stretchChain
  rw [wp_bind, wp_modify]
  refine wp_seq (findFree_works works h.marked chosen.marked enough) ?_ fun _ _ h => h
  rintro _ t ⟨m, rfl⟩
  have start : Puts ops s [] [] t :=
    ⟨congrArg FatFs.geometry m.fat, [], ⟨m.follows, m.coherent⟩, .nil _ _⟩
  have fat : t.fat = s.fat := m.fat
  have linked := linkFree_spec (start.layout h.layout) (start.coherent h.coherent)
    (by rw [start.clustCnt]; exact c_lt) (by rw [start.clustCnt]; exact lt)
  refine wp_imp ((linkFree_total works prev clust).returns linked) ?_ fun _ _ h => h
  rintro r u ⟨rfl, puts, last, count⟩
  exact ⟨rfl, c_lt, free, start.trans puts, last, by rw [count, fat]⟩

/-- On a disk that works and a sound table, `stretch_chain` takes the cluster behind `prev` if it is
    free, and otherwise the next free one behind `last_used`. If there is none it reports that the
    volume is full, having changed no sector and no field of the volume, but for the mark that
    `FsInfo` is to be written; or, where `last_used` is not the number of a cluster, it never
    returns. -/
theorem stretchChain_exact {prev out : Nat} (works : ops.Reliable) (h : Healthy ops s)
    (lt : prev < s.fat.clustCnt) :
    (∀ c, Chosen ops s prev c → ∀ fuel ≥ s.fat.clustCnt,
      ∃ t, stretchChain ops fuel junk out prev s = .ok c t ∧ Takes ops s prev c [] t) ∧
    (NotBehind ops s prev → NoneFree ops s →
      (2 ≤ s.fat.lastUsed ∧ s.fat.lastUsed < s.fat.clustCnt → ∀ fuel ≥ s.fat.clustCnt,
        ∃ t, stretchChain ops fuel junk out prev s = .error (.code errFull) t ∧
          t.view ops = s.view ops ∧ t.fat = s.fat ∧ t.infoDirty = true) ∧
      (s.fat.lastUsed < 2 ∨ s.fat.clustCnt ≤ s.fat.lastUsed → ∀ fuel,
        ∃ t, stretchChain ops fuel junk out prev s = .error .rounds t)) ∧
    ((∃ c, Chosen ops s prev c) ∨ NotBehind ops s prev ∧ NoneFree ops s) := by
  -- the search in a full table stops the function
  have stops : ∀ (fuel : Nat) (P : Stop → Prop), NotBehind ops s prev →
      (∀ flags t, Moves ops { s with infoDirty := true } t →
        wp (iterate (scanRound ops) fuel (s.fat.lastUsed, flags)) (fun _ _ => False)
          (fun e u => Moves ops { s with infoDirty := true } u ∧ P e) t) →
      wp (stretchChain ops fuel junk out prev) (fun _ _ => False)
        (fun e u => Moves ops { s with infoDirty := true } u ∧ P e) s := by
    intro fuel P behind scan
    unfold stretchChain
    rw [wp_bind, wp_modify]
    exact wp_seq (findFree_scans (Q := fun _ _ => False) works h.marked behind scan)
      (fun _ _ h => h.elim) fun _ _ h => h
  have none_marked : NoneFree ops s → NoneFree ops { s with infoDirty := true } := id
  refine ⟨fun c chosen fuel enough => ?_, fun behind none_ => ⟨fun ⟨two, small⟩ fuel enough => ?_,
    fun out_ fuel => ?_⟩, ?_⟩
  · obtain ⟨r, t, e, rfl, takes⟩ :=
      exists_ok (stretchChain_takes junk out works h lt chosen enough)
    exact ⟨t, e, takes⟩
  · have full := stops fuel (· = .code errFull) behind fun flags t m =>
      scan_full works h.marked m (none_marked none_) two small enough
    obtain ⟨e, t, run, m, rfl⟩ := exists_error full
    exact ⟨t, run, m.view_eq, m.fat, m.infoDirty⟩
  · have runs := stops fuel (· = .rounds) behind fun flags t m =>
      scan_runs works h.marked m (none_marked none_) out_
    obtain ⟨e, t, run, _, rfl⟩ := exists_error runs
    exact ⟨t, run⟩
  · by_cases behind : NotBehind ops s prev
    · rcases nextFree_or_noneFree h with ⟨c, next⟩ | none_
      · exact .inl ⟨c, .inr ⟨behind, next⟩⟩
      · exact .inr ⟨behind, none_⟩
    · unfold NotBehind at behind
      push Not at behind
      exact .inl ⟨_, .inl ⟨behind.1, behind.2, rfl⟩⟩

/-- The small volume after the search has been at cluster `lastUsed`. -/
def searchFs (lastUsed : Nat) (disk : Nat → Sect) : Fs (Nat → Sect) :=
  { smallFs disk with fat := { smallFat with lastUsed } }

/-- The cells of such a volume are those of its disk. -/
lemma searchFs_cells (lastUsed : Nat) (disk : Nat → Sect) (c : Nat) :
    (searchFs lastUsed disk).cells (.memory Sect) c = smallFat.cell (smallFat.table disk c) :=
  smallFs_cells (.memory Sect) disk c

/-- Its table is sound if its items are. -/
lemma searchFs_healthy {lastUsed : Nat} {disk : Nat → Sect} (lt : lastUsed < 2 ^ 32 - 1)
    (valid : ∀ c < 128, smallFat.itemFlags (smallFat.table disk c) ≠ none)
    (reserved : ∀ c < 2, smallFat.cell (smallFat.table disk c) ≠ .free) :
    Healthy (.memory Sect) (searchFs lastUsed disk) where
  layout := FatFs.layout_geometry.mp
    (FatFs.layout_geometry.mpr (smallFs_layout disk) : smallFat.geometry.Layout)
  coherent := smallFs_coherent _ disk
  valid c lt := by
    rw [table, view, Window.view_of_clean rfl]
    exact valid c lt
  reserved c lt := by
    rw [searchFs_cells]
    exact reserved c lt
  lastUsed := lt

/-- The disk of a small volume with its root and a file in cluster 3. -/
def takenDisk (n : Nat) : Sect :=
  if n = 2 ∨ n = 3 then smallTable.store32 12 0x0FFFFFFF#32 else .of fun _ => 0#8

/-- The disk of a full small volume, of files of one cluster. -/
def fullDisk (n : Nat) : Sect :=
  .of fun a => if n = 2 ∨ n = 3 then (if a % 4 = 3 then 0x0F#8 else 0xFF#8) else 0#8

/-- No cluster of the full volume is free. -/
lemma fullDisk_taken {lastUsed : Nat} {c : Nat} (lt : c < 128) :
    (searchFs lastUsed fullDisk).cells (.memory Sect) c ≠ .free := by
  have all : ∀ c < 128, smallFat.cell (smallFat.table fullDisk c) ≠ .free := by decide +kernel
  rw [searchFs_cells]
  exact all c lt

/-- The root of the small volume gets cluster 3, or, where that is taken, cluster 4. In a full
    volume it gets none, and the search never ends if it has started from 0. -/
theorem stretchChain_exact_small :
    (∃ t, stretchChain (.memory Sect) 128 0#8 0 2 (searchFs 2 smallDisk) = .ok 3 t ∧
      Takes (.memory Sect) (searchFs 2 smallDisk) 2 3 [] t) ∧
    (∃ t, stretchChain (.memory Sect) 128 0#8 0 2 (searchFs 2 takenDisk) = .ok 4 t ∧
      Takes (.memory Sect) (searchFs 2 takenDisk) 2 4 [] t) ∧
    (∃ t, stretchChain (.memory Sect) 128 0#8 0 2 (searchFs 2 fullDisk) = .error (.code errFull) t ∧
      t.view (.memory Sect) = (searchFs 2 fullDisk).view (.memory Sect) ∧
      t.fat = (searchFs 2 fullDisk).fat ∧ t.infoDirty = true) ∧
    ∀ fuel, ∃ t, stretchChain (.memory Sect) fuel 0#8 0 2 (searchFs 0 fullDisk) =
      .error .rounds t := by
  have near : Chosen (.memory Sect) (searchFs 2 smallDisk) 2 3 := by
    refine .inl ⟨by decide, ?_, rfl⟩
    rw [searchFs_cells]
    decide +kernel
  have taken : (searchFs 2 takenDisk).cells (.memory Sect) 3 ≠ .free := by
    rw [searchFs_cells]
    decide +kernel
  have next : Chosen (.memory Sect) (searchFs 2 takenDisk) 2 4 := by
    refine .inr ⟨.inr taken, by decide, by decide, ?_, fun _ c gt lt => ?_,
      fun le => absurd le (by decide)⟩
    · rw [searchFs_cells]
      decide +kernel
    · have gt : 2 < c := gt
      obtain rfl : c = 3 := by omega
      exact taken
  have full : ∀ lastUsed, NotBehind (.memory Sect) (searchFs lastUsed fullDisk) 2 ∧
      NoneFree (.memory Sect) (searchFs lastUsed fullDisk) := fun lastUsed =>
    ⟨.inr (fullDisk_taken (by decide : 3 < 128)), fun c _ lt _ => fullDisk_taken lt⟩
  have works := Device.memory_reliable Sect
  refine ⟨?_, ?_, ?_, ?_⟩
  · exact (stretchChain_exact works
      (searchFs_healthy (by decide) (by decide +kernel) (by decide +kernel))
      (by decide)).1 3 near 128 (by decide)
  · exact (stretchChain_exact works
      (searchFs_healthy (by decide) (by decide +kernel) (by decide +kernel))
      (by decide)).1 4 next 128 (by decide)
  · exact ((stretchChain_exact works
      (searchFs_healthy (by decide) (by decide +kernel) (by decide +kernel))
      (by decide)).2.1 (full 2).1 (full 2).2).1 (by decide) 128 (by decide)
  · exact ((stretchChain_exact works
      (searchFs_healthy (by decide) (by decide +kernel) (by decide +kernel))
      (by decide)).2.1 (full 0).1 (full 0).2).2 (.inl (by decide))

end Fs

end TRS.Fat
