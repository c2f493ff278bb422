import TRS.Fat.Table
import TRS.Lib.Linked

/-!
# Cluster chains

`remove_chain`, `stretch_chain` and `create_chain` of the FAT library (`trfs/fat32/fat.c`): freeing
the clusters of a file, and finding a free cluster for one. The items of the table link the clusters
of each file; whatever transfers fail, no other file is touched, and the disk itself always holds
intact chains.

* `removeRound_spec`, `removeLoop_spec`: the rounds of `remove_chain` free a chain from its front.
* `scan_spec`: the search moves the buffer only, and finds a free cluster.
* `linkFree_spec`: that cluster is taken and linked.
* `removeChain_spec`, `stretchChain_spec`: the functions, as puts into the table.

The loops are by `wp_iterate`, with the clusters that are left as the measure.
-/

namespace TRS.Fat
open TRS.Lib TRS.Lib.Program

/-- `if (++clust >= fat->clust_cnt) clust = 2;`. -/
def FatFs.bump (fat : FatFs) (clust : Nat) : Nat :=
  if u32 (clust + 1) ≥ fat.clustCnt then 2 else u32 (clust + 1)

/-- What an item says about its cluster. -/
def FatFs.cell (fat : FatFs) (val : Nat) : Cell Nat :=
  if val = 0 then .free
  else if val = 0x0FFFFFF7 then .bad
  else if val ≥ 0x0FFFFFF8 then .last
  else if val ≥ 2 ∧ val < fat.clustCnt then .next val
  else .bad

/-- The flags that `get_fat` reports for a cell. -/
def cellFlags : Cell Nat → Byte
  | .free => clustFree
  | .bad => clustBad
  | .last => clustUsed ||| clustLast
  | .next _ => clustUsed

/-- The flags of a valid item are those of its cell. -/
lemma FatFs.itemFlags_cell {fat : FatFs} {val : Nat} {flags : Byte}
    (e : fat.itemFlags val = some flags) : flags = cellFlags (fat.cell val) := by
  unfold itemFlags at e
  unfold cell
  split_ifs at e ⊢ with h1 h2 h3 h4
  · exact (Option.some.inj e).symm
  · exact (Option.some.inj e).symm
  · exact (Option.some.inj e).symm
  · exact (Option.some.inj e).symm

/-- A link leads to the cluster that the item names. -/
lemma FatFs.cell_next {fat : FatFs} {val c : Nat} (e : fat.cell val = .next c) :
    val = c ∧ 2 ≤ c ∧ c < fat.clustCnt := by
  unfold cell at e
  split_ifs at e with h1 h2 h3 h4
  cases e
  exact ⟨rfl, h4⟩

/-- The item of a cluster in a chain is valid. -/
lemma FatFs.itemFlags_of_cell {fat : FatFs} {val : Nat} (free : fat.cell val ≠ .bad) :
    fat.itemFlags val = some (cellFlags (fat.cell val)) := by
  unfold cell at free ⊢
  unfold itemFlags
  split_ifs at free ⊢ with h1 h2 h3 h4
  · rfl
  · exact absurd rfl free
  · rfl
  · rfl
  · exact absurd rfl free

/-- The next cluster of the search has a valid number. -/
lemma FatFs.Layout.bump_lt {fat : FatFs} (lay : fat.Layout) (c : Nat) :
    fat.bump c < fat.clustCnt := by
  have := lay.two
  unfold FatFs.bump
  split <;> omega

/-- The flags of a cell are not zero. -/
lemma cellFlags_ne (c : Cell Nat) : cellFlags c ≠ 0#8 := by
  cases c with
  | free => decide
  | bad => decide
  | last => decide
  | next c => exact (by decide : clustUsed ≠ 0#8)

namespace Fs
variable {σ : Type} (ops : Device σ Sect)

/-! ## The functions -/

/-- A round of the loop of `remove_chain`, with `clust`. -/
def removeRound (clust : Nat) : Program (Fs σ) (Round Nat Unit) := do
  let (next, flags) ← getFat ops clust
  if flags &&& (clustBad ||| clustFree) ≠ 0#8 then throw (.code errBroken)
  putFat ops clust 0
  modify fun s => { s with fat := { s.fat with freeCnt := u32 (s.fat.freeCnt + 1) } }
  if flags &&& clustLast ≠ 0#8 then return .done () else return .again next

/-- `remove_chain(fat, clust)`. -/
def removeChain (fuel clust : Nat) : Program (Fs σ) Unit := do
  modify fun s => { s with infoDirty := true }
  iterate (removeRound ops) fuel clust
  syncFs ops

/-- A round of the search of `stretch_chain`, with `clust` and the flags that were read last. It
    ends with a free cluster, or with none where `get_fat` has failed and `flags` is zero:
    `return flags` returns `FAT_ERR_NONE` then. -/
def scanRound : Nat × Byte → Program (Fs σ) (Round (Nat × Byte) (Option Nat)) :=
    fun (clust, flags) => do
  let s ← get
  let clust := s.fat.bump clust
  if clust = s.fat.lastUsed then throw (.code errFull)
  match ← attempt (getFat ops clust) with
  | .error _ => if flags = 0#8 then return .done none else throw (.code flags.toNat)
  | .ok (_, flags) =>
    if flags &&& clustFree ≠ 0#8 then return .done (some clust) else return .again (clust, flags)

/-- What `stretch_chain` does with the cluster that it has found. -/
def linkFree (prev clust : Nat) : Program (Fs σ) Nat := do
  putFat ops clust 0x0FFFFFFF
  if prev ≠ 0 then
    putFat ops prev clust
  modify fun s => { s with
    fat := { s.fat with lastUsed := clust, freeCnt := u32 (s.fat.freeCnt + 2 ^ 32 - 1) } }
  syncFs ops
  return clust

/-- The search of `stretch_chain`: the cluster behind `prev` if it is free, or else the next free
    one behind `last_used`. The local `flags` holds `junk` before it is stored to. -/
def findFree (fuel : Nat) (junk : Byte) (prev : Nat) : Program (Fs σ) (Option Nat) := do
  let s ← get
  if prev ≠ 0 then
    let (_, flags) ← getFat ops (s.fat.bump prev)
    if flags &&& clustFree ≠ 0#8 then return some (s.fat.bump prev)
    else iterate (scanRound ops) fuel (s.fat.lastUsed, flags)
  else iterate (scanRound ops) fuel (s.fat.lastUsed, junk)

/-- `stretch_chain(fat, clust, out_clust)`: what it leaves in `*out_clust`, which holds `out`
    before. -/
def stretchChain (fuel : Nat) (junk : Byte) (out prev : Nat) : Program (Fs σ) Nat := do
  modify fun s => { s with infoDirty := true }
  match ← findFree ops fuel junk prev with
  | none => return out
  | some clust => linkFree ops prev clust

/-- `create_chain(fat, out_clust)`. -/
def createChain (fuel : Nat) (junk : Byte) (out : Nat) : Program (Fs σ) Nat :=
  stretchChain ops fuel junk out 0

/-! ## Freeing a chain -/

/-- What the clusters hold, as the library sees them. -/
def cells (s : Fs σ) (clust : Nat) : Cell Nat := s.fat.cell (s.table ops clust)

variable {ops} {s t u : Fs σ} {ps : List (Nat × Nat)} {torn : List Nat} {clust : Nat}
  {l rest : List Nat}

/-- A cluster of a chain has an item. -/
lemma lt_of_cells (ne : s.cells ops clust ≠ .bad) : clust < s.fat.clustCnt := by
  by_contra out
  refine ne ?_
  have : s.table ops clust = 1 := if_neg out
  rw [cells, this]
  rfl

/-- The cells after puts are those of the items after them. -/
lemma Puts.cells_eq (p : Puts ops s ps torn t) :
    t.cells ops = s.fat.cell ∘ applyWrites ps (s.table ops) := by
  funext c
  rw [cells, p.table_eq]
  have same := congrArg FatFs.clustCnt p.geometry
  change t.fat.clustCnt = s.fat.clustCnt at same
  unfold FatFs.cell
  rw [same]
  rfl

/-- A cluster that gets no item holds what it held. -/
lemma Puts.cells_other (p : Puts ops s ps torn t) (clust : Nat) (out : ∀ q ∈ ps, q.1 ≠ clust) :
    t.cells ops clust = s.cells ops clust := by
  rw [p.cells_eq, Function.comp_apply, applyWrites_other _ out]
  rfl

/-- `sync_fs` puts no item, and leaves a clean buffer where it succeeds. -/
lemma syncFs_puts (lay : s.fat.Layout) (co : s.Coherent ops) : wp (syncFs ops)
    (fun _ t => Puts ops s [] [] t ∧ t.fat = s.fat ∧ t.win.dirty = false ∧ t.infoDirty = false)
    (fun e t => e = .code errIo ∧ Puts ops s [] [] t ∧ t.fat = s.fat) s := by
  refine wp_imp (syncFs_spec co (by have := lay.info; omega)) ?_ ?_
  · rintro _ t ⟨w, fat, clean, info'⟩
    refine ⟨⟨congrArg _ fat, _, w, ?_⟩, fat, clean, info'⟩
    split
    · exact .info (FatFs.layout_geometry.mpr lay) _
    · exact .nil _ _
  · rintro e t ⟨rfl, ws, eq, w, fat⟩
    refine ⟨rfl, ⟨congrArg _ fat, _, w, ?_⟩, fat⟩
    rcases eq with rfl | rfl
    · exact .nil _ _
    · exact .info (FatFs.layout_geometry.mpr lay) _

/-- The flags of a cluster are those of its cell. -/
lemma getFat_cell (lay : s.fat.Layout) (co : s.Coherent ops) (lt : clust < s.fat.clustCnt) :
    wp (getFat ops clust)
      (fun r t => Moves ops s t ∧ r = (s.table ops clust, cellFlags (s.cells ops clust)))
      (fun e t => Moves ops s t ∧ (s.cells ops clust ≠ .bad → e = .code errIo)) s := by
  refine wp_imp (getFat_spec lay co lt) ?_ ?_
  · rintro ⟨val, flags⟩ t ⟨moves, eq, valid⟩
    dsimp only at eq valid
    rw [FatFs.itemFlags_cell valid, eq]
    exact ⟨moves, rfl⟩
  · rintro e t ⟨moves, io | ⟨_, none_⟩⟩
    · exact ⟨moves, fun _ => io⟩
    · refine ⟨moves, fun ne => ?_⟩
      rw [FatFs.itemFlags_of_cell ne] at none_
      cases none_

/-- A round frees the first cluster of a chain, and goes on with the rest. -/
lemma removeRound_spec (lay : s.fat.Layout) (co : s.Coherent ops)
    (chain : Chain (s.cells ops) (clust :: rest)) :
    wp (removeRound ops clust)
      (fun r t => Puts ops s [(clust, 0)] [] t ∧
        t.fat = { s.fat with freeCnt := u32 (s.fat.freeCnt + 1) } ∧
        t.infoDirty = s.infoDirty ∧
        match r with
        | .done _ => rest = []
        | .again next => rest.head? = some next)
      (fun e t => e = .code errIo ∧ Puts ops s [] [clust] t ∧ t.fat = s.fat ∧
        t.infoDirty = s.infoDirty) s := by
  have ne : s.cells ops clust ≠ .bad := by
    cases chain with
    | last e => simp [e]
    | next e _ => simp [e]
  have lt := lt_of_cells ne
  unfold removeRound
  refine wp_seq (getFat_cell lay co lt) ?_ fun e t h => ?_
  · rintro _ t ⟨moves, rfl⟩
    have used : ¬ cellFlags (s.cells ops clust) &&& (clustBad ||| clustFree) ≠ 0#8 := by
      cases chain with
      | last e => rw [e]; decide
      | next e _ => rw [e, cellFlags]; decide
    dsimp only
    rw [if_neg used]
    refine wp_seq (putFat_spec 0 (moves.fat ▸ lay) (moves.coherent co) (moves.fat ▸ lt))
      ?_ ?_
    · rintro _ u ⟨puts, fat, info⟩
      rw [wp_bind, wp_modify]
      have all : Puts ops s [(clust, 0)] [] { u with
          fat := { u.fat with freeCnt := u32 (u.fat.freeCnt + 1) } } := by
        obtain ⟨ws, w, shows⟩ := ((Puts.of_moves moves).trans puts).shows
        exact ⟨((Puts.of_moves moves).trans puts).geometry, ws, ⟨w.follows, w.coherent⟩, shows⟩
      have fat' : u.fat = s.fat := fat.trans moves.fat
      have info' := info.trans moves.infoDirty
      cases chain with
      | last e =>
        rw [if_pos (by rw [e]; decide), wp_pure]
        exact ⟨all, by rw [← fat'], info', rfl⟩
      | @next _ d _ e _ =>
        have target := (FatFs.cell_next e).1
        rw [if_neg (by rw [e, cellFlags]; decide), wp_pure]
        exact ⟨all, by rw [← fat'], info', congrArg some target.symm⟩
    · rintro e u ⟨rfl, puts, fat, info⟩
      exact ⟨rfl, (Puts.of_moves moves).trans puts, fat.trans moves.fat, info.trans moves.infoDirty⟩
  · obtain ⟨moves, io⟩ := h
    exact ⟨io ne, ⟨congrArg _ moves.fat, [], moves.toWrites, (Shows.nil _ _).mono nofun⟩, moves.fat,
      moves.infoDirty⟩

/-- The loop of `remove_chain` frees a chain from its first cluster on. -/
lemma removeLoop_spec {fuel : Nat} (lay : s.fat.Layout) (co : s.Coherent ops)
    (chain : Chain (s.cells ops) l) (head : l.head? = some clust) (enough : l.length ≤ fuel) :
    wp (iterate (removeRound ops) fuel clust)
      (fun _ t => Puts ops s (l.map (·, 0)) [] t ∧
        u32 t.fat.freeCnt = u32 (s.fat.freeCnt + l.length) ∧ t.fat.lastUsed = s.fat.lastUsed)
      (fun e t => e = .code errIo ∧ ∃ l₁ c l₂, l = l₁ ++ c :: l₂ ∧
        Puts ops s (l₁.map (·, 0)) [c] t ∧ u32 t.fat.freeCnt = u32 (s.fat.freeCnt + l₁.length) ∧
        t.fat.lastUsed = s.fat.lastUsed) s := by
  let Inv : Nat → Nat → Fs σ → Prop := fun n c u => ∃ l₁ l₂, l = l₁ ++ c :: l₂ ∧
    l₂.length < n ∧ Puts ops s (l₁.map (·, 0)) [] u ∧
    u32 u.fat.freeCnt = u32 (s.fat.freeCnt + l₁.length) ∧ u.fat.lastUsed = s.fat.lastUsed
  refine wp_iterate Inv ?_ ?_ ?_
  · rintro c u ⟨l₁, l₂, _, less, _⟩
    exact absurd less (Nat.not_lt_zero _)
  · rintro n c u ⟨l₁, l₂, rfl, less, puts, free, last⟩
    have nodup := chain.nodup
    -- what is left of the chain is a chain still
    have left : Chain (u.cells ops) (c :: l₂) := by
      refine (chain.drop_left).congr fun a mem => puts.cells_other a fun q mem' => ?_
      obtain ⟨b, mem_b, rfl⟩ := List.mem_map.mp mem'
      rintro rfl
      exact List.disjoint_of_nodup_append nodup mem_b mem
    refine wp_imp (removeRound_spec (puts.layout lay) (puts.coherent co) left) ?_ ?_
    · rintro r t ⟨puts', fat, _, ends⟩
      have all := puts.trans puts'
      have free' : u32 t.fat.freeCnt = u32 (s.fat.freeCnt + (l₁.length + 1)) := by
        rw [fat]
        unfold u32 at *
        dsimp only
        omega
      have last' : t.fat.lastUsed = s.fat.lastUsed := by rw [fat]; exact last
      have puts_eq : l₁.map (·, 0) ++ [(c, 0)] = (l₁ ++ [c]).map fun c => (c, 0) := by
        rw [List.map_append]
        rfl
      rw [puts_eq] at all
      cases r with
      | done _ =>
        obtain rfl : l₂ = [] := ends
        exact ⟨all, by rw [List.length_append]; exact free', last'⟩
      | again d =>
        cases l₂ with
        | nil => cases ends
        | cons d' l₂ =>
          cases ends
          refine ⟨l₁ ++ [c], l₂, by simp, ?_, all, by rw [List.length_append]; exact free', last'⟩
          rw [List.length_cons] at less
          omega
    · rintro e t ⟨rfl, puts', fat, _⟩
      have all := puts.trans puts'
      rw [List.append_nil] at all
      exact ⟨rfl, l₁, c, l₂, rfl, all, by rw [fat]; exact free, by rw [fat]; exact last⟩
  · cases l with
    | nil => cases head
    | cons c l =>
      cases head
      exact ⟨[], l, rfl, enough, .of_moves (.refl s), rfl, rfl⟩

/-- `remove_chain` frees the clusters of a chain, from the first one on; where it fails, it has
    freed the first ones. -/
lemma removeChain_spec {fuel : Nat} (lay : s.fat.Layout) (co : s.Coherent ops)
    (chain : Chain (s.cells ops) l) (head : l.head? = some clust) (enough : l.length ≤ fuel) :
    wp (removeChain ops fuel clust)
      (fun _ t => Puts ops s (l.map (·, 0)) [] t ∧
        u32 t.fat.freeCnt = u32 (s.fat.freeCnt + l.length) ∧ t.fat.lastUsed = s.fat.lastUsed)
      (fun e t => e = .code errIo ∧ ∃ l₁ l₂ torn, l = l₁ ++ l₂ ∧ Puts ops s (l₁.map (·, 0)) torn t ∧
        u32 t.fat.freeCnt = u32 (s.fat.freeCnt + l₁.length) ∧
        t.fat.lastUsed = s.fat.lastUsed) s := by
  unfold removeChain
  rw [wp_bind, wp_modify]
  have marked : Puts ops s [] [] { s with infoDirty := true } :=
    ⟨rfl, [], ⟨.refl _, id⟩, .nil _ _⟩
  refine wp_seq (removeLoop_spec (s := { s with infoDirty := true }) lay co chain head enough) ?_ ?_
  · rintro _ t ⟨puts, free, last⟩
    have puts := marked.trans puts
    refine wp_imp (syncFs_puts (puts.layout lay) (puts.coherent co)) ?_ ?_
    · rintro _ u ⟨synced, fat, _⟩
      have all := puts.trans synced
      simp only [List.nil_append, List.append_nil] at all
      rw [fat]
      exact ⟨all, free, last⟩
    · rintro e u ⟨rfl, synced, fat⟩
      have all := puts.trans synced
      simp only [List.nil_append, List.append_nil] at all
      rw [fat]
      exact ⟨rfl, l, [], [], (List.append_nil l).symm, all, free, last⟩
  · rintro e t ⟨rfl, l₁, c, l₂, rfl, puts, rest⟩
    exact ⟨rfl, l₁, c :: l₂, [c], rfl, marked.trans puts, rest⟩

/-! ## Taking a free cluster -/

/-- The search moves the buffer only. It ends at a free cluster other than `last_used`, or without
    one if `flags` was zero at its start. -/
lemma scan_spec {fuel : Nat} {junk : Byte} (lay : s.fat.Layout) (co : s.Coherent ops) :
    wp (iterate (scanRound ops) fuel (clust, junk))
      (fun r t => Moves ops s t ∧
        match r with
        | none => junk = 0#8
        | some c => c < s.fat.clustCnt ∧ c ≠ s.fat.lastUsed ∧ s.cells ops c = .free)
      (fun _ t => Moves ops s t) s := by
  refine wp_iterate (fun _ b u => Moves ops s u ∧ (b.2 = 0#8 → junk = 0#8)) (fun _ _ h => h.1) ?_
    ⟨.refl s, id⟩
  rintro n ⟨c, flags⟩ u ⟨moves, zero⟩
  have lay' : u.fat.Layout := moves.fat.symm ▸ lay
  unfold scanRound
  rw [wp_bind, wp_get]
  dsimp only
  split
  · exact moves
  · next ne =>
    have lt := lay'.bump_lt c
    rw [moves.fat] at ne lt
    rw [wp_bind, wp_attempt]
    refine wp_imp (getFat_cell lay' (moves.coherent co) (lay'.bump_lt c)) ?_ ?_
    · rintro _ t ⟨moves', rfl⟩
      have same : u.cells ops (u.fat.bump c) = s.cells ops (s.fat.bump c) := by
        rw [(Puts.of_moves moves).cells_other _ nofun, moves.fat]
      have all := moves.trans moves'
      dsimp only
      rw [same]
      cases free : s.cells ops (s.fat.bump c) with
      | free =>
        rw [if_pos (by decide), wp_pure, moves.fat]
        exact ⟨all, lt, ne, free⟩
      | bad =>
        rw [if_neg (by decide), wp_pure]
        exact ⟨all, fun h => absurd h (cellFlags_ne .bad)⟩
      | last =>
        rw [if_neg (by decide), wp_pure]
        exact ⟨all, fun h => absurd h (cellFlags_ne .last)⟩
      | next d =>
        rw [if_neg (by rw [cellFlags]; decide), wp_pure]
        exact ⟨all, fun h => absurd h (cellFlags_ne (.next d))⟩
    · rintro e t ⟨moves', _⟩
      have all := moves.trans moves'
      cases e with
      | code err =>
        dsimp only
        split
        · next h => exact ⟨all, zero h⟩
        · exact all
      | rounds => exact all

/-- The puts that take a cluster, and link it behind `prev`. -/
def takePuts (prev c : Nat) : List (Nat × Nat) :=
  (c, 0x0FFFFFFF) :: if prev ≠ 0 then [(prev, c)] else []

/-- Taking a cluster puts the end of a chain there, and then links it. -/
lemma linkFree_spec {prev c : Nat} (lay : s.fat.Layout) (co : s.Coherent ops)
    (lt : c < s.fat.clustCnt) (lt' : prev < s.fat.clustCnt) :
    wp (linkFree ops prev c)
      (fun r t => r = c ∧ Puts ops s (takePuts prev c) [] t ∧ t.fat.lastUsed = c ∧
        t.fat.freeCnt = u32 (s.fat.freeCnt + 2 ^ 32 - 1))
      (fun e t => e = .code errIo ∧ ∃ torn, (∃ k, Puts ops s ((takePuts prev c).take k) torn t ∧
          t.fat.freeCnt = s.fat.freeCnt ∧ t.fat.lastUsed = s.fat.lastUsed) ∨
        (Puts ops s (takePuts prev c) torn t ∧ t.fat.lastUsed = c ∧
          t.fat.freeCnt = u32 (s.fat.freeCnt + 2 ^ 32 - 1))) s := by
  have small := lay.small
  have mod : c % 2 ^ 28 = c := Nat.mod_eq_of_lt (by omega)
  -- the end of the function, with both items in the table
  have tail : ∀ {u}, Puts ops s (takePuts prev c) [] u → u.fat.freeCnt = s.fat.freeCnt →
      wp (do
        modify fun s : Fs σ => { s with
          fat := { s.fat with lastUsed := c, freeCnt := u32 (s.fat.freeCnt + 2 ^ 32 - 1) } }
        syncFs ops
        return c)
      (fun r t => r = c ∧ Puts ops s (takePuts prev c) [] t ∧ t.fat.lastUsed = c ∧
        t.fat.freeCnt = u32 (s.fat.freeCnt + 2 ^ 32 - 1))
      (fun e t => e = .code errIo ∧ ∃ torn, (∃ k, Puts ops s ((takePuts prev c).take k) torn t ∧
          t.fat.freeCnt = s.fat.freeCnt ∧ t.fat.lastUsed = s.fat.lastUsed) ∨
        (Puts ops s (takePuts prev c) torn t ∧ t.fat.lastUsed = c ∧
          t.fat.freeCnt = u32 (s.fat.freeCnt + 2 ^ 32 - 1))) u := by
    intro u puts free
    rw [wp_bind, wp_modify]
    have counted : Puts ops s (takePuts prev c) [] { u with
        fat := { u.fat with lastUsed := c, freeCnt := u32 (u.fat.freeCnt + 2 ^ 32 - 1) } } := by
      obtain ⟨ws, w, shows⟩ := puts.shows
      exact ⟨puts.geometry, ws, ⟨w.follows, w.coherent⟩, shows⟩
    refine wp_seq (syncFs_puts (counted.layout lay) (counted.coherent co)) ?_ ?_
    · rintro _ t ⟨synced, fat, _⟩
      have all := counted.trans synced
      rw [List.append_nil, List.append_nil] at all
      rw [wp_pure, fat, ← free]
      exact ⟨rfl, all, rfl, rfl⟩
    · rintro e t ⟨rfl, synced, fat⟩
      have all := counted.trans synced
      rw [List.append_nil, List.append_nil] at all
      rw [fat, ← free]
      exact ⟨rfl, [], .inr ⟨all, rfl, rfl⟩⟩
  unfold linkFree
  refine wp_seq (putFat_spec 0x0FFFFFFF lay co lt) ?_ ?_
  · rintro _ t ⟨puts, fat, _⟩
    by_cases first : prev = 0
    · rw [if_neg (not_not.mpr first)]
      refine tail ?_ (by rw [fat])
      rw [takePuts, if_neg (not_not.mpr first)]
      exact puts
    · rw [if_pos first]
      refine wp_seq (putFat_spec c (puts.layout lay) (puts.coherent co)
        (by rw [puts.clustCnt]; exact lt')) ?_ ?_
      · rintro _ u ⟨linked, fat', _⟩
        refine tail ?_ (by rw [fat', fat])
        have all := puts.trans linked
        rw [mod] at all
        rw [takePuts, if_pos first]
        exact all
      · rintro e u ⟨rfl, torn, fat', _⟩
        exact ⟨rfl, _, .inl ⟨1, puts.trans torn, by rw [fat', fat], by rw [fat', fat]⟩⟩
  · rintro e t ⟨rfl, torn, fat, _⟩
    exact ⟨rfl, _, .inl ⟨0, torn, by rw [fat], by rw [fat]⟩⟩

/-- The step from `s` to `t` takes a free cluster, and links it behind `prev`. -/
structure Takes (ops : Device σ Sect) (s : Fs σ) (prev c : Nat) (torn : List Nat) (t : Fs σ) :
    Prop where
  lt : c < s.fat.clustCnt
  free : s.cells ops c = .free
  puts : Puts ops s (takePuts prev c) torn t
  lastUsed : t.fat.lastUsed = c
  freeCnt : t.fat.freeCnt = u32 (s.fat.freeCnt + 2 ^ 32 - 1)

/-- The step takes a free cluster at most, and may stop before it is linked. -/
structure MayTake (ops : Device σ Sect) (s : Fs σ) (prev : Nat) (torn : List Nat) (t : Fs σ) :
    Prop where
  puts : ∃ c k, c < s.fat.clustCnt ∧ (k ≠ 0 → s.cells ops c = .free) ∧
    Puts ops s ((takePuts prev c).take k) torn t
  freeCnt : t.fat.freeCnt = s.fat.freeCnt
  lastUsed : t.fat.lastUsed = s.fat.lastUsed

/-- A step that only moves the buffer takes no cluster. -/
lemma MayTake.of_moves (lay : s.fat.Layout) (prev : Nat) (m : Moves ops s t) :
    MayTake ops s prev [] t :=
  ⟨⟨0, 0, by have := lay.two; omega, fun h => absurd rfl h, .of_moves m⟩, by rw [m.fat],
    by rw [m.fat]⟩

/-- The search moves the buffer only, and finds a free cluster; only where no item has been read,
    for a first cluster, may it end without one. -/
lemma findFree_spec {fuel prev : Nat} {junk : Byte} (lay : s.fat.Layout) (co : s.Coherent ops) :
    wp (findFree ops fuel junk prev)
      (fun r t => Moves ops s t ∧
        match r with
        | none => prev = 0 ∧ junk = 0#8
        | some c => c < s.fat.clustCnt ∧ s.cells ops c = .free)
      (fun _ t => Moves ops s t) s := by
  -- behind `last_used`, from flags that are zero only if they are junk
  have scan : ∀ {u : Fs σ} {flags : Byte}, Moves ops s u → (flags = 0#8 → prev = 0 ∧ junk = 0#8) →
      wp (iterate (scanRound ops) fuel (s.fat.lastUsed, flags))
        (fun r t => Moves ops s t ∧
          match r with
          | none => prev = 0 ∧ junk = 0#8
          | some c => c < s.fat.clustCnt ∧ s.cells ops c = .free)
        (fun _ t => Moves ops s t) u := by
    intro u flags m zero
    refine wp_imp (scan_spec (m.fat.symm ▸ lay) (m.coherent co)) ?_ fun e t m' => m.trans m'
    rintro r t ⟨m', found⟩
    refine ⟨m.trans m', ?_⟩
    cases r with
    | none => exact zero found
    | some c =>
      obtain ⟨lt, _, free⟩ := found
      rw [m.fat] at lt
      rw [(Puts.of_moves m).cells_other _ nofun] at free
      exact ⟨lt, free⟩
  unfold findFree
  rw [wp_bind, wp_get]
  by_cases first : prev = 0
  · rw [if_neg (not_not.mpr first)]
    exact scan (.refl s) fun h => ⟨first, h⟩
  · rw [if_pos first]
    have near := lay.bump_lt prev
    refine wp_seq (getFat_cell lay co near) ?_ fun e t h => h.1
    rintro _ t ⟨m, rfl⟩
    dsimp only
    cases free : s.cells ops (s.fat.bump prev) with
    | free => exact ⟨m, near, free⟩
    | bad => exact scan m fun h => absurd h (cellFlags_ne .bad)
    | last => exact scan m fun h => absurd h (cellFlags_ne .last)
    | next d =>
      rw [if_neg (by rw [cellFlags]; decide)]
      exact scan m fun h => absurd h (cellFlags_ne (.next d))

/-- `stretch_chain` takes a free cluster and links it, or fails before or after the taking. Only
    where nothing was read, for a first cluster, may it return without one. -/
lemma stretchChain_spec {prev : Nat} (fuel : Nat) (junk : Byte) (out : Nat) (lay : s.fat.Layout)
    (co : s.Coherent ops) (lt : prev < s.fat.clustCnt) :
    wp (stretchChain ops fuel junk out prev)
      (fun r t => Takes ops s prev r [] t ∨
        prev = 0 ∧ junk = 0#8 ∧ r = out ∧ MayTake ops s prev [] t)
      (fun _ t => ∃ torn, MayTake ops s prev torn t ∨ ∃ c, Takes ops s prev c torn t) s := by
  have marked : ∀ {u : Fs σ}, Moves ops { s with infoDirty := true } u → Puts ops s [] [] u :=
    fun m => ⟨congrArg FatFs.geometry m.fat, [], ⟨m.follows, m.coherent⟩, .nil _ _⟩
  have nothing : ∀ {u : Fs σ}, Moves ops { s with infoDirty := true } u →
      MayTake ops s prev [] u := fun m =>
    ⟨⟨0, 0, by have := lay.two; omega, fun h => absurd rfl h, marked m⟩,
      congrArg FatFs.freeCnt m.fat, congrArg FatFs.lastUsed m.fat⟩
  unfold stretchChain
  rw [wp_bind, wp_modify]
  refine wp_seq (findFree_spec (s := { s with infoDirty := true }) lay co) ?_
    fun e t m => ⟨[], .inl (nothing m)⟩
  rintro r t ⟨m, found⟩
  cases r with
  | none =>
    obtain ⟨first, junk0⟩ := found
    exact .inr ⟨first, junk0, rfl, nothing m⟩
  | some c =>
    obtain ⟨c_lt, free⟩ := found
    have start := marked m
    have fat : t.fat = s.fat := m.fat
    refine wp_imp (linkFree_spec (start.layout lay) (start.coherent co) (fat.symm ▸ c_lt)
      (fat.symm ▸ lt)) ?_ ?_
    · rintro r u ⟨rfl, puts, last, count⟩
      exact .inl ⟨c_lt, free, start.trans puts, last, by rw [count, fat]⟩
    · rintro e u ⟨_, torn, ⟨k, puts, count, last⟩ | ⟨puts, last, count⟩⟩
      · exact ⟨torn, .inl ⟨⟨c, k, c_lt, fun _ => free, start.trans puts⟩, by rw [count, fat],
          by rw [last, fat]⟩⟩
      · exact ⟨torn, .inr ⟨c, c_lt, free, start.trans puts, last, by rw [count, fat]⟩⟩

/-- The cells of a small volume are those of its disk. -/
lemma smallFs_cells {σ : Type} (ops : Device σ Sect) (disk : σ) (c : Nat) :
    (smallFs disk).cells ops c = smallFat.cell (smallFat.table (ops.content disk) c) := by
  rw [cells, table, view, Window.view_of_clean rfl]
  rfl

end Fs

end TRS.Fat
