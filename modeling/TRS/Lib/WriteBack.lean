import TRS.Lib.Block

/-!
# A write-back cache of one block

A `Window` keeps one block of a device in a buffer, which may be newer than the device (`dirty`).
What its user sees is `view`. `Lag d₀ ws w` says that the user has made the writes `ws`, in this
order, since the device held `d₀`: the view shows all of them, and the device has the first ones,
all but some at the end that went to the block in the window. `Follows w ws w'` says that the step
from `w` to `w'` adds the writes `ws` to any history, so what it says about the view and about the
device holds of any sequence of steps (`Follows.trans`), whatever writes to the device fail on the
way: power may fail at any moment, and the device holds what the user had made up to some moment.

Block 0 is never cached: a window at block 0 is an empty one (`Coherent`).
-/

namespace TRS.Lib

/-- One block in memory, and the device. -/
structure Window (σ β : Type) where
  sect : Nat
  buf : β
  dirty : Bool
  disk : σ

namespace Window
variable {σ β : Type} (dev : Device σ β)

/-- What the user of the window sees. -/
def view (w : Window σ β) (n : Nat) : β :=
  if w.dirty = true ∧ n = w.sect then w.buf else dev.content w.disk n

/-- A window that is not empty shows the block that it is at. -/
def Coherent (w : Window σ β) : Prop := w.sect ≠ 0 → w.buf = w.view dev w.sect

/-- The window after the writes `ws`, on a device that held `d₀`. -/
structure Lag (d₀ : Nat → β) (ws : List (Nat × β)) (w : Window σ β) : Prop where
  view_eq : w.view dev = applyWrites ws d₀
  disk_eq : ∃ old new, ws = old ++ new ∧ dev.content w.disk = applyWrites old d₀ ∧
    (∀ p ∈ new, p.1 = w.sect) ∧ (new ≠ [] → w.dirty = true)

/-- The step from `w` to `w'` makes the writes `ws`. -/
def Follows (w : Window σ β) (ws : List (Nat × β)) (w' : Window σ β) : Prop :=
  ∀ d₀ h, Lag dev d₀ h w → Lag dev d₀ (h ++ ws) w'

/-- `sync`: write a block back that is newer than the device. -/
def sync (w : Window σ β) : Bool × Window σ β :=
  if w.dirty = true then
    let (ok, disk) := dev.write w.buf w.sect w.disk
    (ok, { w with disk, dirty := !ok })
  else (true, w)

/-- `load`: take the window to block `n`. -/
def load (n : Nat) (w : Window σ β) : Bool × Window σ β :=
  if w.sect = n then (true, w)
  else
    match w.sync dev with
    | (false, w) => (false, w)
    | (true, w) =>
      match dev.read n w.disk with
      | (none, disk) => (false, { w with disk })
      | (some buf, disk) => (true, { w with sect := n, buf, disk })

/-- `put`: change the block in the window. -/
def put (b : β) (w : Window σ β) : Window σ β := { w with buf := b, dirty := true }

variable {dev} {w w' w'' : Window σ β} {ws vs : List (Nat × β)} {d₀ : Nat → β}

/-- With a clean buffer the sectors are those of the disk. -/
lemma view_of_clean (clean : w.dirty = false) : w.view dev = dev.content w.disk := by
  funext n
  exact if_neg (by simp [clean])

/-- A read of the device past the window. -/
lemma view_read (n : Nat) (w : Window σ β) :
    ({ w with disk := (dev.read n w.disk).2 } : Window σ β).view dev = w.view dev := by
  unfold view
  rw [dev.read_content]

/-- The device gets a block past the window, which is at another one. -/
lemma view_disk {disk : σ} {n : Nat} {b : β} (ne : n ≠ w.sect)
    (e : dev.content disk = Function.update (dev.content w.disk) n b) :
    ({ w with disk } : Window σ β).view dev = Function.update (w.view dev) n b := by
  funext m
  unfold view
  rw [e]
  by_cases same : m = n
  · subst same
    rw [if_neg fun h => ne h.2, Function.update_self, Function.update_self]
  · rw [Function.update_of_ne same, Function.update_of_ne same]

/-- With a dirty one its sector is the buffer. -/
lemma view_of_dirty (dirty : w.dirty = true) :
    w.view dev = Function.update (dev.content w.disk) w.sect w.buf := by
  funext n
  unfold view
  by_cases e : n = w.sect
  · rw [if_pos ⟨dirty, e⟩, e, Function.update_self]
  · rw [if_neg fun h => e h.2, Function.update_of_ne e]

/-- A dirty buffer is always coherent. -/
lemma Coherent.of_dirty (dirty : w.dirty = true) : Coherent dev w := fun _ =>
  (if_pos ⟨dirty, rfl⟩ : w.view dev w.sect = w.buf).symm

/-- A window that has just been found. -/
lemma Lag.start (dev : Device σ β) (w : Window σ β) :
    Lag dev (dev.content w.disk) (if w.dirty = true then [(w.sect, w.buf)] else []) w := by
  cases dirty : w.dirty with
  | false =>
    exact ⟨view_of_clean dirty, [], [], rfl, rfl, List.forall_mem_nil _, fun h => absurd rfl h⟩
  | true =>
    refine ⟨view_of_dirty dirty, [], _, rfl, rfl, fun p mem => ?_, fun _ => dirty⟩
    rw [List.mem_singleton.mp mem]

namespace Follows

lemma refl (w : Window σ β) : Follows dev w [] w := fun d₀ h lag => by
  rw [List.append_nil]
  exact lag

lemma trans (first : Follows dev w ws w') (second : Follows dev w' vs w'') :
    Follows dev w (ws ++ vs) w'' := fun d₀ h lag => by
  rw [← List.append_assoc]
  exact second d₀ _ (first d₀ h lag)

/-- The view has the writes. -/
lemma view_eq (step : Follows dev w ws w') : w'.view dev = applyWrites ws (w.view dev) := by
  have start := Lag.start dev w
  rw [(step _ _ start).view_eq, applyWrites_append, ← start.view_eq]

/-- The device has the writes up to some moment. -/
lemma disk_eq (step : Follows dev w ws w') (clean : w.dirty = false) :
    ∃ old new, ws = old ++ new ∧
      dev.content w'.disk = applyWrites old (dev.content w.disk) := by
  have start := Lag.start dev w
  rw [clean] at start
  obtain ⟨old, new, e, disk, _⟩ := (step _ _ start).disk_eq
  exact ⟨old, new, e, disk⟩

end Follows

/-- A clean window hides nothing from the device. -/
lemma Lag.clean {ws : List (Nat × β)} (lag : Lag dev d₀ ws w) (clean : w.dirty = false) :
    dev.content w.disk = applyWrites ws d₀ := by
  rw [← view_of_clean clean, lag.view_eq]

/-! ## The operations -/

/-- To write the buffer back leaves it at its sector. -/
lemma sync_sect (w : Window σ β) : (w.sync dev).2.sect = w.sect := by
  unfold sync
  split <;> rfl

/-- It keeps the bytes of the buffer. -/
lemma sync_buf (w : Window σ β) : (w.sync dev).2.buf = w.buf := by
  unfold sync
  split <;> rfl

/-- It leaves a clean buffer where it succeeds. -/
lemma sync_true (ok : (w.sync dev).1 = true) : (w.sync dev).2.dirty = false := by
  unfold sync at *
  split
  · next dirty =>
    rw [if_pos dirty] at ok
    exact congrArg (!·) ok
  · next clean => exact Bool.not_eq_true _ ▸ clean

/-- `sync` makes no write of its own, and what the user sees stays, also when it fails. -/
lemma sync_follows (dev : Device σ β) (w : Window σ β) : Follows dev w [] (w.sync dev).2 := by
  intro d₀ h lag
  rw [List.append_nil]
  cases dirty : w.dirty with
  | false =>
    rw [sync, if_neg (by simp [dirty])]
    exact lag
  | true =>
    obtain ⟨view, old, new, rfl, disk, at_, _⟩ := lag
    have same : w.view dev = Function.update (dev.content w.disk) w.sect w.buf :=
      view_of_dirty dirty
    rw [sync, if_pos dirty]
    dsimp only
    cases ok : (dev.write w.buf w.sect w.disk).1 with
    | true =>
      have wrote := dev.write_true _ _ _ ok
      have all : dev.content (dev.write w.buf w.sect w.disk).2 = applyWrites (old ++ new) d₀ := by
        rw [wrote, ← same, view]
      refine ⟨(view_of_clean rfl).trans all, old ++ new, [], (List.append_nil _).symm, all,
        List.forall_mem_nil _, fun h => absurd rfl h⟩
    | false =>
      rcases dev.write_content w.buf w.sect w.disk with kept | wrote
      · refine ⟨?_, old, new, rfl, kept.trans disk, at_, fun _ => rfl⟩
        rw [view_of_dirty rfl]
        dsimp only
        rw [kept, ← same, view]
      · refine ⟨?_, old ++ new, [], (List.append_nil _).symm, ?_, List.forall_mem_nil _,
          fun _ => rfl⟩
        · rw [view_of_dirty rfl]
          dsimp only
          rw [wrote, Function.update_idem, ← same, view]
        · rw [wrote, ← same, view]

/-- It keeps the buffer coherent. -/
lemma sync_coherent (co : Coherent dev w) : Coherent dev (w.sync dev).2 := by
  intro ne
  have kept : (w.sync dev).2.view dev = w.view dev := (sync_follows dev w).view_eq
  rw [sync_sect] at ne
  rw [sync_buf, sync_sect, kept]
  exact co ne

/-- What `load` does, whichever way it ends. -/
lemma load_follows (dev : Device σ β) (n : Nat) (w : Window σ β) :
    Follows dev w [] (w.load dev n).2 := by
  unfold load
  split
  · exact .refl w
  · have synced := sync_follows dev w
    cases e : w.sync dev with
    | mk ok w1 =>
      rw [e] at synced
      cases ok with
      | false => exact synced
      | true =>
        have clean : w1.dirty = false := by
          have ok : (w.sync dev).1 = true := by rw [e]
          have := sync_true ok
          rwa [e] at this
        have same : ∀ r : Window σ β, r.dirty = false → dev.content r.disk = dev.content w1.disk →
            Follows dev w1 [] r := by
          intro r rc content d₀ h lag
          have all := lag.clean clean
          rw [← content] at all
          rw [List.append_nil]
          exact ⟨(view_of_clean rc).trans all, h, [], (List.append_nil _).symm, all,
            List.forall_mem_nil _, fun h => absurd rfl h⟩
        have kept := dev.read_content n w1.disk
        dsimp only
        cases r : dev.read n w1.disk with
        | mk buf disk =>
          rw [r] at kept
          cases buf with
          | none => exact synced.trans (same _ clean kept)
          | some b => exact synced.trans (same _ clean kept)

/-- The window ends at the block that it was sent to, or it stays. -/
lemma load_sect_or (n : Nat) (w : Window σ β) :
    (w.load dev n).2.sect = n ∨ (w.load dev n).2.sect = w.sect := by
  have synced : (w.sync dev).2.sect = w.sect := sync_sect w
  unfold load
  split
  · exact .inr rfl
  · cases e : w.sync dev with
    | mk ok w1 =>
      rw [e] at synced
      cases ok with
      | false => exact .inr synced
      | true =>
        dsimp only
        cases r : dev.read n w1.disk with
        | mk buf disk =>
          cases buf with
          | none => exact .inr synced
          | some b => exact .inl rfl

/-- A load that succeeds leaves the buffer at its sector. -/
lemma load_sect {n : Nat} (ok : (w.load dev n).1 = true) : (w.load dev n).2.sect = n := by
  unfold load at *
  split at ok
  · next here =>
    rw [if_pos here]
    exact here
  · next away =>
    rw [if_neg away]
    cases e : w.sync dev with
    | mk ok1 w1 =>
      rw [e] at ok
      cases ok1 with
      | false => cases ok
      | true =>
        dsimp only at ok ⊢
        cases r : dev.read n w1.disk with
        | mk buf disk =>
          rw [r] at ok
          cases buf with
          | none => cases ok
          | some b => rfl

/-- It keeps the buffer coherent. -/
lemma load_coherent (n : Nat) (co : Coherent dev w) : Coherent dev (w.load dev n).2 := by
  unfold load
  split
  · exact co
  · have synced := sync_coherent co
    cases e : w.sync dev with
    | mk ok w1 =>
      rw [e] at synced
      cases ok with
      | false => exact synced
      | true =>
        have clean : w1.dirty = false := by
          have ok : (w.sync dev).1 = true := by rw [e]
          have := sync_true ok
          rwa [e] at this
        have kept := dev.read_content n w1.disk
        have value := dev.read_some n w1.disk
        dsimp only
        cases r : dev.read n w1.disk with
        | mk buf disk =>
          rw [r] at kept value
          cases buf with
          | none =>
            intro ne
            have co' := synced ne
            rw [view_of_clean clean] at co'
            rw [view_of_clean (w := { w1 with disk }) clean]
            exact co'.trans (congrFun kept w1.sect).symm
          | some b =>
            intro _
            rw [view_of_clean (w := { w1 with sect := n, buf := b, disk }) clean]
            exact (value b rfl).trans (congrFun kept n).symm

/-- On a device that does not fail the buffer is written back. -/
lemma sync_reliable (works : dev.Reliable) (w : Window σ β) : (w.sync dev).1 = true := by
  unfold sync
  split
  · exact works.writes _ _ _
  · rfl

/-- There a load succeeds. -/
lemma load_reliable (works : dev.Reliable) (n : Nat) (w : Window σ β) :
    (w.load dev n).1 = true := by
  unfold load
  split
  · rfl
  · have synced := sync_reliable works w
    cases e : w.sync dev with
    | mk ok w1 =>
      rw [e] at synced
      obtain rfl : ok = true := synced
      have reads := works.reads n w1.disk
      dsimp only
      cases r : dev.read n w1.disk with
      | mk buf disk =>
        rw [r] at reads
        cases buf with
        | none => cases reads
        | some b => rfl

/-- To store to the buffer is to write its sector. -/
lemma put_follows (b : β) (w : Window σ β) : Follows dev w [(w.sect, b)] (w.put b) := by
  rintro d₀ h ⟨view, old, new, rfl, disk, at_, dirty⟩
  refine ⟨?_, old, new ++ [(w.sect, b)], List.append_assoc .., disk, ?_, fun _ => rfl⟩
  · rw [applyWrites_append, ← view, view_of_dirty rfl]
    cases d : w.dirty with
    | false => rw [view_of_clean d]; rfl
    | true =>
      rw [view_of_dirty d]
      exact (Function.update_idem ..).symm
  · intro p mem
    rcases List.mem_append.mp mem with mem | mem
    · exact at_ p mem
    · rw [List.mem_singleton.mp mem]
      rfl

end Window

end TRS.Lib
