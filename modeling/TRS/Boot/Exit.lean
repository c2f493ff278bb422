import TRS.Lib.Mem
import TRS.Lib.While
import TRS.Lib.Word

/-!
# Leaving the boot services

`get_mmaped_end_exit` of `bootloader/uefi/boot.c`. The firmware answers each call as it likes, by
all the calls before: the map may grow and change between the passes of the loop, a buffer may be
too small and a key may be refused any number of times.

* `OneHeld`: the invariant at the head of the loop, at most one buffer is held.
* `exitRound_again`: a round that is followed by another keeps it.
* `exitRound_done`: a round that ends the loop leaves the map whose key was accepted.

The headline `kernel_gets_accepted_map` puts these together by the rule `loop_post` for loops that
end when they like.
-/

namespace TRS.Boot
open TRS.Lib

/-- What `GetMemoryMap` gives on success: the map, its key and the stride of its descriptors. -/
structure MemoryMap where
  bytes : List Byte
  key : Nat
  dsize : Nat
  deriving DecidableEq, Repr

/-- The answer of `GetMemoryMap`: the map, with `actual_size` the number of its bytes, the size that
    it needs, or another error. -/
inductive MapAnswer where
  | success (map : MemoryMap)
  | bufferTooSmall (actualSize : Nat)
  | failed
  deriving DecidableEq, Repr

/-- A call of the boot services, with its answer. -/
inductive FirmwareCall where
  | freePool (buffer : Nat)
  | allocatePool (size : Nat) (buffer : Option Nat)
  | getMemoryMap (size buffer : Nat) (answer : MapAnswer)
  | exitBootServices (key : Nat) (accepted : Bool)
  deriving DecidableEq, Repr

/-- The calls so far, the latest first. -/
abbrev Calls := List FirmwareCall

/-- The firmware: what it answers after the calls so far, and the memory that they leave. -/
structure Firmware where
  allocatePool : Calls → (size : Nat) → Option Nat
  getMemoryMap : Calls → (size buffer : Nat) → MapAnswer
  exitBootServices : Calls → (key : Nat) → Bool
  mem : Calls → Mem

/-- The pool buffers that are allocated and not freed, with their sizes. -/
def held : Calls → List (Nat × Nat)
  | [] => []
  | .allocatePool size (some buffer) :: calls => (buffer, size) :: held calls
  | .freePool buffer :: calls => (held calls).filter (·.1 ≠ buffer)
  | _ :: calls => held calls

/-- The bytes are in memory from `a` on. -/
def HoldsBytes (m : Mem) (a : Nat) (bytes : List Byte) : Prop :=
  ∀ i (lt : i < bytes.length), m (a + i) = bytes[i]

/-- What the specification of the firmware promises. -/
structure Firmware.Lawful (fw : Firmware) : Prop where
  /-- A buffer is not NULL, and none that is held. -/
  fresh : ∀ calls size buffer, fw.allocatePool calls size = some buffer →
    buffer ≠ 0 ∧ ∀ b ∈ held calls, b.1 ≠ buffer
  /-- The map fits the buffer and is stored there. -/
  fills : ∀ calls size buffer map, fw.getMemoryMap calls size buffer = .success map →
    map.bytes.length ≤ size ∧
      HoldsBytes (fw.mem (.getMemoryMap size buffer (.success map) :: calls)) buffer map.bytes
  /-- The buffers of the loader outlive the boot services. -/
  keeps : ∀ calls key, ∀ b ∈ held calls, ∀ i < b.2,
    fw.mem (.exitBootServices key true :: calls) (b.1 + i) = fw.mem calls (b.1 + i)

/-- `mmap_addr`, `mmap_size` and `mmap_dsize` of `_bootinfo`. -/
structure MmapInfo where
  mmapAddr : Nat
  mmapSize : Nat
  mmapDsize : Nat
  deriving DecidableEq, Repr

/-- The loop of `get_mmaped_end_exit`: the calls made, `msize`, `ds`, and the fields of `_bootinfo`.
    The other variables are set again before they are read. -/
structure Exiting where
  calls : Calls
  msize : Nat
  ds : Nat
  info : MmapInfo

/-- A pass of the loop. It goes on, or returns, or stops in `fatal`. -/
def exitRound (fw : Firmware) (s : Exiting) : Round Exiting (Except String Exiting) :=
  let calls := if s.ds ≠ 0 then .freePool s.ds :: s.calls else s.calls
  match fw.allocatePool calls s.msize with
  | none => .done (.error "cannot allocate pool for mmap.")
  | some ds =>
    let calls := .allocatePool s.msize (some ds) :: calls
    let es := fw.getMemoryMap calls s.msize ds
    let calls := .getMemoryMap s.msize ds es :: calls
    match es with
    | .bufferTooSmall actualSize => .again { s with calls, msize := u64 (actualSize + 0x2000), ds }
    | .failed => .done (.error "memory mapping.")
    | .success map =>
      let actualSize := map.bytes.length
      let info : MmapInfo := ⟨ds, actualSize, map.dsize⟩
      let accepted := fw.exitBootServices calls map.key
      let calls := .exitBootServices map.key accepted :: calls
      if accepted then .done (.ok { s with calls, ds, info })
      else .again { calls, msize := u64 (actualSize + 0x2000), ds, info }

/-- Before the loop. -/
def exitStart (info : MmapInfo) : Exiting := ⟨[], 0x1000, 0, info⟩

/-- `get_mmaped_end_exit()`, if it ends within `fuel` passes. -/
def getMmapedEndExit (fw : Firmware) (info : MmapInfo) (fuel : Nat) :
    Option (Except String Exiting) :=
  loop (exitRound fw) fuel (exitStart info)

/-! ## One pass -/

/-- At the head of the loop `ds` is NULL and no buffer is held, or it is the only buffer held. -/
def OneHeld (s : Exiting) : Prop :=
  (s.ds = 0 ∧ held s.calls = []) ∨ (s.ds ≠ 0 ∧ ∃ size, held s.calls = [(s.ds, size)])

/-- So at most one buffer is held. -/
lemma OneHeld.length_le {s : Exiting} (h : OneHeld s) : (held s.calls).length ≤ 1 := by
  rcases h with ⟨_, e⟩ | ⟨_, size, e⟩
  · rw [e]
    exact Nat.zero_le 1
  · rw [e]
    exact Nat.le_refl 1

/-- The free at the head of the loop leaves no buffer. -/
lemma OneHeld.freed {s : Exiting} (h : OneHeld s) :
    held (if s.ds ≠ 0 then .freePool s.ds :: s.calls else s.calls) = [] := by
  rcases h with ⟨ds, e⟩ | ⟨ds, size, e⟩
  · rw [if_neg (not_not_intro ds)]
    exact e
  · rw [if_pos ds, held, e, List.filter_cons_of_neg (by simp), List.filter_nil]

/-- What a return of the loop promises: the last calls were a `GetMemoryMap`, successful, and an
    `ExitBootServices` with the key of its map, and `_bootinfo` is about this map, whole in a buffer
    that is still held. -/
def MapAccepted (fw : Firmware) (r : Exiting) : Prop :=
  ∃ map size earlier,
    r.calls = .exitBootServices map.key true ::
      .getMemoryMap size r.info.mmapAddr (.success map) :: earlier ∧
    r.info.mmapAddr ∈ (held r.calls).map Prod.fst ∧
    HoldsBytes (fw.mem r.calls) r.info.mmapAddr map.bytes ∧
    r.info.mmapSize = map.bytes.length ∧ r.info.mmapDsize = map.dsize

section
variable {fw : Firmware} (law : fw.Lawful) {s : Exiting} (one : OneHeld s)
include law one

/-- A round that is followed by another keeps to that. -/
lemma exitRound_again {s' : Exiting} (e : exitRound fw s = .again s') : OneHeld s' := by
  have freed := one.freed
  unfold exitRound at e
  dsimp only at e
  generalize (if s.ds ≠ 0 then FirmwareCall.freePool s.ds :: s.calls else s.calls) = calls
    at e freed
  split at e
  · cases e
  · next ds got =>
    have ne := (law.fresh calls s.msize ds got).1
    split at e
    · -- too small
      cases e
      exact .inr ⟨ne, s.msize, by simp only [held, freed]⟩
    · cases e
    · split at e
      · cases e
      · -- refused
        cases e
        exact .inr ⟨ne, s.msize, by simp only [held, freed]⟩

/-- A round that ends the loop with success has had its map accepted. -/
lemma exitRound_done {r : Exiting} (e : exitRound fw s = .done (.ok r)) : MapAccepted fw r := by
  have freed := one.freed
  unfold exitRound at e
  dsimp only at e
  generalize (if s.ds ≠ 0 then FirmwareCall.freePool s.ds :: s.calls else s.calls) = calls
    at e freed
  split at e
  · cases e
  · next ds got =>
    split at e
    · cases e
    · cases e
    · next map answer =>
      rw [answer] at e
      split at e
      · next accepted =>
        cases e
        obtain ⟨fits, filled⟩ := law.fills _ _ _ _ answer
        rw [accepted]
        have own : (ds, s.msize) ∈ held (.getMemoryMap s.msize ds (.success map) ::
            .allocatePool s.msize (some ds) :: calls) := by
          simp only [held, List.mem_cons_self]
        refine ⟨map, s.msize, _, rfl, ?_, fun i lt => ?_, rfl, rfl⟩
        · exact List.mem_map_of_mem own
        · dsimp only
          rw [law.keeps _ map.key _ own i (Nat.lt_of_lt_of_le lt fits)]
          exact filled i lt
      · cases e

end

/-- Whatever the firmware answers, at most one buffer is held at every head of the loop, and where
    the loop returns, `_bootinfo` describes the map that was accepted. -/
theorem kernel_gets_accepted_map {fw : Firmware} (law : fw.Lawful) (info : MmapInfo) :
    (∀ n s, headAt (exitRound fw) n (exitStart info) = some s → (held s.calls).length ≤ 1) ∧
      ∀ fuel r, getMmapedEndExit fw info fuel = some (.ok r) → MapAccepted fw r := by
  have start : OneHeld (exitStart info) := .inl ⟨rfl, rfl⟩
  have again : ∀ s s', OneHeld s → exitRound fw s = .again s' → OneHeld s' :=
    fun s s' one e => exitRound_again law one e
  constructor
  · intro n s e
    exact (headAt_invariant again start e).length_le
  · intro fuel r e
    exact loop_post (P := fun o => ∀ r, o = .ok r → MapAccepted fw r) again
      (fun s o one e r eq => exitRound_done law one (by rw [e, eq])) start e r rfl

/-- The calls so far of `GetMemoryMap`. -/
def mapCalls : Calls → Nat
  | [] => 0
  | .getMemoryMap .. :: calls => mapCalls calls + 1
  | _ :: calls => mapCalls calls

/-- A firmware with room above the buffers that are held, that asks for a larger buffer first and
    refuses the key of its first map. The map changes with every call. -/
def moody : Firmware where
  allocatePool calls _ := some (((held calls).map Prod.fst).max?.getD 0 + 1)
  getMemoryMap calls size _ :=
    let bytes := List.replicate 96 (BitVec.ofNat 8 (mapCalls calls))
    if mapCalls calls = 0 then .bufferTooSmall 0x1800
    else if bytes.length ≤ size then .success ⟨bytes, mapCalls calls, 48⟩
    else .bufferTooSmall bytes.length
  exitBootServices _ key := decide (2 ≤ key)
  mem := stored
where
  /-- The memory after the calls. -/
  stored : Calls → Mem
    | [] => fun _ => 0#8
    | .getMemoryMap _ buffer (.success map) :: calls => fun a =>
      if buffer ≤ a then map.bytes.getD (a - buffer) (stored calls a) else stored calls a
    | _ :: calls => stored calls

/-- The firmware that changes its mind keeps to what is asked of one. -/
lemma moody_lawful : moody.Lawful where
  fresh := by
    intro calls size buffer e
    cases e
    refine ⟨Nat.succ_ne_zero _, fun b m eq => ?_⟩
    have le : b.1 ≤ ((held calls).map Prod.fst).max?.getD 0 :=
      List.le_max?_getD_of_mem (List.mem_map_of_mem m)
    rw [eq] at le
    exact absurd le (Nat.not_succ_le_self _)
  fills := by
    intro calls size buffer map e
    have fits : map.bytes.length ≤ size := by
      unfold moody at e
      dsimp only at e
      split at e
      · cases e
      split at e
      · next fits =>
        cases e
        exact fits
      · cases e
    refine ⟨fits, fun i lt => ?_⟩
    have below : buffer ≤ buffer + i := Nat.le_add_right ..
    change moody.stored _ _ = _
    rw [moody.stored]
    dsimp only
    rw [if_pos below, Nat.add_sub_cancel_left, List.getD_eq_getElem?_getD,
      List.getElem?_eq_getElem lt, Option.getD_some]
  keeps := fun _ _ _ _ _ _ => rfl

/-- The third map is the one that is accepted. -/
theorem kernel_gets_accepted_map_moody :
    ∃ r, getMmapedEndExit moody ⟨0, 0, 0⟩ 4 = some (.ok r) ∧ r.info = ⟨1, 96, 48⟩ ∧
      MapAccepted moody r := by
  exact ⟨_, rfl, rfl, (kernel_gets_accepted_map moody_lawful ⟨0, 0, 0⟩).2 4 _ rfl⟩

end TRS.Boot
