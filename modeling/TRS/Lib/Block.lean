import Mathlib.Logic.Function.Basic
import TRS.Lib.Pixels

/-!
# Blocks and the devices that hold them

A `Block n` is a memory of `n` bytes. A `Device` reads and writes numbered blocks and may fail; it
comes with what it holds (`content`) and with what its operations promise about that: a read tells
what is there and changes nothing, and a write stores its block, or has no effect when it fails, or
has stored the block all the same.

* `load32_store32_same`, `load32_store32_other`: a word is read back, and one beside it stays.
* `load16_store16_same`, `load16_store16_other`: the same of half-words.
* `splice_bytes`: the bytes of a block with new ones in it.
* `applyWrites_append`, `applyWrites_other`: writes in a row.
-/

namespace TRS.Lib

/-- A memory of `n` bytes. -/
structure Block (n : Nat) where
  bytes : Mem
  zero : ∀ i, n ≤ i → bytes i = 0#8

namespace Block
variable {n : Nat}

/-- The first `n` bytes of a memory. -/
def of (m : Mem) : Block n := ⟨fun i => if i < n then m i else 0#8, fun _ le => if_neg (by omega)⟩

lemma of_bytes (m : Mem) {i : Nat} (lt : i < n) : (of m : Block n).bytes i = m i := if_pos lt

/-- Blocks with the same bytes are the same. -/
lemma ext_bytes {a b : Block n} (same : ∀ i < n, a.bytes i = b.bytes i) : a = b := by
  obtain ⟨a, za⟩ := a
  obtain ⟨b, zb⟩ := b
  congr
  funext i
  by_cases lt : i < n
  · exact same i lt
  · exact (za i (by omega)).trans (zb i (by omega)).symm

@[simp] lemma of_self (b : Block n) : of b.bytes = b := ext_bytes fun _ lt => of_bytes _ lt

/-- The word at `a`, for `a + 4 ≤ n`. -/
def load32 (b : Block n) (a : Nat) : Pixel := b.bytes.load32 a

/-- The block with a word stored at `a`. -/
def store32 (b : Block n) (a : Nat) (v : Pixel) : Block n := of (b.bytes.store32 a v)

/-- A word of a block is that of the memory it is made of. -/
lemma load32_of (m : Mem) {a : Nat} (le : a + 4 ≤ n) : (of m : Block n).load32 a = m.load32 a :=
  Mem.load32_congr fun _ _ => of_bytes m (by omega)

/-- A word that is stored is read back. -/
lemma load32_store32_same (b : Block n) {a : Nat} (le : a + 4 ≤ n) (v : Pixel) :
    (b.store32 a v).load32 a = v := by
  rw [store32, load32_of _ le, Mem.load32_store32_same]

/-- A word beside it stays. -/
lemma load32_store32_other (b : Block n) {a c : Nat} (le : c + 4 ≤ n) (v : Pixel)
    (ne : c + 4 ≤ a ∨ a + 4 ≤ c) : (b.store32 a v).load32 c = b.load32 c := by
  rw [store32, load32_of _ le, Mem.load32_store32_other _ _ ne, load32]

/-- The `len` bytes from `i` on. -/
def slice (b : Block n) (i len : Nat) : List Byte := (List.range len).map fun j => b.bytes (i + j)

/-- The block with `data` stored from `i` on. -/
def splice (b : Block n) (i : Nat) (data : List Byte) : Block n :=
  of fun j => if i ≤ j ∧ j < i + data.length then data.getD (j - i) 0#8 else b.bytes j

/-- The bytes of a block with new ones from `i` on. -/
lemma splice_bytes (b : Block n) (i : Nat) (data : List Byte) {j : Nat} (lt : j < n) :
    (b.splice i data).bytes j =
      if i ≤ j ∧ j < i + data.length then data.getD (j - i) 0#8 else b.bytes j := of_bytes _ lt

@[simp] lemma length_slice (b : Block n) (i len : Nat) : (b.slice i len).length = len := by
  rw [slice, List.length_map, List.length_range]

/-- The half-word at `a`, for `a + 2 ≤ n`. -/
def load16 (b : Block n) (a : Nat) : BitVec 16 := b.bytes (a + 1) ++ b.bytes a

/-- The block with a half-word stored at `a`. -/
def store16 (b : Block n) (a : Nat) (v : BitVec 16) : Block n :=
  b.splice a [v.extractLsb' 0 8, v.extractLsb' 8 8]

/-- The bytes of a block with a new half-word. -/
lemma store16_bytes (b : Block n) (a : Nat) (v : BitVec 16) {j : Nat} (lt : j < n) :
    (b.store16 a v).bytes j = if j = a then v.extractLsb' 0 8
      else if j = a + 1 then v.extractLsb' 8 8 else b.bytes j := by
  rw [store16, splice_bytes _ _ _ lt, List.length_cons, List.length_singleton]
  by_cases first : j = a
  · rw [if_pos (by omega), if_pos first, first, Nat.sub_self]
    rfl
  · rw [if_neg first]
    by_cases second : j = a + 1
    · rw [if_pos (by omega), if_pos second, second, Nat.add_sub_cancel_left]
      rfl
    · rw [if_neg (by omega), if_neg second]

/-- A half-word that is stored is read back. -/
lemma load16_store16_same (b : Block n) {a : Nat} (le : a + 2 ≤ n) (v : BitVec 16) :
    (b.store16 a v).load16 a = v := by
  rw [load16, store16_bytes _ _ _ (by omega), store16_bytes _ _ _ (by omega), if_pos rfl,
    if_neg (by omega), if_pos rfl]
  refine BitVec.eq_of_getLsbD_eq fun i lt => ?_
  rw [BitVec.getLsbD_append, BitVec.getLsbD_extractLsb', BitVec.getLsbD_extractLsb']
  by_cases low : i < 8
  · simp [low]
  · simp [low, show i - 8 < 8 by omega, show 8 + (i - 8) = i by omega]

/-- A half-word beside it stays. -/
lemma load16_store16_other (b : Block n) {a c : Nat} (le : c + 2 ≤ n) (v : BitVec 16)
    (ne : c + 2 ≤ a ∨ a + 2 ≤ c) : (b.store16 a v).load16 c = b.load16 c := by
  rw [load16, store16_bytes _ _ _ (by omega), store16_bytes _ _ _ (by omega), if_neg (by omega),
    if_neg (by omega), if_neg (by omega), if_neg (by omega), load16]

/-- The block with a byte stored at `a`. -/
def store8 (b : Block n) (a : Nat) (v : Byte) : Block n := b.splice a [v]

end Block

/-- A device that holds numbered blocks. -/
structure Device (σ β : Type) where
  read : Nat → σ → Option β × σ
  write : β → Nat → σ → Bool × σ
  content : σ → Nat → β
  read_content : ∀ n s, content (read n s).2 = content s
  read_some : ∀ n s b, (read n s).1 = some b → b = content s n
  write_content : ∀ b n s, content (write b n s).2 = content s ∨
    content (write b n s).2 = Function.update (content s) n b
  write_true : ∀ b n s, (write b n s).1 = true →
    content (write b n s).2 = Function.update (content s) n b

/-- No operation of the device fails. -/
structure Device.Reliable {σ β : Type} (dev : Device σ β) : Prop where
  reads : ∀ n s, (dev.read n s).1.isSome = true
  writes : ∀ b n s, (dev.write b n s).1 = true

/-- Blocks in memory. -/
def Device.memory (β : Type) : Device (Nat → β) β where
  read n s := (some (s n), s)
  write b n s := (true, Function.update s n b)
  content s := s
  read_content _ _ := rfl
  read_some _ _ _ e := (Option.some.inj e).symm
  write_content _ _ _ := .inr rfl
  write_true _ _ _ _ := rfl

/-- A memory does not fail. -/
lemma Device.memory_reliable (β : Type) : (Device.memory β).Reliable :=
  ⟨fun _ _ => rfl, fun _ _ _ => rfl⟩

/-- Blocks in memory, of which every operation fails that the script says so of. -/
def Device.scripted (β : Type) : Device (List Bool × (Nat → β)) β where
  read n s := (if s.1.headD true then some (s.2 n) else none, (s.1.tail, s.2))
  write b n s :=
    (s.1.headD true, (s.1.tail, if s.1.headD true then Function.update s.2 n b else s.2))
  content s := s.2
  read_content _ _ := rfl
  read_some n s b e := by
    dsimp only at e
    split at e
    · exact (Option.some.inj e).symm
    · cases e
  write_content b n s := by
    cases s.1.headD true with
    | true => exact .inr rfl
    | false => exact .inl rfl
  write_true b n s ok := by
    dsimp only at ok ⊢
    rw [if_pos ok]

/-- The blocks after a list of writes. -/
def applyWrites {β : Type} (ws : List (Nat × β)) (d : Nat → β) : Nat → β :=
  ws.foldl (fun d w => Function.update d w.1 w.2) d

section Writes
variable {β : Type} (d : Nat → β)

@[simp] lemma applyWrites_nil : applyWrites [] d = d := rfl

@[simp] lemma applyWrites_cons (w : Nat × β) (ws : List (Nat × β)) :
    applyWrites (w :: ws) d = applyWrites ws (Function.update d w.1 w.2) := rfl

lemma applyWrites_append (ws vs : List (Nat × β)) :
    applyWrites (ws ++ vs) d = applyWrites vs (applyWrites ws d) := List.foldl_append ..

/-- A block that no write names is as it was. -/
lemma applyWrites_other {ws : List (Nat × β)} {n : Nat} (ne : ∀ w ∈ ws, w.1 ≠ n) :
    applyWrites ws d n = d n := by
  induction ws generalizing d with
  | nil => rfl
  | cons w ws ih =>
    obtain ⟨here, later⟩ := List.forall_mem_cons.mp ne
    rw [applyWrites_cons, ih _ later, Function.update_of_ne here.symm]

end Writes

end TRS.Lib
