import TRS.Lib.Lexicographic
import TRS.Lib.Loop

/-!
# String functions

`libc/string.c`: the functions on C strings and `memcmp`, over the bytes that their arguments point
to. A function that writes returns the bytes it leaves; an access past the end of an object is a
fault. No caller passes a null pointer.

* `strlen_ok`, `strcmp_difference`, `strcpy_ok`, `strcat_ok`: the functions on strings that fit.
* `strcpy_fault`, `strcat_fault`: and where the destination has no room.
* `strncmpLoop_difference`, `strrchrFrom_ok`: the loops, by induction on the bytes.
-/

namespace TRS.Libc
open TRS.Lib

/-- `strlen(s)`. -/
def strlen : List Byte → Except Fault Nat
  | [] => .error .bounds
  | c :: cs =>
    if c = 0#8 then .ok 0
    else do
      let n ← strlen cs
      return n + 1

/-- `strcmp(a, b)`. -/
def strcmp : List Byte → List Byte → Except Fault Int
  | a :: as, b :: bs =>
    if a ≠ 0#8 ∧ b ≠ 0#8 ∧ a = b then strcmp as bs else .ok ((a.toNat : Int) - b.toNat)
  | _, _ => .error .bounds

/-- The loop of `strncmp(a, b, len)` and its `return`. -/
def strncmpLoop : (len : Nat) → List Byte → List Byte → Except Fault Int
  | n + 1, a :: as, b :: bs =>
    if a ≠ 0#8 ∧ b ≠ 0#8 ∧ a = b then strncmpLoop n as bs else .ok ((a.toNat : Int) - b.toNat)
  | 0, a :: _, b :: _ => .ok ((a.toNat : Int) - b.toNat)
  | _, _, _ => .error .bounds

/-- `strncmp(a, b, len)`. -/
def strncmp (a b : List Byte) (len : Nat) : Except Fault Int :=
  if len = 0 then .ok 0 else strncmpLoop len a b

/-- `strcpy(dst, src)`. -/
def strcpy : List Byte → List Byte → Except Fault (List Byte)
  | _ :: ds, c :: cs =>
    if c = 0#8 then .ok (c :: ds)
    else do
      let ds ← strcpy ds cs
      return c :: ds
  | _, _ => .error .bounds

/-- `strcat(dst, src)`. -/
def strcat : List Byte → List Byte → Except Fault (List Byte)
  | [], _ => .error .bounds
  | d :: ds, src =>
    if d = 0#8 then strcpy (d :: ds) src
    else do
      let ds ← strcat ds src
      return d :: ds

/-- The loop of `strrchr` from offset `i` on, with the match found so far. A `char` is signed. -/
def strrchrFrom (ch : Int) : (i : Nat) → (last : Option Nat) → List Byte → Except Fault (Option Nat)
  | _, _, [] => .error .bounds
  | i, last, c :: cs =>
    let last := if c.toInt = ((BitVec.ofInt 8 ch).toNat : Int) then some i else last
    if c = 0#8 then .ok last else strrchrFrom ch (i + 1) last cs

/-- `strrchr(str, ch)`: the offset of the match. -/
def strrchr (str : List Byte) (ch : Int) : Except Fault (Option Nat) := strrchrFrom ch 0 none str

/-- `memcmp(a, b, len)`. -/
def memcmp : (len : Nat) → List Byte → List Byte → Except Fault Int
  | 0, _, _ => .ok 0
  | n + 1, a :: as, b :: bs =>
    if a ≠ b then .ok ((a.toNat : Int) - b.toNat) else memcmp n as bs
  | _ + 1, _, _ => .error .bounds

/-! ## Specifications -/

/-- `strlen` gives the length of the string. -/
lemma strlen_ok {b s : List Byte} (h : CStr b s) : strlen b = .ok s.length := by
  induction s generalizing b with
  | nil =>
    obtain ⟨_, rest, rfl⟩ := h
    rfl
  | cons c s ih =>
    obtain ⟨ne, rest, rfl⟩ := h
    have c0 : c ≠ 0#8 := fun e => ne (e ▸ .head s)
    rw [List.cons_append, strlen, if_neg c0, ih ⟨fun m => ne (.tail c m), rest, rfl⟩]
    rfl

/-- `strcmp` is the first difference. -/
lemma strcmp_difference {a b s t : List Byte} (ha : CStr a s) (hb : CStr b t) :
    strcmp a b = .ok (difference s t) := by
  induction s generalizing a b t with
  | nil =>
    obtain ⟨_, rest, rfl⟩ := ha
    obtain ⟨_, rest', rfl⟩ := hb
    cases t with
    | nil => rfl
    | cons d t => exact if_neg fun h => h.1 rfl
  | cons c s ih =>
    obtain ⟨ne, rest, rfl⟩ := ha
    have c0 : c ≠ 0#8 := fun e => ne (e ▸ .head s)
    obtain ⟨ne', rest', rfl⟩ := hb
    cases t with
    | nil => exact if_neg fun h => h.2.1 rfl
    | cons d t =>
      have d0 : d ≠ 0#8 := fun e => ne' (e ▸ .head t)
      rw [difference]
      by_cases e : c = d
      · -- the loop goes on behind equal bytes
        rw [if_pos e]
        refine (if_pos ⟨c0, d0, e⟩).trans ?_
        exact ih ⟨fun m => ne (.tail c m), rest, rfl⟩ ⟨fun m => ne' (.tail d m), rest', rfl⟩
      · rw [if_neg e]
        exact if_neg fun h => e h.2.2

/-- `strcmp` gives 0 for equal strings only. -/
lemma strcmp_ok {a b s t : List Byte} (ha : CStr a s) (hb : CStr b t) :
    ∃ r, strcmp a b = .ok r ∧ (r = 0 ↔ s = t) :=
  ⟨_, strcmp_difference ha hb, (difference_orders ha.1 hb.1).eq⟩

/-- The loop of `strncmp` is the first difference of one byte more than its bound. -/
lemma strncmpLoop_difference {a b s t : List Byte} (ha : CStr a s) (hb : CStr b t) (n : Nat) :
    strncmpLoop n a b = .ok (difference (s.take (n + 1)) (t.take (n + 1))) := by
  induction n generalizing a b s t with
  | zero =>
    obtain ⟨_, rest, rfl⟩ := ha
    obtain ⟨_, rest', rfl⟩ := hb
    cases s with
    | nil =>
      cases t with
      | nil => rfl
      | cons d t => rfl
    | cons c s =>
      cases t with
      | nil => rfl
      | cons d t =>
        rw [List.take_succ_cons, List.take_succ_cons, difference]
        by_cases e : c = d
        · rw [if_pos e, e]
          exact congrArg _ (Int.sub_self _)
        · rw [if_neg e]
          rfl
  | succ n ih =>
    cases s with
    | nil =>
      obtain ⟨_, rest, rfl⟩ := ha
      obtain ⟨_, rest', rfl⟩ := hb
      cases t with
      | nil => exact if_neg fun h => h.1 rfl
      | cons d t => exact if_neg fun h => h.1 rfl
    | cons c s =>
      obtain ⟨ne, rest, rfl⟩ := ha
      have c0 : c ≠ 0#8 := fun e => ne (e ▸ .head s)
      obtain ⟨ne', rest', rfl⟩ := hb
      cases t with
      | nil => exact if_neg fun h => h.2.1 rfl
      | cons d t =>
        have d0 : d ≠ 0#8 := fun e => ne' (e ▸ .head t)
        rw [List.take_succ_cons, List.take_succ_cons, difference]
        by_cases e : c = d
        · rw [if_pos e]
          refine (if_pos ⟨c0, d0, e⟩).trans ?_
          exact ih ⟨fun m => ne (.tail c m), rest, rfl⟩ ⟨fun m => ne' (.tail d m), rest', rfl⟩
        · rw [if_neg e]
          exact if_neg fun h => e h.2.2

/-- `strcpy` copies a string that fits. -/
lemma strcpy_ok (dst : List Byte) {src s : List Byte} (h : CStr src s)
    (fits : s.length < dst.length) :
    ∃ dst', strcpy dst src = .ok dst' ∧ CStr dst' s ∧ dst'.length = dst.length := by
  induction s generalizing dst src with
  | nil =>
    obtain ⟨ne, rest, rfl⟩ := h
    cases dst with
    | nil => cases fits
    | cons d ds => exact ⟨0#8 :: ds, rfl, ⟨ne, ds, rfl⟩, rfl⟩
  | cons c s ih =>
    obtain ⟨ne, rest, rfl⟩ := h
    have c0 : c ≠ 0#8 := fun e => ne (e ▸ .head s)
    cases dst with
    | nil => cases fits
    | cons d ds =>
      obtain ⟨ds', e, ⟨_, rest', eq⟩, len⟩ :=
        ih ds ⟨fun m => ne (.tail c m), rest, rfl⟩ (Nat.lt_of_succ_lt_succ fits)
      refine ⟨c :: ds', ?_, ⟨ne, rest', by rw [eq]; rfl⟩, by rw [List.length_cons, len]; rfl⟩
      rw [List.cons_append, strcpy, if_neg c0, e]
      rfl

/-- It leaves a buffer that has no room for the NUL. -/
lemma strcpy_fault {dst src s : List Byte} (h : CStr src s) (big : dst.length ≤ s.length) :
    strcpy dst src = .error .bounds := by
  induction s generalizing dst src with
  | nil =>
    cases dst with
    | nil => cases src <;> rfl
    | cons d ds => cases big
  | cons c s ih =>
    obtain ⟨ne, rest, rfl⟩ := h
    have c0 : c ≠ 0#8 := fun e => ne (e ▸ .head s)
    cases dst with
    | nil => rfl
    | cons d ds =>
      rw [List.cons_append, strcpy, if_neg c0,
        ih ⟨fun m => ne (.tail c m), rest, rfl⟩ (Nat.le_of_succ_le_succ big)]
      rfl

/-- `strcat` appends a string that fits. -/
lemma strcat_ok {dst src s t : List Byte} (hd : CStr dst s) (hs : CStr src t)
    (fits : s.length + t.length < dst.length) :
    ∃ dst', strcat dst src = .ok dst' ∧ CStr dst' (s ++ t) ∧ dst'.length = dst.length := by
  induction s generalizing dst with
  | nil =>
    obtain ⟨_, rest, rfl⟩ := hd
    rw [List.nil_append] at fits ⊢
    rw [List.length_nil, Nat.zero_add] at fits
    exact strcpy_ok _ hs fits
  | cons c s ih =>
    obtain ⟨ne, rest, rfl⟩ := hd
    have c0 : c ≠ 0#8 := fun e => ne (e ▸ .head s)
    have room : s.length + t.length < (s ++ 0#8 :: rest).length := by
      simp only [List.cons_append, List.length_cons] at fits
      omega
    obtain ⟨ds, e, ⟨ne', rest', eq⟩, len⟩ := ih ⟨fun m => ne (.tail c m), rest, rfl⟩ room
    refine ⟨c :: ds, ?_, ⟨?_, rest', by rw [eq]; rfl⟩, ?_⟩
    · rw [List.cons_append, strcat, if_neg c0, e]
      rfl
    · intro m
      rcases List.mem_cons.mp m with eq | m
      · exact c0 eq.symm
      · exact ne' m
    · rw [List.cons_append, List.length_cons, List.length_cons, len]

/-- It leaves a buffer that has no room for both. -/
lemma strcat_fault {dst src s t : List Byte} (hd : CStr dst s) (hs : CStr src t)
    (big : dst.length ≤ s.length + t.length) : strcat dst src = .error .bounds := by
  induction s generalizing dst with
  | nil =>
    obtain ⟨_, rest, rfl⟩ := hd
    rw [List.length_nil, Nat.zero_add] at big
    exact strcpy_fault hs big
  | cons c s ih =>
    obtain ⟨ne, rest, rfl⟩ := hd
    have c0 : c ≠ 0#8 := fun e => ne (e ▸ .head s)
    have big' : (s ++ 0#8 :: rest).length ≤ s.length + t.length := by
      simp only [List.cons_append, List.length_cons] at big
      omega
    rw [List.cons_append, strcat, if_neg c0, ih ⟨fun m => ne (.tail c m), rest, rfl⟩ big']
    rfl

/-- `*str == (unsigned char)ch`. -/
def Hit (ch : Int) (c : Byte) : Prop := c.toInt = ((BitVec.ofInt 8 ch).toNat : Int)

/-- A `char`, being signed, compares equal to a byte exactly if it is that byte and ASCII. -/
lemma hit_iff {ch : Int} {c : Byte} :
    Hit ch c ↔ c = BitVec.ofInt 8 ch ∧ (BitVec.ofInt 8 ch).toNat < 128 := by
  unfold Hit
  generalize BitVec.ofInt 8 ch = d
  have lt := d.isLt
  constructor
  · intro h
    rw [BitVec.toInt_eq_toNat_cond] at h
    split at h
    · refine ⟨BitVec.eq_of_toNat_eq (by omega), by omega⟩
    · omega
  · rintro ⟨rfl, ascii⟩
    rw [BitVec.toInt_eq_toNat_cond, if_pos (by omega)]

/-- The loop finds the last byte that it compares equal, the NUL among them. -/
lemma strrchrFrom_ok {b s : List Byte} (h : CStr b s) (ch : Int) (i : Nat) (last : Option Nat) :
    (strrchrFrom ch i last b = .ok last ∧ ∀ c ∈ s ++ [0#8], ¬ Hit ch c) ∨
    ∃ pre c post, s ++ [0#8] = pre ++ c :: post ∧ Hit ch c ∧ (∀ c ∈ post, ¬ Hit ch c) ∧
      strrchrFrom ch i last b = .ok (some (i + pre.length)) := by
  induction s generalizing b i last with
  | nil =>
    obtain ⟨_, rest, rfl⟩ := h
    rw [List.nil_append, strrchrFrom, if_pos rfl]
    by_cases hit : Hit ch 0#8
    · exact .inr ⟨[], 0#8, [], rfl, hit, List.forall_mem_nil _, congrArg _ (if_pos hit)⟩
    · refine .inl ⟨congrArg _ (if_neg hit), fun c m => ?_⟩
      rw [List.mem_singleton.mp m]
      exact hit
  | cons c s ih =>
    obtain ⟨ne, rest, rfl⟩ := h
    have c0 : c ≠ 0#8 := fun e => ne (e ▸ .head s)
    rw [List.cons_append, strrchrFrom, if_neg c0]
    have tail := ih (b := s ++ 0#8 :: rest) ⟨fun m => ne (.tail c m), rest, rfl⟩
    rcases tail (i + 1) (if c.toInt = ((BitVec.ofInt 8 ch).toNat : Int) then some i else last) with
      ⟨r, no⟩ | ⟨pre, x, post, eq, hit, no, r⟩
    · -- the rest has none, so that this byte decides
      by_cases hit : Hit ch c
      · exact .inr ⟨[], c, s ++ [0#8], rfl, hit, no, r.trans (congrArg _ (if_pos hit))⟩
      · exact .inl ⟨r.trans (congrArg _ (if_neg hit)), List.forall_mem_cons.mpr ⟨hit, no⟩⟩
    · refine .inr ⟨c :: pre, x, post, by rw [List.cons_append, eq]; rfl, hit, no, ?_⟩
      rw [r, List.length_cons, Nat.add_right_comm]
      rfl

/-- `strrchr` finds the last occurrence of an ASCII character, if there is one. -/
lemma strrchr_ok {b s : List Byte} (h : CStr b s) {d : Byte} (ascii : d.toNat < 128)
    (d0 : d ≠ 0#8) :
    (strrchr b d.toNat = .ok none ∧ d ∉ s) ∨
    ∃ pre post, s = pre ++ d :: post ∧ d ∉ post ∧ strrchr b d.toNat = .ok (some pre.length) := by
  have same : BitVec.ofInt 8 (d.toNat : Int) = d := by
    rw [BitVec.ofInt_natCast, BitVec.ofNat_toNat, BitVec.setWidth_eq]
  have hit : ∀ c, Hit d.toNat c ↔ c = d := by
    intro c
    rw [hit_iff, same]
    exact and_iff_left ascii
  rcases strrchrFrom_ok h d.toNat 0 none with ⟨r, no⟩ | ⟨pre, c, post, eq, found, no, r⟩
  · refine .inl ⟨r, fun m => ?_⟩
    exact no d (List.mem_append_left _ m) ((hit d).mpr rfl)
  · obtain rfl := (hit c).mp found
    rcases List.eq_nil_or_concat post with rfl | ⟨post', x, rfl⟩
    · exact absurd (List.append_inj' eq rfl).2 fun e => d0 (List.cons.inj e).1.symm
    · rw [List.concat_eq_append, ← List.cons_append, ← List.append_assoc] at eq
      refine .inr ⟨pre, post', (List.append_inj' eq rfl).1, fun m => ?_, ?_⟩
      · refine no c ?_ ((hit c).mpr rfl)
        rw [List.concat_eq_append]
        exact List.mem_append_left _ m
      · rw [Nat.zero_add] at r
        exact r

/-- `memcmp` gives 0 for equal bytes only. -/
lemma memcmp_ok {n : Nat} {a b : List Byte} (ha : n ≤ a.length) (hb : n ≤ b.length) :
    ∃ r, memcmp n a b = .ok r ∧ (r = 0 ↔ a.take n = b.take n) := by
  induction n generalizing a b with
  | zero => exact ⟨0, rfl, by simp⟩
  | succ n ih =>
    cases a with
    | nil => cases ha
    | cons x as =>
      cases b with
      | nil => cases hb
      | cons y bs =>
        by_cases e : x = y
        · obtain ⟨r, er, iff⟩ := ih (Nat.le_of_succ_le_succ ha) (Nat.le_of_succ_le_succ hb)
          refine ⟨r, (if_neg fun ne => ne e).trans er, ?_⟩
          rw [iff, e, List.take_succ_cons, List.take_succ_cons, List.cons_inj_right]
        · refine ⟨_, if_pos e, ?_⟩
          have ned : x.toNat ≠ y.toNat := fun h => e (BitVec.eq_of_toNat_eq h)
          constructor
          · intro h
            omega
          · intro h
            exact absurd (List.cons.inj h).1 e

end TRS.Libc
