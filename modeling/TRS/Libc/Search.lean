import TRS.Libc.String

/-!
# The last occurrence of a byte

`strrchr` compares a `char`, which is signed, with an `unsigned char`: bytes from 0x80 on never
compare equal.

The headline `strrchr_last_iff` compares it with the last occurrence of the byte (`LastOf`), by the
specification `strrchr_ok` of the loop; `strrchr_misses_byte` is a byte that it does not find.
-/

namespace TRS.Libc
open TRS.Lib

/-- `r` is the last position of `d` in the bytes, none if there is none. -/
def LastOf (bytes : List Byte) (d : Byte) : Option Nat → Prop
  | none => d ∉ bytes
  | some i => bytes[i]? = some d ∧ ∀ j, i < j → bytes[j]? ≠ some d

/-- `strrchr` answers the last position of the byte `ch` in the string and its NUL. -/
def FindsLast (s : List Byte) (ch : Int) : Prop :=
  ∀ b, CStr b s → ∃ r, strrchr b ch = .ok r ∧ LastOf (s ++ [0#8]) (BitVec.ofInt 8 ch) r

/-- The last byte of its kind is the one with none behind it. -/
lemma lastOf_append {pre post : List Byte} {d : Byte} (no : d ∉ post) :
    LastOf (pre ++ d :: post) d (some pre.length) := by
  constructor
  · rw [List.getElem?_append_right (Nat.le_refl _), Nat.sub_self]
    rfl
  · intro j lt e
    rw [List.getElem?_append_right (Nat.le_of_lt lt)] at e
    obtain ⟨k, eq⟩ : ∃ k, j - pre.length = k + 1 := ⟨j - pre.length - 1, by omega⟩
    rw [eq] at e
    exact no (List.mem_of_getElem? e)

/-- `strrchr` finds the last occurrence of a byte if and only if the byte is ASCII or the string
    does not have it. -/
theorem strrchr_last_iff {s : List Byte} (ne : 0#8 ∉ s) (ch : Int) :
    FindsLast s ch ↔ (BitVec.ofInt 8 ch).toNat < 128 ∨ BitVec.ofInt 8 ch ∉ s := by
  by_cases ascii : (BitVec.ofInt 8 ch).toNat < 128
  · refine iff_of_true (fun b h => ?_) (.inl ascii)
    have hit : ∀ c, Hit ch c ↔ c = BitVec.ofInt 8 ch := by
      intro c
      rw [hit_iff]
      exact and_iff_left ascii
    rcases strrchrFrom_ok h ch 0 none with ⟨r, no⟩ | ⟨pre, c, post, eq, found, no, r⟩
    · exact ⟨none, r, fun m => no _ m ((hit _).mpr rfl)⟩
    · refine ⟨some pre.length, ?_, ?_⟩
      · rw [Nat.zero_add] at r
        exact r
      · rw [eq, (hit c).mp found]
        exact lastOf_append fun m => no _ m ((hit _).mpr rfl)
  · -- nothing compares equal, and the NUL is not the byte
    have none_ : ∀ c, ¬ Hit ch c := fun c h => ascii (hit_iff.mp h).2
    have nul : BitVec.ofInt 8 ch ≠ 0#8 := by
      intro e
      rw [e] at ascii
      exact ascii (by decide)
    have run : ∀ b, CStr b s → strrchr b ch = .ok none := by
      intro b h
      rcases strrchrFrom_ok h ch 0 none with ⟨r, _⟩ | ⟨pre, c, post, _, found, _⟩
      · exact r
      · exact absurd found (none_ c)
    rw [or_iff_right ascii]
    constructor
    · intro finds m
      obtain ⟨r, run', last⟩ := finds _ ⟨ne, [], rfl⟩
      rw [run _ ⟨ne, [], rfl⟩] at run'
      cases run'
      exact last (List.mem_append_left _ m)
    · intro no b h
      refine ⟨none, run b h, fun m => ?_⟩
      rcases List.mem_append.mp m with m | m
      · exact no m
      · exact nul (List.mem_singleton.mp m)

/-- The slash, as `cd ..` looks for it. -/
theorem strrchr_last_iff_slash : FindsLast (text "space/user") 0x2F ↔
    (BitVec.ofInt 8 0x2F).toNat < 128 ∨ BitVec.ofInt 8 0x2F ∉ text "space/user" :=
  strrchr_last_iff (by decide) 0x2F

/-- The byte 0xE9 stands in the string, and is not found. -/
theorem strrchr_misses_byte : strrchr [0x61#8, 0xE9#8, 0#8] 0xE9 = .ok none ∧
    ¬ FindsLast [0x61#8, 0xE9#8] 0xE9 := by
  have run : strrchr [0x61#8, 0xE9#8, 0#8] 0xE9 = .ok none := rfl
  refine ⟨run, fun finds => ?_⟩
  obtain ⟨r, run', last⟩ := finds [0x61#8, 0xE9#8, 0#8] ⟨by decide, [], rfl⟩
  rw [run] at run'
  cases run'
  exact last (by decide)

end TRS.Libc
