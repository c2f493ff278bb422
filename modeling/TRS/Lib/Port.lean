import Mathlib.Tactic.TypeStar
import TRS.Lib.Mem

/-!
# Port I/O

A bus is what the instructions `in` and `out` do to the state `σ` of the devices behind the ports. A
driver is a function of the bus, so that it runs on any device model; on the recording bus it leaves
the bytes it wrote to the ports.

`inWords` and `outWords` move words one after the other; on the recording bus they leave no byte
(`inWords_record`, `outWords_record`).
-/

namespace TRS.Lib

/-- A 16-bit word. -/
abbrev Word := BitVec 16

/-- The four port instructions: `inb(port)`, `outb(port, byte)`, `inw(port)`, `outw(word, port)`. -/
structure Bus (σ : Type*) where
  inb : Nat → σ → Byte × σ
  outb : Nat → Byte → σ → σ
  inw : Nat → σ → Word × σ
  outw : Word → Nat → σ → σ

namespace Bus
variable {σ : Type*} (bus : Bus σ)

/-- `n` words read from a port, in order. -/
def inWords (port : Nat) : (n : Nat) → σ → List Word × σ
  | 0, s => ([], s)
  | n + 1, s =>
    let (w, s) := bus.inw port s
    let (ws, s) := inWords port n s
    (w :: ws, s)

/-- The `n` words `data p`, `data (p + 1)`, .. written to a port. -/
def outWords (port : Nat) (data : Nat → Word) : (n p : Nat) → σ → σ
  | 0, _, s => s
  | n + 1, p, s => outWords port data n (p + 1) (bus.outw (data p) port s)

/-- A bus that records the bytes written to its ports, as pairs of a port and a byte. -/
def recorded : Bus (σ × List (Nat × Byte)) where
  inb port s := ((bus.inb port s.1).1, (bus.inb port s.1).2, s.2)
  outb port v s := (bus.outb port v s.1, s.2 ++ [(port, v)])
  inw port s := ((bus.inw port s.1).1, (bus.inw port s.1).2, s.2)
  outw w port s := (bus.outw w port s.1, s.2)

/-- A read of words stores nothing. -/
lemma inWords_record (port n : Nat) (s : σ × List (Nat × Byte)) :
    (bus.recorded.inWords port n s).2.2 = s.2 := by
  induction n generalizing s with
  | zero => rfl
  | succ n ih => exact ih _

/-- A store of words is none of bytes. -/
lemma outWords_record (port n : Nat) (data : Nat → Word) (p : Nat) (s : σ × List (Nat × Byte)) :
    (bus.recorded.outWords port data n p s).2 = s.2 := by
  induction n generalizing p s with
  | zero => rfl
  | succ n ih => exact ih _ _

end Bus

end TRS.Lib
