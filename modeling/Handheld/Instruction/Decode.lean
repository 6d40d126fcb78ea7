/-
# Decoding

An instruction is decoded from a stream of bytes, given as a function from positions to bytes
that may fail.  `decode` reads the bytes from consecutive addresses; `decodeRepeating` reads the
first address twice, as the processor does after a failed `HALT`.
-/
import Handheld.Instruction.Opcode
import Handheld.Memory.Basic

namespace Handheld

variable {ε : Type}

/-- Fill a slot from a stream, from position `pos` on; gives the operand and the position after
the bytes used. -/
def Slot.decode (fetch : Nat → Except ε UInt8) (pos : Nat) :
    Slot → Except ε (Option Operand × Nat)
  | .fixed o => .ok (some o, pos)
  | .imm8 => do return (some (.imm8 (← fetch pos)), pos + 1)
  | .rel8 => do return (some (.rel8 (← fetch pos)), pos + 1)
  | .highOffset => do return (some (.highOffset (← fetch pos)), pos + 1)
  | .spRel => do return (some (.spRel (← fetch pos)), pos + 1)
  | .imm16 => do
    let lo ← fetch pos
    let hi ← fetch (pos + 1)
    return (some (.imm16 (Word.ofBytes hi lo)), pos + 2)
  | .direct => do
    let lo ← fetch pos
    let hi ← fetch (pos + 1)
    return (some (.direct (Word.ofBytes hi lo)), pos + 2)
  | .padding => do
    let b ← fetch pos
    return (if b = 0 then none else some (.imm8 b), pos + 1)

/-- Fill an operand place that may have no slot. -/
def Slot.decode? (fetch : Nat → Except ε UInt8) (pos : Nat) :
    Option Slot → Except ε (Option Operand × Nat)
  | none => .ok (none, pos)
  | some s => s.decode fetch pos

namespace Instruction

/-- Decode the operands of an opcode's entry from position `pos` on. -/
def decodeOperands (fetch : Nat → Except ε UInt8) (pos : Nat) (e : Opcode.Entry) :
    Except ε (Instruction × Nat) := do
  let (first, pos) ← Slot.decode? fetch pos e.first
  let (second, pos) ← Slot.decode? fetch pos e.second
  return (⟨e.kind, first, second⟩, pos)

/-- Decode the instruction at the start of a stream; gives it with the number of its bytes. -/
def decodeStream (fetch : Nat → Except ε UInt8) : Except ε (Instruction × Nat) := do
  let op ← fetch 0
  if op = Opcode.extension then
    let op ← fetch 1
    decodeOperands fetch 2 (Opcode.extended op).entry
  else
    decodeOperands fetch 1 (Opcode.base op).entry

variable {M : Type} [Memory M]

/-- The instruction at `pc` and the address of the byte after it.  Only a failing read makes
this fail: a byte without a meaning is decoded as an instruction of kind `invalid`. -/
def decode (m : M) (pc : Address) : Except MemoryError (Instruction × Address) := do
  let (i, n) ← decodeStream fun k => Memory.read m (pc + UInt16.ofNat k)
  return (i, pc + UInt16.ofNat n)

/-- The instruction that the processor sees at `pc` when it reads the first byte twice before it
moves on. -/
def decodeRepeating (m : M) (pc : Address) : Except MemoryError Instruction := do
  let (i, _) ← decodeStream fun k => Memory.read m (pc + UInt16.ofNat (k - 1))
  return i

end Instruction

end Handheld
