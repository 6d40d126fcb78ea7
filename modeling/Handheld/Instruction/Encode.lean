/-
# Encoding

The machine code of an instruction, found by trying its operands in the slots of every opcode.
No two opcodes take the same operands, so the first that fits is the only one.
-/
import Handheld.Instruction.Opcode

namespace Handheld

/-- The bytes that an operand adds after the opcode, if it fits its place. -/
def Slot.encode : Option Slot → Option Operand → Option (List UInt8)
  | none, none => some []
  | some (.fixed o), some o' => if o = o' then some [] else none
  | some .imm8, some (.imm8 b)
  | some .rel8, some (.rel8 b)
  | some .highOffset, some (.highOffset b)
  | some .spRel, some (.spRel b)
  | some .padding, some (.imm8 b) => some [b]
  | some .padding, none => some [0]
  | some .imm16, some (.imm16 w)
  | some .direct, some (.direct w) => some (Word.littleEndian w)
  | _, _ => none

/-- The machine code of an instruction under one opcode, if it is of that opcode. -/
def Opcode.encode (op : Opcode) (i : Instruction) : Option (List UInt8) :=
  let e := op.entry
  if e.kind = i.kind then do
    let first ← Slot.encode e.first i.first
    let second ← Slot.encode e.second i.second
    return op.bytes ++ first ++ second
  else none

namespace Instruction

/-- The machine code of an instruction: one to three bytes, or nothing for a combination of kind
and operands that no opcode stands for. -/
def encode (i : Instruction) : Option (List UInt8) :=
  Opcode.all.findSome? (·.encode i)

/-- The number of bytes of an instruction that has machine code. -/
def size (i : Instruction) : Option Nat :=
  i.encode.map List.length

end Instruction

end Handheld
