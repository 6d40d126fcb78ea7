/-
# Instructions

An instruction is a kind, such as `LD` or `JR`, with at most two operands.  The type is open: it
holds every combination of a kind and operands, also those for which there is no machine code, so
that a combination can be offered to the encoder and refused by it.
-/
import Handheld.Word

namespace Handheld

/-- The 8-bit registers that an instruction can name. -/
inductive Register where
  | b | c | d | e | h | l | a
deriving DecidableEq, Inhabited

def Register.all : List Register :=
  [b, c, d, e, h, l, a]

/-- The 16-bit registers and register pairs. -/
inductive Pair where
  | bc | de | hl | sp | af
deriving DecidableEq, Inhabited

def Pair.all : List Pair :=
  [bc, de, hl, sp, af]

/-- Memory operands whose address is in a register pair.  `hlInc` and `hlDec` step `HL` after
the access. -/
inductive Indirect where
  | bc | de | hlInc | hlDec | hl
deriving DecidableEq, Inhabited

def Indirect.all : List Indirect :=
  [bc, de, hlInc, hlDec, hl]

/-- The conditions of jumps, calls and returns. -/
inductive Condition where
  | nz | z | nc | c
deriving DecidableEq, Inhabited

def Condition.all : List Condition :=
  [nz, z, nc, c]

/-- An operand with its payload.  Signed offsets keep their byte; `Operand.signed` reads it. -/
inductive Operand where
  /-- An immediate byte. -/
  | imm8 (b : UInt8)
  /-- A signed offset. -/
  | rel8 (b : UInt8)
  /-- An immediate word. -/
  | imm16 (w : UInt16)
  /-- Memory at a given address. -/
  | direct (w : UInt16)
  /-- Memory at a given place in the last page. -/
  | highOffset (b : UInt8)
  /-- Memory in the last page at the place held by `C`. -/
  | highC
  | reg (r : Register)
  | pair (p : Pair)
  | indirect (i : Indirect)
  /-- The stack pointer plus a signed offset. -/
  | spRel (b : UInt8)
  /-- A restart address. -/
  | vector (b : UInt8)
  /-- A bit number. -/
  | bit (n : UInt8)
  | cond (condition : Condition)
deriving DecidableEq, Inhabited

/-- The two's-complement value of a relative operand. -/
def Operand.signed : Operand → Option Int
  | rel8 b | spRel b => some (Byte.signed b)
  | _ => none

/-- The kinds of instructions.  `invalid` stands for an opcode without a meaning, whose byte is
kept as an immediate operand. -/
inductive Kind where
  | nop | ld | ldh | inc | dec | rlca | rrca | rla | rra | daa | cpl | scf | ccf
  | jr | jp | call | ret | reti | rst | push | pop
  | add | adc | sub | sbc | and | xor | or | cp
  | halt | stop | di | ei
  | rlc | rrc | rl | rr | sla | sra | swap | srl | bit | res | set
  | invalid
deriving DecidableEq, Inhabited

def Kind.all : List Kind :=
  [nop, ld, ldh, inc, dec, rlca, rrca, rla, rra, daa, cpl, scf, ccf, jr, jp, call, ret, reti, rst,
   push, pop, add, adc, sub, sbc, and, xor, or, cp, halt, stop, di, ei, rlc, rrc, rl, rr, sla, sra,
   swap, srl, bit, res, set, invalid]

/-- A kind with its operands.  The forms `ADD A,x`, `ADC A,x` and `SBC A,x` carry the accumulator
as first operand; `SUB`, `AND`, `XOR`, `OR` and `CP` have the source alone. -/
structure Instruction where
  kind : Kind
  first : Option Operand := none
  second : Option Operand := none
deriving DecidableEq, Inhabited

namespace Instruction

/-- The operands present, in order. -/
def operands (i : Instruction) : List Operand :=
  i.first.toList ++ i.second.toList

/-- Where control goes if the branch is taken, for a branch whose operands say so; `next` is the
address of the instruction after it, from which relative jumps count. -/
def branchTarget (i : Instruction) (next : Address) : Option Address :=
  match i.kind, i.first, i.second with
  | .jr, some (.rel8 e), none
  | .jr, some (.cond _), some (.rel8 e) => some (next + Word.ofSigned e)
  | .jp, some (.imm16 a), none
  | .jp, some (.cond _), some (.imm16 a)
  | .call, some (.imm16 a), none
  | .call, some (.cond _), some (.imm16 a) => some a
  | .rst, some (.vector v), none => some v.toUInt16
  | _, _, _ => none

end Instruction

end Handheld
