/-
# Programs of micro-operations

The micro-operations of an instruction, in order, with the place after which its effect on the
registers takes hold.  A conditional instruction has a place after which it ends early, so both of
its durations can be read off the list.
-/
import Handheld.Processor.MicroOp
import Handheld.Interrupt

namespace Handheld

/-- The micro-operations of an instruction or of an interrupt's dispatch. -/
structure Program where
  ops : List MicroOp
  /-- The number of the operation after which the effect takes hold. -/
  effectAt : Option Nat := none
  /-- The number of the operation after which the program ends unless the condition holds. -/
  branch : Option (Nat × Condition) := none
deriving DecidableEq

namespace Program

/-- The number of machine cycles if the condition holds. -/
def maxCycles (p : Program) : Nat :=
  p.ops.length

/-- The number of machine cycles if the condition does not hold. -/
def minCycles (p : Program) : Nat :=
  match p.branch with
  | some (at_, _) => at_ + 1
  | none => p.maxCycles

/-- The pointer for a memory operand. -/
def pointer : Indirect → Pointer
  | .bc => .bc
  | .de => .de
  | .hl => .hl
  | .hlInc => .hlInc
  | .hlDec => .hlDec

open MicroOp

/-- A single cycle with the effect in it. -/
def single : Program := ⟨[opcode], some 0, none⟩

/-- The programs of `LD`. -/
def load (first second : Option Operand) : Program :=
  match first, second with
  | some (.reg _), some (.reg _) => single
  | some (.reg _), some (.imm8 _) => ⟨[opcode, immLow], some 1, none⟩
  | some (.reg _), some (.indirect i) => ⟨[opcode, read (pointer i)], some 1, none⟩
  | some (.indirect i), some (.reg r) => ⟨[opcode, write (pointer i) (.reg r)], none, none⟩
  | some (.indirect i), some (.imm8 _) => ⟨[opcode, immLow, write (pointer i) .z], none, none⟩
  | some (.pair _), some (.imm16 _) => ⟨[opcode, immLow, immHigh], some 2, none⟩
  | some (.direct _), some (.pair .sp) =>
    ⟨[opcode, immLow, immHigh, write .wz .spLow, write .wzNext .spHigh], none, none⟩
  | some (.direct _), some (.reg r) =>
    ⟨[opcode, immLow, immHigh, write .wz (.reg r)], none, none⟩
  | some (.reg _), some (.direct _) => ⟨[opcode, immLow, immHigh, read .wz], some 3, none⟩
  | some (.pair .sp), some (.pair .hl) => ⟨[opcode, internal], some 1, none⟩
  | some (.pair .hl), some (.spRel _) => ⟨[opcode, immLow, internal], some 2, none⟩
  | _, _ => single

/-- The programs of `LDH`. -/
def loadHigh (first second : Option Operand) : Program :=
  match first, second with
  | some (.highOffset _), some (.reg r) => ⟨[opcode, immLow, write .highZ (.reg r)], none, none⟩
  | some (.reg _), some (.highOffset _) => ⟨[opcode, immLow, read .highZ], some 2, none⟩
  | some .highC, some (.reg r) => ⟨[opcode, write .highC (.reg r)], none, none⟩
  | some (.reg _), some .highC => ⟨[opcode, read .highC], some 1, none⟩
  | _, _ => single

/-- The programs of `INC` and `DEC`. -/
def step (first second : Option Operand) : Program :=
  match first, second with
  | some (.pair _), none => ⟨[opcode, internal], some 1, none⟩
  | some (.indirect i), none => ⟨[opcode, read (pointer i), write (pointer i) .z], some 1, none⟩
  | _, _ => single

/-- The programs of the operations on the accumulator, by their source. -/
def accumulate : Option Operand → Program
  | some (.imm8 _) => ⟨[opcode, immLow], some 1, none⟩
  | some (.indirect i) => ⟨[opcode, read (pointer i)], some 1, none⟩
  | _ => single

/-- The programs of `ADD`. -/
def add (first second : Option Operand) : Program :=
  match first, second with
  | some (.pair .hl), some (.pair _) => ⟨[opcode, internal], some 1, none⟩
  | some (.pair .sp), some (.rel8 _) => ⟨[opcode, immLow, internal, internal], some 3, none⟩
  | _, _ => accumulate (second.or first)

/-- The early end of a conditional instruction whose first operand is a condition. -/
def branchAfter (at_ : Nat) : Option Operand → Option (Nat × Condition)
  | some (.cond condition) => some (at_, condition)
  | _ => none

/-- The programs of `JP`. -/
def jump (first second : Option Operand) : Program :=
  match first, second with
  | some (.pair .hl), none => single
  | _, _ => ⟨[opcode, immLow, immHigh, internal], some 3, branchAfter 2 first⟩

/-- The programs of `RET`. -/
def ret (first second : Option Operand) : Program :=
  match first, second with
  | some (.cond condition), none =>
    ⟨[opcode, internal, popLow, popHigh, internal], some 4, some (1, condition)⟩
  | _, _ => ⟨[opcode, popLow, popHigh, internal], some 3, none⟩

/-- The programs of `PUSH`. -/
def push (first second : Option Operand) : Program :=
  match first, second with
  | some (.pair p), none =>
    ⟨[opcode, internal, pushHigh (.pair p), pushLow (.pair p)], none, none⟩
  | _, _ => single

/-- The program of an extended instruction that reads a byte in memory and writes it back. -/
def modify (i : Indirect) : Program :=
  ⟨[opcode, secondOpcode, read (pointer i), write (pointer i) .z], some 2, none⟩

/-- The program of an extended instruction on a register. -/
def extended : Program :=
  ⟨[opcode, secondOpcode], some 1, none⟩

/-- The programs of the shifts. -/
def shift (first second : Option Operand) : Program :=
  match first, second with
  | some (.indirect i), none => modify i
  | _, _ => extended

/-- The programs of `BIT`. -/
def testBit : Option Operand → Program
  | some (.indirect i) => ⟨[opcode, secondOpcode, read (pointer i)], some 2, none⟩
  | _ => extended

/-- The programs of `RES` and `SET`. -/
def changeBit : Option Operand → Program
  | some (.indirect i) => modify i
  | _ => extended

/-- The program of an instruction.  Combinations of kind and operands without machine code have
one too, which nothing runs. -/
def ofInstruction (i : Instruction) : Program :=
  match i.kind with
  | .ld => load i.first i.second
  | .ldh => loadHigh i.first i.second
  | .inc | .dec => step i.first i.second
  | .add => add i.first i.second
  | .adc | .sub | .sbc | .and | .xor | .or | .cp => accumulate (i.second.or i.first)
  | .jr => ⟨[opcode, immLow, internal], some 2, branchAfter 1 i.first⟩
  | .jp => jump i.first i.second
  | .call =>
    ⟨[opcode, immLow, immHigh, internal, pushHigh .pc, pushLow .pc], some 5,
      branchAfter 2 i.first⟩
  | .ret => ret i.first i.second
  | .reti => ⟨[opcode, popLow, popHigh, internal], some 3, none⟩
  | .rst => ⟨[opcode, internal, pushHigh .pc, pushLow .pc], some 3, none⟩
  | .push => push i.first i.second
  | .pop => ⟨[opcode, popLow, popHigh], some 2, none⟩
  | .rlc | .rrc | .rl | .rr | .sla | .sra | .swap | .srl => shift i.first i.second
  | .bit => testBit i.second
  | .res | .set => changeBit i.second
  | _ => single

/-- The program that answers an interrupt: two idle cycles, the program counter onto the stack,
and a jump. -/
def dispatch : Program :=
  ⟨[internal, internal, pushHigh .pc, pushLow .pc, internal], some 4, none⟩

end Program

/-- What a program carries out. -/
inductive Routine where
  | instruction (i : Instruction)
  | interrupt (i : Interrupt)
deriving DecidableEq

namespace Routine

def text : Routine → String
  | instruction i => i.text
  | interrupt i => i.name

def program : Routine → Program
  | instruction i => .ofInstruction i
  | interrupt _ => .dispatch

end Routine

end Handheld
