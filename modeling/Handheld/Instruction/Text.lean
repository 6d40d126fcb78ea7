/-
# Assembly text

The written form of instructions and of their parts.  A relative jump shows its offset, since an
instruction does not know where it stands; a listing line knows, and shows the target instead.
-/
import Handheld.Instruction.Basic
import Handheld.Text.Hex

namespace Handheld

def Register.text : Register → String
  | a => "A"
  | b => "B"
  | c => "C"
  | d => "D"
  | e => "E"
  | h => "H"
  | l => "L"

def Pair.text : Pair → String
  | bc => "BC"
  | de => "DE"
  | hl => "HL"
  | sp => "SP"
  | af => "AF"

def Indirect.text : Indirect → String
  | bc => "(BC)"
  | de => "(DE)"
  | hlInc => "(HL+)"
  | hlDec => "(HL-)"
  | hl => "(HL)"

def Condition.text : Condition → String
  | nz => "NZ"
  | z => "Z"
  | nc => "NC"
  | c => "C"

def Kind.mnemonic : Kind → String
  | nop => "NOP"
  | ld => "LD"
  | ldh => "LDH"
  | inc => "INC"
  | dec => "DEC"
  | rlca => "RLCA"
  | rrca => "RRCA"
  | rla => "RLA"
  | rra => "RRA"
  | daa => "DAA"
  | cpl => "CPL"
  | scf => "SCF"
  | ccf => "CCF"
  | jr => "JR"
  | jp => "JP"
  | call => "CALL"
  | ret => "RET"
  | reti => "RETI"
  | rst => "RST"
  | push => "PUSH"
  | pop => "POP"
  | add => "ADD"
  | adc => "ADC"
  | sub => "SUB"
  | sbc => "SBC"
  | and => "AND"
  | xor => "XOR"
  | or => "OR"
  | cp => "CP"
  | halt => "HALT"
  | stop => "STOP"
  | di => "DI"
  | ei => "EI"
  | rlc => "RLC"
  | rrc => "RRC"
  | rl => "RL"
  | rr => "RR"
  | sla => "SLA"
  | sra => "SRA"
  | swap => "SWAP"
  | srl => "SRL"
  | bit => "BIT"
  | res => "RES"
  | set => "SET"
  | invalid => "DB"

namespace Text

/-- A signed offset in decimal. -/
def signed (e : UInt8) : String :=
  if e.toNat < 128 then toString e.toNat else "-" ++ toString (256 - e.toNat)

end Text

def Operand.text : Operand → String
  | imm8 b => "$" ++ Text.hex2 b
  | rel8 b => Text.signed b
  | imm16 w => "$" ++ Text.hex4 w
  | direct w => "($" ++ Text.hex4 w ++ ")"
  | highOffset b => "($FF" ++ Text.hex2 b ++ ")"
  | highC => "(C)"
  | reg r => r.text
  | pair p => p.text
  | indirect i => i.text
  | spRel b => (if b.toNat < 128 then "SP+" else "SP") ++ Text.signed b
  | vector b => "$" ++ Text.hex2 b
  | bit n => toString n.toNat
  | cond condition => condition.text

namespace Instruction

/-- The text of an operand; `target` replaces the offset of a relative jump. -/
def operandText (kind : Kind) (target : Option Address) (o : Operand) : String :=
  match kind, o, target with
  | .jr, .rel8 _, some a => "$" ++ Text.hex4 a
  | _, o, _ => o.text

/-- The text of an instruction whose branch target, where it is known, is `target`. -/
def textWith (target : Option Address) (i : Instruction) : String :=
  match i.operands.map (operandText i.kind target) with
  | [] => i.kind.mnemonic
  | texts => i.kind.mnemonic ++ " " ++ ",".intercalate texts

/-- The text of an instruction on its own. -/
def text (i : Instruction) : String :=
  i.textWith none

end Instruction

end Handheld
