/-
# The opcode table

Each opcode stands for a kind of instruction and for two operand slots.  A slot is fixed by the
opcode, or filled from the bytes that follow.  Decoder, encoder and processor share this one
table.  An opcode byte splits into a quadrant `x`, a row `y` and a column `z`; where a row counts
register pairs, its half is the pair and its parity picks one of two instructions.
-/
import Handheld.Instruction.Basic

namespace Handheld

/-- How one operand place of an opcode is filled. -/
inductive Slot where
  /-- Given by the opcode. -/
  | fixed (o : Operand)
  | imm8
  | rel8
  | imm16
  | direct
  | highOffset
  | spRel
  /-- The byte after `STOP`, which is skipped.  A zero is no operand, any other byte is an
  immediate one. -/
  | padding
deriving DecidableEq

/-- What an opcode stands for. -/
structure Opcode.Entry where
  kind : Kind
  first : Option Slot := none
  second : Option Slot := none
deriving DecidableEq

/-- An opcode: a byte, or a byte after the prefix `CB`. -/
inductive Opcode where
  | base (b : UInt8)
  | extended (b : UInt8)
deriving DecidableEq, Inhabited

namespace Opcode

/-- The byte that announces an extended opcode. -/
def extension : UInt8 := 0xCB

/-- The bytes of an opcode. -/
def bytes : Opcode → List UInt8
  | base b => [b]
  | extended b => [extension, b]

/-- The operand in column `z`: a register or the byte that `HL` points to. -/
def column : Nat → Operand
  | 0 => .reg .b
  | 1 => .reg .c
  | 2 => .reg .d
  | 3 => .reg .e
  | 4 => .reg .h
  | 5 => .reg .l
  | 6 => .indirect .hl
  | _ => .reg .a

/-- The pairs of arithmetic and loads. -/
def wordPair : Nat → Pair
  | 0 => .bc
  | 1 => .de
  | 2 => .hl
  | _ => .sp

/-- The pairs of the stack instructions. -/
def stackPair : Nat → Pair
  | 0 => .bc
  | 1 => .de
  | 2 => .hl
  | _ => .af

def condition : Nat → Condition
  | 0 => .nz
  | 1 => .z
  | 2 => .nc
  | _ => .c

/-- The memory operands of the accumulator loads. -/
def pointer : Nat → Operand
  | 0 => .indirect .bc
  | 1 => .indirect .de
  | 2 => .indirect .hlInc
  | _ => .indirect .hlDec

/-- The slot of the accumulator. -/
def accumulator : Slot := .fixed (.reg .a)

private def nullary (kind : Kind) : Entry := ⟨kind, none, none⟩

private def unary (kind : Kind) (s : Slot) : Entry := ⟨kind, some s, none⟩

private def binary (kind : Kind) (s t : Slot) : Entry := ⟨kind, some s, some t⟩

/-- The accumulator operations by row. -/
def arithmetic (y : Nat) (source : Slot) : Entry :=
  match y with
  | 0 => binary .add accumulator source
  | 1 => binary .adc accumulator source
  | 2 => unary .sub source
  | 3 => binary .sbc accumulator source
  | 4 => unary .and source
  | 5 => unary .xor source
  | 6 => unary .or source
  | _ => unary .cp source

/-- The rotations and flag operations on the accumulator by row. -/
def accumulatorKind : Nat → Kind
  | 0 => .rlca
  | 1 => .rrca
  | 2 => .rla
  | 3 => .rra
  | 4 => .daa
  | 5 => .cpl
  | 6 => .scf
  | _ => .ccf

/-- The shifts of the extended opcodes by row. -/
def shiftKind : Nat → Kind
  | 0 => .rlc
  | 1 => .rrc
  | 2 => .rl
  | 3 => .rr
  | 4 => .sla
  | 5 => .sra
  | 6 => .swap
  | _ => .srl

private def noMeaning (op : UInt8) : Entry :=
  unary .invalid (.fixed (.imm8 op))

/-- The opcodes `00` to `3F`. -/
def lowQuadrant (y z : Nat) : Entry :=
  let p := y / 2
  let even := y % 2 == 0
  match z with
  | 0 =>
    match y with
    | 0 => nullary .nop
    | 1 => binary .ld .direct (.fixed (.pair .sp))
    | 2 => unary .stop .padding
    | 3 => unary .jr .rel8
    | _ => binary .jr (.fixed (.cond (condition (y - 4)))) .rel8
  | 1 =>
    if even then binary .ld (.fixed (.pair (wordPair p))) .imm16
    else binary .add (.fixed (.pair .hl)) (.fixed (.pair (wordPair p)))
  | 2 =>
    if even then binary .ld (.fixed (pointer p)) accumulator
    else binary .ld accumulator (.fixed (pointer p))
  | 3 => unary (if even then .inc else .dec) (.fixed (.pair (wordPair p)))
  | 4 => unary .inc (.fixed (column y))
  | 5 => unary .dec (.fixed (column y))
  | 6 => binary .ld (.fixed (column y)) .imm8
  | _ => nullary (accumulatorKind y)

/-- The opcodes `C0` to `FF`. -/
def highQuadrant (op : UInt8) (y z : Nat) : Entry :=
  let p := y / 2
  let even := y % 2 == 0
  match z with
  | 0 =>
    match y with
    | 4 => binary .ldh .highOffset accumulator
    | 5 => binary .add (.fixed (.pair .sp)) .rel8
    | 6 => binary .ldh accumulator .highOffset
    | 7 => binary .ld (.fixed (.pair .hl)) .spRel
    | _ => unary .ret (.fixed (.cond (condition y)))
  | 1 =>
    if even then unary .pop (.fixed (.pair (stackPair p)))
    else match p with
      | 0 => nullary .ret
      | 1 => nullary .reti
      | 2 => unary .jp (.fixed (.pair .hl))
      | _ => binary .ld (.fixed (.pair .sp)) (.fixed (.pair .hl))
  | 2 =>
    match y with
    | 4 => binary .ldh (.fixed .highC) accumulator
    | 5 => binary .ld .direct accumulator
    | 6 => binary .ldh accumulator (.fixed .highC)
    | 7 => binary .ld accumulator .direct
    | _ => binary .jp (.fixed (.cond (condition y))) .imm16
  | 3 =>
    match y with
    | 0 => unary .jp .imm16
    | 6 => nullary .di
    | 7 => nullary .ei
    | _ => noMeaning op
  | 4 => if y < 4 then binary .call (.fixed (.cond (condition y))) .imm16 else noMeaning op
  | 5 =>
    if even then unary .push (.fixed (.pair (stackPair p)))
    else if p = 0 then unary .call .imm16 else noMeaning op
  | 6 => arithmetic y .imm8
  | _ => unary .rst (.fixed (.vector (UInt8.ofNat (y * 8))))

/-- What a byte stands for.  The prefix itself counts as an opcode without a meaning. -/
def baseEntry (op : UInt8) : Entry :=
  let y := op.toNat / 8 % 8
  let z := op.toNat % 8
  match op.toNat / 64 with
  | 0 => lowQuadrant y z
  | 1 => if op = 0x76 then nullary .halt else binary .ld (.fixed (column y)) (.fixed (column z))
  | 2 => arithmetic y (.fixed (column z))
  | _ => highQuadrant op y z

/-- What a byte after the prefix stands for. -/
def extendedEntry (op : UInt8) : Entry :=
  let y := op.toNat / 8 % 8
  let target := Slot.fixed (column (op.toNat % 8))
  let number := Slot.fixed (.bit (UInt8.ofNat y))
  match op.toNat / 64 with
  | 0 => unary (shiftKind y) target
  | 1 => binary .bit number target
  | 2 => binary .res number target
  | _ => binary .set number target

/-- What an opcode stands for. -/
def entry : Opcode → Entry
  | base b => baseEntry b
  | extended b => extendedEntry b

/-- All bytes, in order. -/
def allBytes : List UInt8 :=
  (List.range 256).map UInt8.ofNat

/-- All opcodes: every byte but the prefix, and every byte after it. -/
def all : List Opcode :=
  (allBytes.filter (· != extension)).map base ++ allBytes.map extended

end Opcode

end Handheld
