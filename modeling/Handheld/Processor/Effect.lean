/-
# Effects of instructions

What an instruction does to the registers once its bytes are in the latches.  Reads and writes of
memory are not its business: a byte from memory has been latched in `z`, and a byte for memory is
left there.
-/
import Handheld.Processor.Program
import Handheld.Arithmetic

namespace Handheld

namespace Datapath

/-- The value of a byte operand: a register, or the latched byte. -/
def operand (d : Datapath) : Option Operand → UInt8
  | some (.reg r) => d.registers.get r
  | _ => d.z

/-- Put a byte where an operand says: into a register, or into the latch. -/
def store (d : Datapath) (v : UInt8) : Option Operand → Datapath
  | some (.reg r) => { d with registers := d.registers.set v r }
  | _ => { d with z := v }

def setFlags (d : Datapath) (f : Flags) : Datapath :=
  { d with registers := { d.registers with flags := f } }

/-- Put a result where an operand says, and its flags into the flag register. -/
def storeResult (d : Datapath) (r : Arithmetic.Result) (o : Option Operand) : Datapath :=
  (d.setFlags r.flags).store r.value o

/-- Put a result into the accumulator. -/
def accumulate (d : Datapath) (r : Arithmetic.Result) : Datapath :=
  d.storeResult r (some (.reg .a))

def setPair (d : Datapath) (w : UInt16) (p : Pair) : Datapath :=
  { d with registers := d.registers.setPair w p }

def jump (d : Datapath) (a : Address) : Datapath :=
  { d with registers := { d.registers with pc := a } }

def setEnable (d : Datapath) (e : MasterEnable) : Datapath :=
  { d with registers := { d.registers with ime := e } }

end Datapath

namespace Instruction

open Arithmetic

/-- The effect of `LD` and `LDH`. -/
def loadEffect (d : Datapath) (first second : Option Operand) : Datapath :=
  match first, second with
  | some (.pair .sp), some (.pair .hl) => d.setPair d.registers.hl .sp
  | some (.pair .hl), some (.spRel _) =>
    let (w, flags) := addOffset d.registers.sp d.z
    (d.setFlags flags).setPair w .hl
  | some (.pair p), _ => d.setPair d.wz p
  | some (.reg r), source => d.store (d.operand source) (some (.reg r))
  | _, _ => d

/-- The effect of `ADD`. -/
def addEffect (d : Datapath) (first second : Option Operand) : Datapath :=
  match first, second with
  | some (.pair .hl), some (.pair p) =>
    let (w, flags) := addWords d.registers.hl (d.registers.getPair p) d.registers.flags
    (d.setFlags flags).setPair w .hl
  | some (.pair .sp), _ =>
    let (w, flags) := addOffset d.registers.sp d.z
    (d.setFlags flags).setPair w .sp
  | _, source => d.accumulate (add d.registers.a (d.operand source) false)

/-- The effect of an operation on the accumulator that has its source as only operand. -/
def sourceEffect (d : Datapath) (kind : Kind) (source : UInt8) : Datapath :=
  let a := d.registers.a
  match kind with
  | .sub => d.accumulate (sub a source false)
  | .and => d.accumulate (and a source)
  | .xor => d.accumulate (xor a source)
  | .or => d.accumulate (or a source)
  | .cp => d.setFlags (sub a source false).flags
  | _ => d

/-- The effect of `INC` and `DEC`: on a pair without flags, on a byte with them. -/
def stepEffect (d : Datapath) (up : Bool) : Option Operand → Datapath
  | some (.pair p) =>
    let w := d.registers.getPair p
    d.setPair (if up then w + 1 else w - 1) p
  | o =>
    let step := if up then inc else dec
    d.storeResult (step (d.operand o) d.registers.flags) o

/-- The effect of `BIT`, `RES` and `SET` on bit `n` of an operand. -/
def bitEffect (d : Datapath) (kind : Kind) (n : UInt8) (o : Option Operand) : Datapath :=
  let v := d.operand o
  let mask := (1 : UInt8) <<< n
  match kind with
  | .bit => d.setFlags (testBit n.toNat v d.registers.flags)
  | .res => d.store (v &&& ~~~mask) o
  | .set => d.store (v ||| mask) o
  | _ => d

/-- The effect of an instruction on the registers and latches. -/
def effect (i : Instruction) (d : Datapath) : Datapath :=
  let r := d.registers
  match i.kind with
  | .nop | .halt | .push | .invalid => d
  | .ld | .ldh => loadEffect d i.first i.second
  | .inc => stepEffect d true i.first
  | .dec => stepEffect d false i.first
  | .add => addEffect d i.first i.second
  | .adc => d.accumulate (add r.a (d.operand i.second) r.flags.carry)
  | .sbc => d.accumulate (sub r.a (d.operand i.second) r.flags.carry)
  | .sub | .and | .xor | .or | .cp => sourceEffect d i.kind (d.operand i.first)
  | .rlca | .rrca | .rla | .rra =>
    match i.kind.shift? r.a r.flags.carry with
    | some result => d.accumulate { result with flags.zero := false }
    | none => d
  | .rlc | .rrc | .rl | .rr | .sla | .sra | .swap | .srl =>
    match i.kind.shift? (d.operand i.first) r.flags.carry with
    | some result => d.storeResult result i.first
    | none => d
  | .daa => d.accumulate (decimalAdjust r.a r.flags)
  | .cpl =>
    { d with registers.a := ~~~r.a, registers.flags.subtract := true,
             registers.flags.halfCarry := true }
  | .scf => d.setFlags ⟨r.flags.zero, false, false, true⟩
  | .ccf => d.setFlags ⟨r.flags.zero, false, false, !r.flags.carry⟩
  | .jr => d.jump (r.pc + Word.ofSigned d.z)
  | .jp =>
    match i.first with
    | some (.pair .hl) => d.jump r.hl
    | _ => d.jump d.wz
  | .call | .ret => d.jump d.wz
  | .reti => (d.jump d.wz).setEnable .enabled
  | .rst =>
    match i.first with
    | some (.vector v) => d.jump v.toUInt16
    | _ => d
  | .pop =>
    match i.first with
    | some (.pair p) => d.setPair d.wz p
    | _ => d
  | .stop => { d.advance with registers.halted := true }
  | .di => d.setEnable .disabled
  | .ei => if r.ime = .disabled then d.setEnable .requested else d
  | .bit | .res | .set =>
    match i.first with
    | some (.bit n) => bitEffect d i.kind n i.second
    | _ => d

end Instruction

/-- The effect of an instruction, or the jump to an interrupt's routine. -/
def Routine.effect (d : Datapath) : Routine → Datapath
  | instruction i => i.effect d
  | interrupt i => d.jump i.vector

/-- Whether a routine stops the processor for good. -/
def Routine.locks : Routine → Bool
  | instruction i => i.kind == .invalid
  | interrupt _ => false

end Handheld
