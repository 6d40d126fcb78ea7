/-
# Micro-operations

An instruction runs as a short list of micro-operations, one for each machine cycle.  A
micro-operation first prepares the registers and asks for at most one bus cycle; once the bus has
answered it stores the answer.  Bytes on their way through an instruction stand in two latches,
`z` for the low and `w` for the high byte.
-/
import Handheld.Registers.Basic
import Handheld.Memory.Basic

namespace Handheld

/-- The address that a read or a write puts on the bus. -/
inductive Pointer where
  | bc | de | hl | hlInc | hlDec
  /-- The word in the latches. -/
  | wz
  /-- The address after the word in the latches. -/
  | wzNext
  /-- The last page at the place in `z`. -/
  | highZ
  /-- The last page at the place in `C`. -/
  | highC
deriving DecidableEq

def Pointer.name : Pointer → String
  | bc => "Bc"
  | de => "De"
  | hl => "Hl"
  | hlInc => "HlInc"
  | hlDec => "HlDec"
  | wz => "Wz"
  | wzNext => "WzNext"
  | highZ => "HighZ"
  | highC => "HighC"

/-- The byte that a write puts on the bus. -/
inductive ByteSource where
  | reg (r : Register)
  | z
  | spLow
  | spHigh
deriving DecidableEq

def ByteSource.name : ByteSource → String
  | reg r => "Reg(" ++ r.text ++ ")"
  | z => "Z"
  | spLow => "SpLow"
  | spHigh => "SpHigh"

/-- The word that a push takes its byte from. -/
inductive WordSource where
  | pc
  | pair (p : Pair)
deriving DecidableEq

def WordSource.name : WordSource → String
  | pc => "Pc"
  | pair p => "Pair(" ++ p.text ++ ")"

/-- What happens in one machine cycle. -/
inductive MicroOp where
  /-- The cycle in which the opcode takes effect. -/
  | opcode
  /-- Read the second byte of an extended opcode. -/
  | secondOpcode
  /-- Read the byte at `PC` into `z`. -/
  | immLow
  /-- Read the byte at `PC` into `w`. -/
  | immHigh
  | internal
  /-- Read into `z`. -/
  | read (p : Pointer)
  | write (p : Pointer) (s : ByteSource)
  | pushHigh (s : WordSource)
  | pushLow (s : WordSource)
  /-- Read the byte at `SP` into `z`. -/
  | popLow
  /-- Read the byte at `SP` into `w`. -/
  | popHigh
deriving DecidableEq, Inhabited

/-- The name of a micro-operation in traces. -/
def MicroOp.name : MicroOp → String
  | opcode => "Opcode"
  | secondOpcode => "Prefix"
  | immLow => "ImmLow"
  | immHigh => "ImmHigh"
  | internal => "Internal"
  | read p => "Read(" ++ p.name ++ ")"
  | write p s => "Write(" ++ p.name ++ ", " ++ s.name ++ ")"
  | pushHigh s => "PushHigh(" ++ s.name ++ ")"
  | pushLow s => "PushLow(" ++ s.name ++ ")"
  | popLow => "PopLow"
  | popHigh => "PopHigh"

/-- The registers with the two latches. -/
structure Datapath where
  registers : Registers
  z : UInt8 := 0
  w : UInt8 := 0
deriving DecidableEq

/-- What a machine cycle asks of the bus. -/
inductive BusCycle where
  | idle
  | read (a : Address)
  | write (a : Address) (v : UInt8)
deriving DecidableEq

namespace Datapath

/-- The word in the latches. -/
def wz (d : Datapath) : UInt16 :=
  Word.ofBytes d.w d.z

/-- The address for a pointer. -/
def address (d : Datapath) : Pointer → Address
  | .bc => d.registers.getPair .bc
  | .de => d.registers.getPair .de
  | .hl | .hlInc | .hlDec => d.registers.hl
  | .wz => d.wz
  | .wzNext => d.wz + 1
  | .highZ => Word.ofBytes 0xFF d.z
  | .highC => Word.ofBytes 0xFF d.registers.c

/-- Step `HL` where the pointer says so. -/
def stepPointer (d : Datapath) : Pointer → Datapath
  | .hlInc => { d with registers := d.registers.setPair (d.registers.hl + 1) .hl }
  | .hlDec => { d with registers := d.registers.setPair (d.registers.hl - 1) .hl }
  | _ => d

def byte (d : Datapath) : ByteSource → UInt8
  | .reg r => d.registers.get r
  | .z => d.z
  | .spLow => Word.low d.registers.sp
  | .spHigh => Word.high d.registers.sp

def word (d : Datapath) : WordSource → UInt16
  | .pc => d.registers.pc
  | .pair p => d.registers.getPair p

/-- Move the stack pointer by one cell. -/
def moveStack (d : Datapath) (by_ : UInt16) : Datapath :=
  { d with registers := { d.registers with sp := d.registers.sp + by_ } }

/-- Step the program counter. -/
def advance (d : Datapath) : Datapath :=
  { d with registers := { d.registers with pc := d.registers.pc + 1 } }

/-- Move the stack pointer down and ask for a byte to be written there. -/
def push (d : Datapath) (v : UInt8) : Datapath × BusCycle :=
  let d := d.moveStack (-1)
  (d, .write d.registers.sp v)

end Datapath

namespace MicroOp

/-- Prepare the registers and ask for the bus cycle.  What is changed here stays changed when
the bus cycle fails. -/
def issue (d : Datapath) : MicroOp → Datapath × BusCycle
  | opcode | internal => (d, .idle)
  | secondOpcode | immLow | immHigh => (d, .read d.registers.pc)
  | read p => (d.stepPointer p, .read (d.address p))
  | write p s => (d.stepPointer p, .write (d.address p) (d.byte s))
  | pushHigh s => d.push (Word.high (d.word s))
  | pushLow s => d.push (Word.low (d.word s))
  | popLow | popHigh => (d, .read d.registers.sp)

/-- Store the byte that was read. -/
def latch (d : Datapath) (v : UInt8) : MicroOp → Datapath
  | secondOpcode | immLow => { d.advance with z := v }
  | immHigh => { d.advance with w := v }
  | popLow => { d.moveStack 1 with z := v }
  | popHigh => { d.moveStack 1 with w := v }
  | read _ => { d with z := v }
  | _ => d

variable {M : Type} [Memory M]

/-- Carry out one micro-operation on the registers and a memory. -/
def perform (op : MicroOp) (d : Datapath) (m : M) : Except MemoryError Unit × Datapath × M :=
  match op.issue d with
  | (d, .idle) => (.ok (), d, m)
  | (d, .read a) =>
    match Memory.read m a with
    | .ok v => (.ok (), op.latch d v, m)
    | .error e => (.error e, d, m)
  | (d, .write a v) =>
    match Memory.write m a v with
    | (r, m) => (r, d, m)

end MicroOp

end Handheld
