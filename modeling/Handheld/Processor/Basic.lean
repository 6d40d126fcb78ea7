/-
# The processor

The processor's registers with what it remembers between machine cycles: whether an instruction
is under way, whether the next opcode byte will be read twice, whether an opcode without a meaning
has locked it, and what it has told its listener.
-/
import Handheld.Processor.Effect
import Handheld.Event

namespace Handheld

/-- A program under way.  `origin` is the address of the opcode, or of the interrupted
instruction; `cursor` is the number of the next micro-operation. -/
structure Flight where
  routine : Routine
  origin : Address
  opcode : Option UInt8 := none
  cursor : Nat := 0
  z : UInt8 := 0
  w : UInt8 := 0
deriving DecidableEq

namespace Flight

def program (x : Flight) : Program :=
  x.routine.program

/-- Whether no micro-operation is left. -/
def isDone (x : Flight) : Bool :=
  x.cursor ≥ x.program.ops.length

end Flight

/-- Where the processor is between two machine cycles. -/
inductive Phase where
  /-- Between instructions. -/
  | fetching
  | executing (x : Flight)
deriving DecidableEq

/-- A failed access to memory, with the instruction it belongs to.  The opcode is missing when
the failure came before it was known. -/
structure Fault where
  pc : Address
  opcode : Option UInt8
  source : MemoryError
deriving DecidableEq, Inhabited

def Fault.message (f : Fault) : String :=
  let opcode := match f.opcode with
    | some op => " (opcode $" ++ Text.hex2 op ++ ")"
    | none => ""
  "fault at PC=$" ++ Text.hex4 f.pc ++ opcode ++ ": " ++ f.source.message

/-- What the processor tells a listener. -/
inductive Notice where
  /-- An instruction has been fetched; the registers are those after the fetch. -/
  | fetched (pc : Address) (i : Instruction) (r : Registers)
  | dispatching (i : Interrupt) (pc : Address)
  | locked (opcode : UInt8) (pc : Address)
deriving DecidableEq

namespace Notice

def level : Notice → Event.Level
  | fetched .. => .trace
  | dispatching .. => .debug
  | locked .. => .warn

def message : Notice → String
  | fetched pc i r => Text.hex4 pc ++ ": " ++ i.text ++ "  " ++ r.summary
  | dispatching i pc => "dispatching " ++ i.name ++ " from " ++ Text.hex4 pc
  | locked opcode pc =>
    "invalid opcode " ++ Text.hex2 opcode ++ " at " ++ Text.hex4 pc ++ ", CPU locked"

def event (n : Notice) : Event :=
  ⟨n.level, "sm83::cpu", n.message⟩

end Notice

/-- The notices given so far, the last one first; a journal that is not open keeps none. -/
structure Journal where
  isOpen : Bool := false
  notices : List Notice := []
deriving DecidableEq, Inhabited

namespace Journal

def add (j : Journal) (n : Notice) : Journal :=
  if j.isOpen then { j with notices := n :: j.notices } else j

/-- The events of a journal in the order in which they were given. -/
def events (j : Journal) : List Event :=
  j.notices.reverse.map Notice.event

end Journal

/-- The processor. -/
structure Cpu where
  registers : Registers
  /-- Machine cycles since the start, counted in 64 bits: `Run.Ends.counts_lt` says which runs keep
  the count below `Run.countBound`. -/
  cycles : Nat := 0
  phase : Phase := .fetching
  /-- The next instruction's first byte will be read twice. -/
  haltBug : Bool := false
  /-- An opcode without a meaning has stopped the processor for good. -/
  locked : Bool := false
  journal : Journal := {}
deriving DecidableEq

namespace Cpu

/-- A processor that starts with given registers. -/
def ofRegisters (r : Registers) : Cpu :=
  { registers := r }

/-- The processor as the start-up program of a model leaves it. -/
def ofModel (model : Model) : Cpu :=
  { registers := .postBoot model }

/-- The processor when the power comes on. -/
def powerOn : Cpu :=
  { registers := .powerOn }

/-- Whether the processor is between instructions. -/
def atBoundary (c : Cpu) : Bool :=
  match c.phase with
  | .fetching => true
  | .executing _ => false

/-- The program under way, if there is one. -/
def flight? (c : Cpu) : Option Flight :=
  match c.phase with
  | .fetching => none
  | .executing x => some x

def note (c : Cpu) (n : Notice) : Cpu :=
  { c with journal := c.journal.add n }

end Cpu

/-- A processor with the memory it runs on. -/
structure Machine (M : Type) where
  cpu : Cpu
  memory : M

end Handheld
