/-
# Machine cycles and steps

`Machine.tick` advances a machine by one machine cycle and says whether it ended an instruction.
A fetch takes a cycle of its own; the micro-operations of the instruction follow, one a cycle.  An
interrupt takes the place of a fetch.  `Machine.step` ticks to the end of an instruction.

A failing access ends the instruction: the processor is back between instructions, with the cycle
counted, and it keeps what it changed before the access.
-/
import Handheld.Processor.Basic
import Handheld.Instruction.Decode

namespace Handheld

namespace Machine

variable {M : Type} [Memory M]

/-- The end of an instruction.  An enable that was asked for takes hold, unless it was asked for
by this very instruction; `HALT` goes to sleep, or fails to when an interrupt is pending and will
not be taken. -/
def finish (cpu : Cpu) (m : M) (x : Flight) : Except Fault Bool × Machine M :=
  match x.routine with
  | .interrupt _ => (.ok true, ⟨cpu, m⟩)
  | .instruction i =>
    let cpu :=
      if cpu.registers.ime = .requested ∧ i.kind ≠ .ei then
        { cpu with registers.ime := .enabled }
      else cpu
    if i.kind = .halt then
      match Interrupt.poll m with
      | .error e => (.error ⟨x.origin, x.opcode, e⟩, ⟨cpu, m⟩)
      | .ok pending =>
        if cpu.registers.ime ≠ .enabled ∧ pending.isSome then
          (.ok true, ⟨{ cpu with haltBug := true }, m⟩)
        else
          (.ok true, ⟨{ cpu with registers.halted := true }, m⟩)
    else (.ok true, ⟨cpu, m⟩)

/-- The effect of a program at its place: the registers and latches change, and an opcode
without a meaning locks the processor. -/
def applyEffect (cpu : Cpu) (x : Flight) (d : Datapath) : Cpu × Flight :=
  if x.program.effectAt = some x.cursor then
    let d := x.routine.effect d
    let cpu := { cpu with registers := d.registers }
    let x := { x with z := d.z, w := d.w }
    if x.routine.locks then
      (({ cpu with locked := true } : Cpu).note (.locked (x.opcode.getD 0) x.origin), x)
    else (cpu, x)
  else ({ cpu with registers := d.registers }, { x with z := d.z, w := d.w })

/-- Whether a program goes on after the micro-operation at its cursor. -/
def goesOn (cpu : Cpu) (x : Flight) : Bool :=
  let taken := match x.program.branch with
    | some (at_, condition) => at_ != x.cursor || condition.holds cpu.registers.flags
    | none => true
  taken && decide (x.cursor + 1 < x.program.ops.length)

/-- Carry out the next micro-operation of a program. -/
def execute (cpu : Cpu) (m : M) (x : Flight) : Except Fault Bool × Machine M :=
  let op := x.program.ops.getD x.cursor .internal
  match op.perform ⟨cpu.registers, x.z, x.w⟩ m with
  | (.error e, d, m) =>
    (.error ⟨x.origin, x.opcode, e⟩,
      ⟨{ cpu with registers := d.registers, phase := .fetching }, m⟩)
  | (.ok _, d, m) =>
    let (cpu, x) := applyEffect cpu x d
    if goesOn cpu x then
      (.ok false, ⟨{ cpu with phase := .executing { x with cursor := x.cursor + 1 } }, m⟩)
    else finish { cpu with phase := .fetching } m x

/-- Answer an interrupt.  The request is taken back, no further interrupt is taken, and this
cycle is the first of the dispatch. -/
def dispatch (cpu : Cpu) (m : M) (i : Interrupt) : Except Fault Bool × Machine M :=
  let pc := cpu.registers.pc
  match i.acknowledge m with
  | (.error e, m) => (.error ⟨pc, none, e⟩, ⟨cpu, m⟩)
  | (.ok _, m) =>
    let cpu := { cpu with registers.ime := .disabled }
    execute (cpu.note (.dispatching i pc)) m { routine := .interrupt i, origin := pc }

/-- Fetch an instruction.  The program counter steps over the opcode, unless its byte is to be
read twice. -/
def fetchInstruction (cpu : Cpu) (m : M) : Except Fault Bool × Machine M :=
  let pc := cpu.registers.pc
  match Memory.read m pc with
  | .error e => (.error ⟨pc, none, e⟩, ⟨cpu, m⟩)
  | .ok opcode =>
    let decoded :=
      if cpu.haltBug then Instruction.decodeRepeating m pc
      else (Instruction.decode m pc).map Prod.fst
    let cpu :=
      if cpu.haltBug then { cpu with haltBug := false }
      else { cpu with registers.pc := pc + 1 }
    match decoded with
    | .error e => (.error ⟨pc, some opcode, e⟩, ⟨cpu, m⟩)
    | .ok i =>
      let cpu := cpu.note (.fetched pc i cpu.registers)
      (.ok false,
        ⟨{ cpu with phase := .executing { routine := .instruction i, origin := pc, opcode } }, m⟩)

/-- The cycle between two instructions.  A locked processor and a sleeping one idle; a pending
interrupt wakes the sleeper and, where interrupts are enabled, is answered. -/
def fetch (cpu : Cpu) (m : M) : Except Fault Bool × Machine M :=
  if cpu.locked then (.ok true, ⟨cpu, m⟩)
  else
    match Interrupt.poll m with
    | .error e => (.error ⟨cpu.registers.pc, none, e⟩, ⟨cpu, m⟩)
    | .ok none =>
      if cpu.registers.halted then (.ok true, ⟨cpu, m⟩) else fetchInstruction cpu m
    | .ok (some i) =>
      let cpu := { cpu with registers.halted := false }
      if cpu.registers.ime = .enabled then dispatch cpu m i else fetchInstruction cpu m

/-- Advance by one machine cycle; answers whether the machine is between instructions after
it. -/
def tick (machine : Machine M) : Except Fault Bool × Machine M :=
  match machine with
  | ⟨cpu, m⟩ =>
    let cpu := { cpu with cycles := cpu.cycles + 1 }
    match cpu.phase with
    | .fetching => fetch cpu m
    | .executing x => execute cpu m x

/-- Tick to the end of an instruction, for at most `n` cycles. -/
def ticks : (n : Nat) → Machine M → Except Fault Unit × Machine M
  | 0, machine => (.ok (), machine)
  | n + 1, machine =>
    match machine.tick with
    | (.ok false, machine) => ticks n machine
    | (.ok true, machine) => (.ok (), machine)
    | (.error e, machine) => (.error e, machine)

/-- The most cycles that a step can take: a fetch and the longest program. -/
def longestStep : Nat := 7

/-- Run one instruction, one dispatch of an interrupt or one idle cycle; answers the number of
cycles it took. -/
def step (machine : Machine M) : Except Fault Nat × Machine M :=
  let start := machine.cpu.cycles
  match ticks longestStep machine with
  | (.ok _, machine) => (.ok (machine.cpu.cycles - start), machine)
  | (.error e, machine) => (.error e, machine)

end Machine

end Handheld
