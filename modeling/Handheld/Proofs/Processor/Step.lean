/-
# Steps and instructions

A step from between two instructions fetches an instruction and runs its program to the end.  The
main statement, `Machine.step_eq_carryOut`, says that this is what the instruction does in one go.
-/
import Handheld.MemoryMap.Basic
import Handheld.Proofs.Processor.Fetch
import Handheld.Proofs.Processor.Footprint
import Handheld.Proofs.Processor.Refinement

namespace Handheld

variable {M : Type} [Memory M]

/-! ## Programs fit into a step -/

namespace Program

/-- Whether a program has micro-operations, and fewer than a step has cycles. -/
def Fits (p : Program) : Prop :=
  0 < p.ops.length ∧ p.ops.length < Machine.longestStep

instance (p : Program) : Decidable p.Fits :=
  inferInstanceAs (Decidable (_ ∧ _))

lemma fits_single : single.Fits := by
  decide

/-- The program of a load fits into a step, and no condition ends it early. -/
lemma fits_branch_load (first second : Option Operand) :
    (load first second).Fits ∧ (load first second).branch = none := by
  cases first with
  | none => cases second <;> exact ⟨fits_single, rfl⟩
  | some o =>
    cases second with
    | none =>
      cases o with
      | pair p => cases p <;> exact ⟨fits_single, rfl⟩
      | _ => exact ⟨fits_single, rfl⟩
    | some o' =>
      -- loads tell the pairs apart, the target's and the source's
      cases o with
      | pair p =>
        cases p
        all_goals
          cases o' with
          | pair p' => cases p' <;> exact ⟨of_decide_eq_true rfl, rfl⟩
          | _ => exact ⟨of_decide_eq_true rfl, rfl⟩
      | _ =>
        cases o' with
        | pair p' => cases p' <;> exact ⟨of_decide_eq_true rfl, rfl⟩
        | _ => exact ⟨of_decide_eq_true rfl, rfl⟩

lemma fits_loadHigh (first second : Option Operand) : (loadHigh first second).Fits := by
  unfold loadHigh
  split
  all_goals simp [Fits, single, Machine.longestStep]

lemma fits_step (first second : Option Operand) : (step first second).Fits := by
  unfold step
  split
  all_goals simp [Fits, single, Machine.longestStep]

lemma fits_accumulate (source : Option Operand) : (accumulate source).Fits := by
  unfold accumulate
  split
  all_goals simp [Fits, single, Machine.longestStep]

lemma fits_add (first second : Option Operand) : (add first second).Fits := by
  unfold add
  split
  · simp [Fits, Machine.longestStep]
  · simp [Fits, Machine.longestStep]
  · exact fits_accumulate _

lemma fits_jump (first second : Option Operand) : (jump first second).Fits := by
  unfold jump
  split
  all_goals simp [Fits, single, Machine.longestStep]

lemma fits_ret (first second : Option Operand) : (ret first second).Fits := by
  unfold ret
  split
  all_goals simp [Fits, Machine.longestStep]

lemma fits_push (first second : Option Operand) : (push first second).Fits := by
  unfold push
  split
  all_goals simp [Fits, single, Machine.longestStep]

lemma fits_shift (first second : Option Operand) : (shift first second).Fits := by
  unfold shift
  split
  all_goals simp [Fits, modify, extended, Machine.longestStep]

lemma fits_testBit (o : Option Operand) : (testBit o).Fits := by
  unfold testBit
  split
  all_goals simp [Fits, extended, Machine.longestStep]

lemma fits_changeBit (o : Option Operand) : (changeBit o).Fits := by
  unfold changeBit
  split
  all_goals simp [Fits, modify, extended, Machine.longestStep]

/-- The program of every instruction fits into a step, also of those without machine code. -/
lemma fits_ofInstruction (i : Instruction) : (ofInstruction i).Fits := by
  unfold ofInstruction
  cases i.kind with
  | ld => exact (fits_branch_load _ _).1
  | ldh => exact fits_loadHigh _ _
  | inc | dec => exact fits_step _ _
  | add => exact fits_add _ _
  | adc | sub | sbc | and | xor | or | cp => exact fits_accumulate _
  | jp => exact fits_jump _ _
  | ret => exact fits_ret _ _
  | push => exact fits_push _ _
  | rlc | rrc | rl | rr | sla | sra | swap | srl => exact fits_shift _ _
  | bit => exact fits_testBit _
  | res | set => exact fits_changeBit _
  | jr | call | reti | rst | pop => simp [Fits, Machine.longestStep]
  | nop | rlca | rrca | rla | rra | daa | cpl | scf | ccf | halt | stop | di | ei | invalid =>
    exact fits_single

lemma fits_dispatch : dispatch.Fits := by
  simp [Fits, dispatch, Machine.longestStep]

end Program

/-! ## The end of an instruction -/

namespace Machine

variable {cpu : Cpu} {m : M} {x : Flight} {i : Instruction}

/-- The end of an instruction leaves what that of the instruction in one go leaves. -/
lemma finish_of_conclude {a : Aftermath M} (hx : x.routine = .instruction i)
    (hbug : cpu.haltBug = false) (hlocked : cpu.locked = (i.kind == .invalid))
    (h : i.conclude cpu.registers m = .ok a) :
    finish cpu m x =
      (.ok true,
        ⟨{ cpu with registers := a.registers, haltBug := a.haltBug, locked := a.locked },
          a.memory⟩) := by
  obtain ⟨hmemory, hlock, -⟩ := Instruction.conclude_keeps h
  rw [finish_eq_conclude cpu m hx, h, hmemory, hlock, ← hlocked, hbug]
  rfl

/-! ## A step that fetches -/

section Steps

variable {s s' : Machine M} {n : Nat} {b : UInt8}

/-- An opcode without a meaning takes its effect, which is none. -/
lemma applied_of_invalid {r : Registers} (h : i.kind = .invalid) :
    ((Routine.instruction i).pass 0 ⟨r, 0, 0⟩ m (Program.ofInstruction i).ops).applied = true := by
  have hprogram : Program.ofInstruction i = .single := by
    rw [Program.ofInstruction, h]
  rw [hprogram, Program.single, Routine.pass_of_ends rfl (.inl rfl)]
  exact decide_eq_true (congrArg Program.effectAt hprogram)

/-- Running the program of an instruction that has been fetched does what the instruction does in
one go. -/
lemma carryOut_of_settle {bytes : List UInt8} (hlocked : cpu.locked = false)
    (hform : i.Form bytes) (hbytes : Memory.Holds m cpu.operandStart bytes)
    (h : settle (cpu.launch i b) (cpu.flight i b)
      ((Routine.instruction i).pass 0 ⟨{ cpu.registers with pc := cpu.operandStart }, 0, 0⟩ m
        (Program.ofInstruction i).ops) = (.ok (), s')) :
    s'.cpu.phase = .fetching ∧
      i.carryOut (Registers.skip { cpu.registers with pc := cpu.operandStart } bytes) m =
        .ok ⟨s'.cpu.registers, s'.memory, s'.cpu.haltBug, s'.cpu.locked⟩ := by
  have hrun := hform.run_eq (r := { cpu.registers with pc := cpu.operandStart }) hbytes
  have happlied (hi : i.kind = .invalid) := applied_of_invalid (m := m)
    (r := { cpu.registers with pc := cpu.operandStart }) hi
  rw [Routine.run] at hrun
  change Passage.outcome (Routine.pass _ _ _ _ (Program.ofInstruction i).ops) = _ at hrun
  generalize (Routine.instruction i).pass 0 ⟨{ cpu.registers with pc := cpu.operandStart }, 0, 0⟩ m
    (Program.ofInstruction i).ops = p at h hrun happlied
  obtain ⟨result, d, m', cycles, applied⟩ := p
  cases result with
  | error e => cases h
  | ok u =>
    rw [Instruction.carryOut, ← hrun]
    change s'.cpu.phase = .fetching ∧ i.conclude d.registers m' = _
    unfold settle at h
    dsimp only at h happlied
    generalize hc : Cpu.lockIf { cpu.launch i b with
      registers := d.registers, cycles := (cpu.launch i b).cycles + cycles, phase := .fetching }
      (cpu.flight i b) applied = c at h
    have hregisters : c.registers = d.registers := by
      rw [← hc, Cpu.lockIf_registers]
    have hbug : c.haltBug = false := by
      rw [← hc, Cpu.lockIf_haltBug]
      rfl
    have hlocked' : c.locked = (i.kind == .invalid) := by
      rw [← hc, Cpu.lockIf_locked]
      change (cpu.locked || (applied && (i.kind == .invalid))) = _
      -- without a meaning the effect has been taken; with one there is nothing to lock
      by_cases hi : i.kind = .invalid
      · rw [happlied hi, Bool.true_and, hlocked, Bool.false_or]
      · rw [beq_eq_false_iff_ne.mpr hi, Bool.and_false, hlocked, Bool.false_or]
    have hphase : c.phase = .fetching := by
      rw [← hc, Cpu.lockIf_phase]
    cases hconclude : i.conclude d.registers m' with
    | error e =>
      rw [← hregisters] at hconclude
      rw [finish_eq_conclude (x := cpu.flight i b) _ _ rfl, hconclude] at h
      cases h
    | ok a =>
      rw [← hregisters] at hconclude
      have hfinish := finish_of_conclude (x := cpu.flight i b) rfl hbug hlocked' hconclude
      rw [hfinish] at h
      obtain rfl := congrArg Prod.snd h
      exact ⟨hphase, rfl⟩

lemma step_eq_ok_iff :
    s.step = (.ok n, s') ↔
      ticks longestStep s = (.ok (), s') ∧ n = s'.cpu.cycles - s.cpu.cycles := by
  unfold step
  rcases ticks longestStep s with ⟨e | u, after⟩
  · simp
  · simp only [Prod.mk.injEq, Except.ok.injEq]
    constructor
    · rintro ⟨rfl, rfl⟩
      exact ⟨⟨trivial, rfl⟩, rfl⟩
    · rintro ⟨⟨-, rfl⟩, rfl⟩
      exact ⟨rfl, rfl⟩

/-- The first tick of ticks that do not fail does not fail. -/
lemma tick_ne_error {k : Nat} (h : ticks (k + 1) s = (.ok (), s')) (e : Fault) :
    s.tick.1 ≠ .error e := by
  intro he
  rw [ticks] at h
  rcases htick : s.tick with ⟨result, after⟩
  rw [htick] at h he
  obtain rfl : result = .error e := he
  cases h

/-- A step that fetches and does not fail leaves what the instruction leaves in one go. -/
lemma step_of_fetches (h : s.Fetches) (hstep : s.step = (.ok n, s')) :
    ∃ i b bytes, s.cpu.fetched s.memory = .ok i ∧ i.encode = some (b :: bytes) ∧
      i.Form bytes ∧ Memory.Holds s.memory s.cpu.operandStart bytes ∧
      s.tick = (.ok false, ⟨s.cpu.launch i b, s.memory⟩) ∧ s'.cpu.phase = .fetching ∧
      i.carryOut { s.cpu.registers with pc := s.cpu.nextAddress (b :: bytes).length } s.memory =
        .ok ⟨s'.cpu.registers, s'.memory, s'.cpu.haltBug, s'.cpu.locked⟩ := by
  have hticks := (step_eq_ok_iff.mp hstep).1
  obtain ⟨i, b, hfetched, hread, htick⟩ := tick_of_fetches h (tick_ne_error hticks)
  obtain ⟨b', bytes, hencode, hform, hread', hbytes⟩ := Cpu.exists_form_of_fetched hfetched
  obtain rfl := Except.ok.inj (hread.symm.trans hread')
  obtain ⟨hpos, hlt⟩ := Program.fits_ofInstruction i
  -- the fetch is the first of the seven cycles that a step has
  have hrun : ticks 6 ⟨s.cpu.launch i b, s.memory⟩ = (.ok (), s') := by
    rw [longestStep, ticks, htick] at hticks
    exact hticks
  rw [ticks_executing (x := s.cpu.flight i b) rfl rfl (List.length_pos_iff.mp hpos)
    (Nat.le_of_lt_succ hlt)] at hrun
  obtain ⟨hphase, hcarry⟩ := carryOut_of_settle h.unlocked hform hbytes hrun
  rw [Registers.skip, Cpu.operandStart_add] at hcarry
  exact ⟨i, b, bytes, hfetched, hencode, hform, hbytes, htick, hphase, hcarry⟩

/-- **A step does what its instruction does in one go.**  When a processor that fetches steps and
no access to memory fails, the instruction that it decodes, carried out in one go with the program
counter behind it, leaves the registers, the memory and the marks that the step leaves.  Registers,
flags, the stack pointer and the program counter behind the instruction change in the footprint of
the instruction alone.  Memory changes by writes to the footprint's addresses alone, and a byte
that they do not reach keeps its value. -/
theorem step_eq_carryOut (h : s.Fetches) (hstep : s.step = (.ok n, s')) :
    ∃ i bytes, s.cpu.fetched s.memory = .ok i ∧ i.encode = some bytes ∧
      i.carryOut { s.cpu.registers with pc := s.cpu.nextAddress bytes.length } s.memory =
        .ok ⟨s'.cpu.registers, s'.memory, s'.cpu.haltBug, s'.cpu.locked⟩ ∧
      s'.cpu.phase = .fetching ∧
      (i.footprint s.cpu.registers).Covers
        { s.cpu.registers with pc := s.cpu.nextAddress bytes.length } s'.cpu.registers ∧
      (∃ writes, (∀ w ∈ writes, w.1 ∈ (i.footprint s.cpu.registers).addresses) ∧
        Memory.putAll s.memory writes = .ok s'.memory) ∧
      ∀ (kind : M → Prop) (a : Address), kind s.memory →
        Memory.Unreached kind (i.footprint s.cpu.registers).addresses a →
        Memory.read s'.memory a = Memory.read s.memory a := by
  obtain ⟨i, b, bytes, hfetched, hencode, -, -, -, hphase, hcarry⟩ := step_of_fetches h hstep
  have hcovers := Instruction.covers_of_carryOut hcarry
  obtain ⟨writes, haddresses, hput⟩ := Instruction.exists_writes_of_carryOut hcarry
  rw [Instruction.footprint_withPc] at hcovers haddresses
  refine ⟨i, b :: bytes, hfetched, hencode, hcarry, hphase, hcovers,
    ⟨writes, haddresses, hput⟩, ?_⟩
  intro kind a hkind ha
  exact Memory.read_of_putAll hput haddresses hkind ha

end Steps

/-- A machine that is about to carry out `LD (HL+),A` in a memory that holds little else. -/
def sample : Machine MemoryMap where
  cpu := { registers := { a := 7, h := 0xC0, l := 0x01, pc := 0xC000 } }
  memory :=
    ⟨[.backed (.ram (.ofBytes "program" 0xC000 ⟨#[0x22, 0x00]⟩ .readWrite)),
      .backed (.ram (.ofBytes "if" 0xFF0F ⟨#[0x00]⟩ .readWrite)),
      .backed (.ram (.ofBytes "ie" 0xFFFF ⟨#[0x00]⟩ .readWrite))], {}⟩

lemma sample_fetches : sample.Fetches :=
  ⟨rfl, rfl, rfl, nofun⟩

lemma sample_step : sample.step = (.ok 3, sample.step.2) := by
  refine Prod.ext ?_ rfl
  decide +kernel

/-- The sample stores its accumulator where `HL` points, and its program stays. -/
theorem sample_step_eq_carryOut :
    sample.Fetches ∧ sample.step = (.ok 3, sample.step.2) ∧
      (∃ i bytes, sample.cpu.fetched sample.memory = .ok i ∧ i.encode = some bytes ∧
        i.carryOut { sample.cpu.registers with pc := sample.cpu.nextAddress bytes.length }
          sample.memory =
          .ok ⟨sample.step.2.cpu.registers, sample.step.2.memory, sample.step.2.cpu.haltBug,
            sample.step.2.cpu.locked⟩) ∧
      Memory.read sample.step.2.memory 0xC000 = .ok 0x22 ∧
      Memory.read sample.step.2.memory 0xC001 = .ok 7 := by
  obtain ⟨i, bytes, hfetched, hencode, hcarry, -⟩ := step_eq_carryOut sample_fetches sample_step
  refine ⟨sample_fetches, sample_step, ⟨i, bytes, hfetched, hencode, hcarry⟩, ?_, ?_⟩
  all_goals decide +kernel

end Machine

end Handheld
