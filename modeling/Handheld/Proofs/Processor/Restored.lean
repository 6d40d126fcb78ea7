/-
# Restored processors

A processor can be put back from the saved form of its registers.  What is saved are the registers
alone: the cycle counter and the journal start anew, and the two marks, that of a failed `HALT` and
that of an opcode without a meaning, are not there.  Nothing depends on the counter and the journal
(`Machine.Twins.tick`), so between instructions and without a mark a restored processor goes on as
the saved one would have (`Machine.restored_goes_on`).  With a mark it does not
(`Machine.marks_not_restored`).
-/
import Handheld.MemoryMap.Basic
import Handheld.Proofs.Processor.Duration
import Handheld.Proofs.Registers.SavedForm

namespace Handheld

namespace Machine

variable {M : Type} {s t : Machine M} {n : Nat}

/-- Whether two machines differ in the cycle counter and the journal of their processors alone. -/
def Twins (s t : Machine M) : Prop :=
  ∃ cycles journal, t = ⟨{ s.cpu with cycles := cycles, journal := journal }, s.memory⟩

/-- Whether two cycles answer alike and leave twins. -/
def Alike (a b : Except Fault Bool × Machine M) : Prop :=
  b.1 = a.1 ∧ Twins a.2 b.2

lemma alike_of_cpu (result : Except Fault Bool) (cpu : Cpu) (m : M) (n : Nat) (j : Journal) :
    Alike (result, ⟨cpu, m⟩) (result, ⟨{ cpu with cycles := n, journal := j }, m⟩) :=
  ⟨rfl, n, j, rfl⟩

variable [Memory M] (cpu : Cpu) (m : M) (x : Flight) (cycles : Nat) (journal : Journal)

/-! ## One cycle -/

lemma alike_finish :
    Alike (finish cpu m x) (finish { cpu with cycles := cycles, journal := journal } m x) := by
  cases hx : x.routine with
  | interrupt i =>
    unfold finish
    rw [hx]
    exact alike_of_cpu _ _ _ _ _
  | instruction i =>
    rw [finish_eq_conclude _ _ hx, finish_eq_conclude _ _ hx]
    dsimp only
    cases i.conclude cpu.registers m with
    | error e => exact ⟨rfl, _, _, rfl⟩
    | ok a => exact ⟨rfl, _, _, rfl⟩

lemma alike_execute :
    Alike (execute cpu m x) (execute { cpu with cycles := cycles, journal := journal } m x) := by
  rw [execute_op, execute_op]
  dsimp only
  rcases x.op.perform ⟨cpu.registers, x.z, x.w⟩ m with ⟨e | u, d, m'⟩
  · exact ⟨rfl, _, _, rfl⟩
  · dsimp only
    obtain ⟨j, heffect⟩ := exists_applyEffect cpu x d
    obtain ⟨j', heffect'⟩ :=
      exists_applyEffect { cpu with cycles := cycles, journal := journal } x d
    rw [heffect, heffect']
    dsimp only
    -- whether the program goes on is up to the registers
    have hgo (c : Cpu) (y : Flight) :
        goesOn { c with cycles := cycles, journal := j' } y = goesOn c y := rfl
    split
    · rename_i hon
      rw [if_pos (by rwa [← hgo] at hon)]
      exact ⟨rfl, _, _, rfl⟩
    · rename_i hends
      rw [if_neg (by rwa [← hgo] at hends)]
      exact alike_finish _ _ _ _ _

lemma alike_fetchInstruction :
    Alike (fetchInstruction cpu m)
      (fetchInstruction { cpu with cycles := cycles, journal := journal } m) := by
  unfold fetchInstruction
  dsimp only
  cases Memory.read m cpu.registers.pc with
  | error e => exact ⟨rfl, _, _, rfl⟩
  | ok opcode =>
    dsimp only
    generalize (if cpu.haltBug then Instruction.decodeRepeating m cpu.registers.pc
      else (Instruction.decode m cpu.registers.pc).map Prod.fst) = decoded
    cases cpu.haltBug with
    | true => cases decoded <;> exact ⟨rfl, _, _, rfl⟩
    | false => cases decoded <;> exact ⟨rfl, _, _, rfl⟩

lemma alike_dispatch (i : Interrupt) :
    Alike (dispatch cpu m i) (dispatch { cpu with cycles := cycles, journal := journal } m i) := by
  unfold dispatch
  dsimp only
  rcases i.acknowledge m with ⟨e | u, m'⟩
  · exact ⟨rfl, _, _, rfl⟩
  · exact alike_execute (Cpu.note { cpu with registers.ime := .disabled } _) m' _ cycles _

lemma alike_fetch :
    Alike (fetch cpu m) (fetch { cpu with cycles := cycles, journal := journal } m) := by
  unfold fetch
  dsimp only
  split
  · exact ⟨rfl, _, _, rfl⟩
  · split
    · exact ⟨rfl, _, _, rfl⟩
    · split
      · exact ⟨rfl, _, _, rfl⟩
      · exact alike_fetchInstruction cpu m cycles journal
    · split
      · exact alike_dispatch { cpu with registers.halted := false } m cycles journal _
      · exact alike_fetchInstruction { cpu with registers.halted := false } m cycles journal

omit cpu m x cycles journal

/-- **Twins stay twins**: a cycle depends neither on the cycle counter nor on the journal. -/
theorem Twins.tick (h : Twins s t) : Alike s.tick t.tick := by
  obtain ⟨cycles, journal, rfl⟩ := h
  obtain ⟨cpu, m⟩ := s
  cases hphase : cpu.phase with
  | executing x =>
    rw [tick_executing hphase, tick_executing (by exact hphase)]
    exact alike_execute { cpu with cycles := cpu.cycles + 1 } m x (cycles + 1) journal
  | fetching =>
    rw [tick_fetching hphase, tick_fetching (by exact hphase)]
    exact alike_fetch { cpu with cycles := cpu.cycles + 1 } m (cycles + 1) journal

/-! ## Steps -/

/-- Twins tick alike, for as many cycles. -/
lemma Twins.ticks (h : Twins s t) (n : Nat) :
    (Machine.ticks n t).1 = (Machine.ticks n s).1 ∧
      Twins (Machine.ticks n s).2 (Machine.ticks n t).2 ∧
      (Machine.ticks n t).2.cpu.cycles + s.cpu.cycles =
        (Machine.ticks n s).2.cpu.cycles + t.cpu.cycles := by
  induction n generalizing s t with
  | zero => exact ⟨rfl, h, Nat.add_comm _ _⟩
  | succ n ih =>
    obtain ⟨hresult, htwins⟩ := h.tick
    have hs := tick_cycles s
    have ht := tick_cycles t
    rw [Machine.ticks, Machine.ticks]
    rcases hstick : s.tick with ⟨result, s'⟩
    rcases httick : t.tick with ⟨result', t'⟩
    rw [hstick, httick] at hresult htwins
    rw [hstick] at hs
    rw [httick] at ht
    obtain rfl : result' = result := hresult
    rcases result' with e | _ | _
    · exact ⟨rfl, htwins, by dsimp only at hs ht ⊢; omega⟩
    · obtain ⟨hresult, htwins, hcycles⟩ := ih htwins
      exact ⟨hresult, htwins, by dsimp only at hs ht hcycles ⊢; omega⟩
    · exact ⟨rfl, htwins, by dsimp only at hs ht ⊢; omega⟩

lemma Twins.step (h : Twins s t) : t.step.1 = s.step.1 ∧ Twins s.step.2 t.step.2 := by
  obtain ⟨hresult, htwins, hcycles⟩ := h.ticks longestStep
  unfold Machine.step
  dsimp only
  rcases hs : Machine.ticks longestStep s with ⟨result, s'⟩
  rcases ht : Machine.ticks longestStep t with ⟨result', t'⟩
  rw [hs, ht] at hresult htwins hcycles
  obtain rfl : result' = result := hresult
  dsimp only at hcycles
  cases result' with
  | error e => exact ⟨rfl, htwins⟩
  | ok u => exact ⟨congrArg Except.ok (by omega), htwins⟩

/-- The machine after a number of steps, whether they fail or not. -/
def afterSteps (s : Machine M) : Nat → Machine M
  | 0 => s
  | n + 1 => (s.afterSteps n).step.2

lemma Twins.afterSteps (h : Twins s t) (n : Nat) : Twins (s.afterSteps n) (t.afterSteps n) := by
  induction n with
  | zero => exact h
  | succ n ih => exact ih.step.2

/-! ## Saving and restoring -/

/-- The machine with a new processor on the same memory, which has the registers that were
saved. -/
def restored (s : Machine M) : Except SavedStateError (Machine M) := do
  let r ← Registers.ofBytes s.cpu.registers.toBytes
  return ⟨.ofRegisters r, s.memory⟩

omit [Memory M] in
lemma restored_eq (s : Machine M) :
    s.restored = .ok ⟨.ofRegisters s.cpu.registers, s.memory⟩ := by
  rw [restored, Registers.ofBytes_toBytes]
  rfl

/-- **A restored processor goes on where the saved one stood**, between instructions and with
neither of the two marks: every later step answers alike, with the same cost or the same fault, and
leaves the same registers and the same memory. -/
theorem restored_goes_on (hs : s.cpu.phase = .fetching) (hbug : s.cpu.haltBug = false)
    (hlocked : s.cpu.locked = false) :
    ∃ t, s.restored = .ok t ∧ ∀ n,
      (t.afterSteps n).step.1 = (s.afterSteps n).step.1 ∧
      (t.afterSteps n).cpu.registers = (s.afterSteps n).cpu.registers ∧
      (t.afterSteps n).memory = (s.afterSteps n).memory := by
  have htwins : Twins s ⟨.ofRegisters s.cpu.registers, s.memory⟩ := by
    obtain ⟨⟨r, cycles, phase, bug, locked, journal⟩, m⟩ := s
    dsimp only at hs hbug hlocked
    subst hs hbug hlocked
    exact ⟨0, {}, rfl⟩
  refine ⟨_, restored_eq s, fun n => ?_⟩
  have hanswer := (htwins.afterSteps n).step.1
  obtain ⟨cycles, journal, heq⟩ := htwins.afterSteps n
  exact ⟨hanswer, by rw [heq], by rw [heq]⟩

/-- A machine that is about to carry out an instruction of one byte and `INC A`.  An interrupt is
pending that will not be taken. -/
def incrementing (opcode : UInt8) : Machine MemoryMap where
  cpu := .ofRegisters { pc := 0xC000, sp := 0xFFFE }
  memory :=
    ⟨[.backed (.ram (.ofBytes "program" 0xC000 ⟨#[opcode, 0x3C, 0x00]⟩ .readWrite)),
      .backed (.ram (.ofBytes "if" 0xFF0F ⟨#[0x01]⟩ .readWrite)),
      .backed (.ram (.ofBytes "ie" 0xFFFF ⟨#[0x01]⟩ .readWrite))], {}⟩

/-- After `NOP` a restored processor increments as the saved one does. -/
theorem nop_restored_goes_on :
    (incrementing 0x00).step.2.cpu.phase = .fetching ∧
      (incrementing 0x00).step.2.cpu.haltBug = false ∧
      (incrementing 0x00).step.2.cpu.locked = false ∧
      ∃ t, (incrementing 0x00).step.2.restored = .ok t ∧ t.step.1 = .ok 2 ∧
        (t.afterSteps 1).cpu.registers =
          ((incrementing 0x00).step.2.afterSteps 1).cpu.registers := by
  have hphase := phase_step (incrementing 0x00)
  have hbug : (incrementing 0x00).step.2.cpu.haltBug = false := by decide +kernel
  have hlocked : (incrementing 0x00).step.2.cpu.locked = false := by decide +kernel
  obtain ⟨t, ht, hgoes⟩ := restored_goes_on hphase hbug hlocked
  refine ⟨hphase, hbug, hlocked, t, ht, ?_, (hgoes 1).2.1⟩
  rw [show t.step.1 = _ from (hgoes 0).1]
  decide +kernel

/-- **The marks are not restored.**  After a `HALT` that fails, the saved processor reads the next
byte twice and the restored one does not; after an opcode without a meaning the saved one idles and
the restored one carries out what follows. -/
theorem marks_not_restored :
    (∃ s t, (incrementing 0x76).step = (.ok 2, s) ∧ s.cpu.phase = .fetching ∧
      s.restored = .ok t ∧ (s.afterSteps 1).cpu.registers.pc = 0xC001 ∧
      (t.afterSteps 1).cpu.registers.pc = 0xC002) ∧
    ∃ s t, (incrementing 0xD3).step = (.ok 2, s) ∧ s.cpu.phase = .fetching ∧
      s.restored = .ok t ∧ s.step.1 = .ok 1 ∧ t.step.1 = .ok 2 := by
  refine ⟨⟨(incrementing 0x76).step.2, _, Prod.ext ?_ rfl, phase_step _, restored_eq _, ?_, ?_⟩,
    ⟨(incrementing 0xD3).step.2, _, Prod.ext ?_ rfl, phase_step _, restored_eq _, ?_, ?_⟩⟩
  all_goals decide +kernel

end Machine

end Handheld
