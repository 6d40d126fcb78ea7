/-
# Bytes that are read twice

A `HALT` that fails leaves a mark, by which the next instruction's first byte is read twice.  The
step is that of a processor without the mark that starts one place before, in a memory that has the
byte twice (`Machine.step_unrepeated`): decoding, operands, jumps and return addresses come out the
same.  This is so where the step fetches an instruction, and not where it answers an interrupt or
idles (`Machine.unfetched_not_unrepeated`).
-/
import Handheld.Proofs.Processor.Lockstep

namespace Handheld

variable {M : Type} [Memory M]

/-- Whether a memory agrees with another but at the address before a given one, where it has the
byte of that one again. -/
structure Memory.Doubles (a : Address) (m m' : M) : Prop where
  agree : AgreeOutside (a - 1) m m'
  copy : Memory.read m' (a - 1) = Memory.read m a

/-- The places of the bytes of an instruction are not the one before. -/
lemma Address.add_ne_sub_one (a : Address) {j : Nat} (hj : j < 2) :
    a + UInt16.ofNat j ≠ a - 1 := by
  intro heq
  have hnat := congrArg UInt16.toNat heq
  rw [UInt16.toNat_add, UInt16.toNat_sub, UInt16.toNat_ofNat'] at hnat
  have hlt := a.toNat_lt
  simp only [UInt16.toNat_ofNat] at hnat
  omega

namespace Cpu

variable {cpu : Cpu} {m m' : M} {i : Instruction}

/-- The processor one place before, without the mark of `HALT`. -/
def unrepeated (cpu : Cpu) : Cpu :=
  { cpu with registers.pc := cpu.registers.pc - 1, haltBug := false }

lemma operandStart_unrepeated (h : cpu.haltBug = true) :
    cpu.unrepeated.operandStart = cpu.operandStart := by
  simp [operandStart, unrepeated, h]

/-- The instruction is the same in a memory with the byte twice. -/
lemma fetched_unrepeated (hbug : cpu.haltBug = true) (hm : Memory.Doubles cpu.registers.pc m m')
    (h : cpu.fetched m = .ok i) : cpu.unrepeated.fetched m' = .ok i := by
  obtain ⟨n, hn⟩ := fetched_eq_ok_iff.mp h
  refine fetched_eq_ok_iff.mpr ⟨n, Instruction.decodeStream_congr hn fun k hk => ?_⟩
  obtain ⟨-, hle⟩ := Instruction.length_of_decodeStream hn
  cases k with
  | zero =>
    rw [fetchStream_zero, fetchStream_zero]
    exact hm.copy
  | succ j =>
    rw [fetchStream_succ, fetchStream_succ, operandStart_unrepeated hbug, operandStart, if_pos hbug]
    exact hm.agree.read (Address.add_ne_sub_one _ (by omega))

/-- Once the instruction is fetched the processor is the same, but for where it comes from and what
it has told. -/
lemma launch_unrepeated (cpu : Cpu) (h : cpu.haltBug = true) (i : Instruction) (b : UInt8) :
    ∃ journal, cpu.unrepeated.launch i b =
      { cpu.launch i b with
        phase := (cpu.launch i b).phase.withOrigin (cpu.registers.pc - 1)
        journal := journal } := by
  refine ⟨(cpu.unrepeated.launch i b).journal, ?_⟩
  have hstart := operandStart_unrepeated h
  unfold launch
  rw [hstart]
  rfl

end Cpu

namespace Machine

variable {s t : Machine M} {m : M} {n : Nat} {kind : M → Prop}

/-- The machine one place before, without the mark of `HALT`, on another memory. -/
def unrepeated (s : Machine M) (m : M) : Machine M :=
  ⟨s.cpu.unrepeated, m⟩

lemma begins_unrepeated (hs : s.Begins) (h : Interrupt.poll m = Interrupt.poll s.memory) :
    (s.unrepeated m).Begins := by
  refine ⟨hs.boundary, hs.unlocked, fun hhalted hpoll => ?_, fun henabled j hpoll => ?_⟩
  · exact hs.roused hhalted (h.symm.trans hpoll)
  · exact hs.undisturbed henabled j (h.symm.trans hpoll)

/-- The operand bytes that a step reads are the two, at most, from `operandStart` on. -/
lemma Begins.pc_of_readsOperand (hs : s.Begins) {pending : Option Interrupt} {i : Instruction}
    {b : UInt8} (hpoll : Interrupt.poll s.memory = .ok pending)
    (hread : Memory.read s.memory s.cpu.registers.pc = .ok b)
    (hfetched : s.cpu.fetched s.memory = .ok i) {k : Nat} {x : Flight}
    (h : Runs k ⟨s.awake.cpu.launch i b, s.memory⟩ t) (ht : t.cpu.phase = .executing x)
    (hop : x.op.readsOperand = true) :
    ∃ j < 2, t.cpu.registers.pc = s.cpu.operandStart + UInt16.ofNat j := by
  obtain ⟨-, bytes, -, hform, -, hheld⟩ := Cpu.exists_form_of_fetched hfetched
  have htick := hs.tick_eq hpoll hread hfetched
  rw [← hs.tick_awake hpoll] at htick
  have hfirst := hform.readsFirst
  obtain ⟨j, hj, hpc⟩ := Machine.pc_of_readsOperand (s := s.awake) htick hfirst
    (i.holds_operandBytes hheld) h ht hop
  exact ⟨j, Nat.lt_of_lt_of_le hj hfirst.reads.length_le_two, hpc⟩

/-- **A step after a failed `HALT` is a step in a memory that has the byte twice.** -/
theorem step_unrepeated (hkind : Memory.RandomAccess kind) (hs : s.Begins)
    (hbug : s.cpu.haltBug = true) (hstep : s.step = (.ok n, t))
    (hrequest : Interrupt.requestAddress ≠ s.cpu.registers.pc - 1)
    (henable : Interrupt.enableAddress ≠ s.cpu.registers.pc - 1)
    (hdata : ∀ c ∈ s.dataCycles n, c.address? ≠ some (s.cpu.registers.pc - 1))
    (hfirst : kind s.memory) (hsecond : kind m)
    (hm : Memory.Doubles s.cpu.registers.pc s.memory m) :
    ∃ journal m', (s.unrepeated m).step = (.ok n, ⟨{ t.cpu with journal := journal }, m'⟩) ∧
      (s.unrepeated m).dataCycles n = s.dataCycles n ∧
      Memory.putAll s.memory (s.dataWrites n) = .ok t.memory ∧
      Memory.putAll m (s.dataWrites n) = .ok m' ∧
      Memory.AgreeOutside (s.cpu.registers.pc - 1) t.memory m' := by
  obtain ⟨pending, i, b, hpoll, hread, hfetched⟩ := hs.exists_of_step hstep
  obtain ⟨k, rfl, hends⟩ := hs.exists_endsIn hpoll hread hfetched hstep
  have hcycles := dataCycles_of_fetching hs.boundary (hs.tick_eq hpoll hread hfetched) k
  rw [hcycles] at hdata
  -- both machines fetch the instruction, and then they are in step
  have hpoll' := hm.agree.poll hrequest henable
  have hbegins := begins_unrepeated hs hpoll'
  have htick := hbegins.tick_eq (hpoll'.trans hpoll) (hm.copy.trans hread)
    (Cpu.fetched_unrepeated hbug hm hfetched)
  have hcycles' := dataCycles_of_fetching hbegins.boundary htick k
  obtain ⟨journal, hlaunch⟩ := s.awake.cpu.launch_unrepeated hbug i b
  have hinStep : InStep kind (s.cpu.registers.pc - 1) ⟨s.awake.cpu.launch i b, s.memory⟩
      ⟨(s.unrepeated m).awake.cpu.launch i b, m⟩ :=
    ⟨⟨_, journal, hlaunch⟩, hfirst, hsecond, hm.agree⟩
  have hoperands (j : Nat) (u : Machine M) (x : Flight)
      (hruns : Runs j ⟨s.awake.cpu.launch i b, s.memory⟩ u) (hu : u.cpu.phase = .executing x)
      (hop : x.op.readsOperand = true) : u.cpu.registers.pc ≠ s.cpu.registers.pc - 1 := by
    obtain ⟨place, hplace, hpc⟩ := hs.pc_of_readsOperand hpoll hread hfetched hruns hu hop
    rw [hpc, Cpu.operandStart, if_pos hbug]
    exact Address.add_ne_sub_one _ hplace
  obtain ⟨⟨cpu', m'⟩, hends', ht', hsame⟩ := hinStep.endsIn hkind hrequest henable rfl hends
    (fun c hc => hdata c (List.mem_cons_of_mem _ hc)) hoperands
  have hphase : t.cpu.phase = .fetching := by
    have hphase := phase_step s
    rwa [hstep] at hphase
  obtain ⟨journal', rfl⟩ := ht'.cpu_of_fetching hphase
  have hstep' := EndsIn.step (.cons htick hends') (length_of_step hstep).2.1
  have hdataCycles : (s.unrepeated m).dataCycles (k + 1) = s.dataCycles (k + 1) := by
    rw [hcycles, hcycles', ← hsame]
    rfl
  refine ⟨journal', m', hstep', hdataCycles, hs.putAll_dataWrites hstep, ?_, ht'.agree⟩
  rw [dataWrites, ← hdataCycles]
  exact hbegins.putAll_dataWrites hstep'

/-- A memory with `HALT` and, behind it, a call, and room on the stack.  An interrupt is pending. -/
def callAfterHalt : MemoryMap :=
  ⟨[.backed (.ram (.ofBytes "program" 0xC000 ⟨#[0x76, 0xCD, 0x00]⟩ .readWrite)),
    .backed (.ram (.ofBytes "stack" 0xD000 ⟨#[0x00, 0x00]⟩ .readWrite)),
    .backed (.ram (.ofBytes "if" 0xFF0F ⟨#[0x01]⟩ .readWrite)),
    .backed (.ram (.ofBytes "ie" 0xFFFF ⟨#[0x01]⟩ .readWrite))], {}⟩

/-- A machine that has carried out `HALT`, which failed as the interrupt will not be taken. -/
def failed : Machine MemoryMap :=
  ⟨(step ⟨.ofRegisters { pc := 0xC000, sp := 0xD002 }, callAfterHalt⟩).2.cpu, callAfterHalt⟩

/-- The memory with the call in the place of the `HALT`. -/
def called : MemoryMap :=
  (Memory.write callAfterHalt (failed.cpu.registers.pc - 1) 0xCD).2

lemma write_called :
    Memory.write failed.memory (failed.cpu.registers.pc - 1) 0xCD = (.ok (), called) := by
  refine Prod.ext ?_ rfl
  decide +kernel

lemma distinct_failed : failed.memory.Distinct := by
  refine MemoryMap.distinct_of_ram ?_
  intro r hr
  simp only [failed, callAfterHalt, List.mem_cons, List.not_mem_nil, or_false] at hr
  rcases hr with rfl | rfl | rfl | rfl
  all_goals exact ⟨_, rfl⟩

lemma doubles_called : Memory.Doubles failed.cpu.registers.pc failed.memory called := by
  refine ⟨MemoryMap.randomAccess.agreeOutside distinct_failed write_called, ?_⟩
  decide +kernel

/-- A call that is its own first operand byte returns to the same place. -/
theorem call_unrepeated :
    failed.Begins ∧ failed.cpu.haltBug = true ∧ failed.step = (.ok 7, failed.step.2) ∧
      (∀ c ∈ failed.dataCycles 7, c.address? ≠ some (failed.cpu.registers.pc - 1)) ∧
      ∃ journal m', (failed.unrepeated called).step =
          (.ok 7, ⟨{ failed.step.2.cpu with journal := journal }, m'⟩) ∧
        failed.step.2.cpu.registers.pc = 0x00CD ∧ Memory.read m' 0xD000 = .ok 0x03 := by
  have hbegins : failed.Begins := by
    refine ⟨phase_step _, ?_, fun hhalted => ?_, fun henabled => ?_⟩
    · decide +kernel
    · exact absurd hhalted (by decide +kernel)
    · exact absurd henabled (by decide +kernel)
  have hbug : failed.cpu.haltBug = true := by decide +kernel
  have hstep : failed.step = (.ok 7, failed.step.2) := by
    refine Prod.ext ?_ rfl
    decide +kernel
  have hdata : ∀ c ∈ failed.dataCycles 7, c.address? ≠ some (failed.cpu.registers.pc - 1) := by
    decide +kernel
  obtain ⟨journal, m', hsame, -, -, -, hagree⟩ := step_unrepeated MemoryMap.randomAccess hbegins
    hbug hstep (by decide +kernel) (by decide +kernel) hdata distinct_failed
    (MemoryMap.randomAccess.keeps distinct_failed write_called) doubles_called
  refine ⟨hbegins, hbug, hstep, hdata, journal, m', hsame, ?_, ?_⟩
  · decide +kernel
  · rw [hagree.read (by decide +kernel)]
    decide +kernel

/-- The machine after the failed `HALT` with interrupts enabled from outside. -/
def attentive : Machine MemoryMap :=
  ⟨{ failed.cpu with registers.ime := .enabled }, callAfterHalt⟩

/-- The machine after the failed `HALT` put to sleep from outside, and the interrupt taken back. -/
def drowsy : Machine MemoryMap :=
  ⟨{ failed.cpu with registers.halted := true },
    (Memory.write callAfterHalt Interrupt.requestAddress 0).2⟩

/-- **Where nothing is fetched the place before shows.**  The answer to an interrupt pushes the
program counter as it is, and a sleeper stays where it is. -/
theorem unfetched_not_unrepeated :
    (attentive.cpu.phase = .fetching ∧ attentive.cpu.haltBug = true ∧ attentive.memory.Distinct ∧
      Memory.Doubles attentive.cpu.registers.pc attentive.memory called ∧
      (∀ c ∈ attentive.dataCycles 5, c.address? ≠ some (attentive.cpu.registers.pc - 1)) ∧
      attentive.step.1 = .ok 5 ∧ (attentive.unrepeated called).step.1 = .ok 5 ∧
      Memory.read attentive.step.2.memory 0xD000 = .ok 0x01 ∧
      Memory.read (attentive.unrepeated called).step.2.memory 0xD000 = .ok 0x00) ∧
    ∃ m, drowsy.cpu.phase = .fetching ∧ drowsy.cpu.haltBug = true ∧ drowsy.memory.Distinct ∧
      Memory.Doubles drowsy.cpu.registers.pc drowsy.memory m ∧
      (∀ c ∈ drowsy.dataCycles 1, c.address? ≠ some (drowsy.cpu.registers.pc - 1)) ∧
      drowsy.step.1 = .ok 1 ∧ (drowsy.unrepeated m).step.1 = .ok 1 ∧
      drowsy.step.2.cpu.registers.pc = 0xC001 ∧
      (drowsy.unrepeated m).step.2.cpu.registers.pc = 0xC000 := by
  have hdrowsy : drowsy.memory.Distinct := by
    refine MemoryMap.randomAccess.keeps distinct_failed (a := Interrupt.requestAddress) (v := 0) ?_
    refine Prod.ext ?_ rfl
    decide +kernel
  have hwrite : Memory.write drowsy.memory (drowsy.cpu.registers.pc - 1) 0xCD =
      (.ok (), (Memory.write drowsy.memory (drowsy.cpu.registers.pc - 1) 0xCD).2) := by
    refine Prod.ext ?_ rfl
    decide +kernel
  have hdoubles := MemoryMap.randomAccess.agreeOutside hdrowsy hwrite
  refine ⟨⟨phase_step _, ?_, distinct_failed, doubles_called, ?_, ?_, ?_, ?_, ?_⟩,
    _, phase_step _, ?_, hdrowsy, ⟨hdoubles, ?_⟩, ?_, ?_, ?_, ?_, ?_⟩
  all_goals decide +kernel

end Machine

end Handheld
