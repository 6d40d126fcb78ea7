/-
# Where instructions lead

The program counter ends behind an instruction unless the instruction transfers control.  The main
statement, `Machine.step_reads_operands`, joins this to the reads of the operand bytes.
-/
import Handheld.Proofs.Processor.Operands
import Handheld.Proofs.Processor.Step

namespace Handheld

variable {M : Type} [Memory M]

/-- The kinds that transfer control. -/
def Kind.transfers : List Kind :=
  [jr, jp, call, ret, reti, rst]

namespace Instruction

variable {i : Instruction} {bytes : List UInt8} {r : Registers} {m : M} {o : Outcome}

/-- Whether `pc` is where an instruction leads to, when `q` is the address behind it. -/
structure LeadsTo (i : Instruction) (r : Registers) (m : M) (q pc : Address) : Prop where
  onward : i.kind ∉ Kind.transfers ∨ i.isTaken r.flags = false → pc = q
  branch : i.isTaken r.flags = true → i.kind ∈ [Kind.jr, .jp, .call, .rst] →
    i.first ≠ some (.pair .hl) → i.branchTarget q = some pc
  jumpHl : i.kind = .jp → i.first = some (.pair .hl) → pc = r.hl
  back : i.isTaken r.flags = true → i.kind ∈ [Kind.ret, .reti] →
    Memory.read16 m r.sp = .ok pc

@[simp] lemma control_ofPair (p : Pair) : (Footprint.ofPair p).control = false := by
  cases p <;> rfl

@[simp] lemma control_ofOperand (r : Registers) (o : Operand) :
    (Footprint.ofOperand r o).control = false := by
  cases o <;> rfl

lemma control_load (r : Registers) (operands : List Operand) :
    (Footprint.load r operands).control = false := by
  unfold Footprint.load
  split <;> simp

lemma control_modify (r : Registers) (f : Flags) (operands : List Operand) :
    (Footprint.modify r f operands).control = false := by
  unfold Footprint.modify
  split <;> simp

lemma control_step (r : Registers) (operands : List Operand) :
    (Footprint.step r operands).control = false := by
  unfold Footprint.step
  split
  · simp
  · exact control_modify r _ _

lemma control_add (operands : List Operand) : (Footprint.add operands).control = false := by
  unfold Footprint.add
  split <;> simp

lemma control_changeBit (r : Registers) (operands : List Operand) :
    (Footprint.changeBit r operands).control = false := by
  unfold Footprint.changeBit
  split <;> simp

/-- Without a transfer of control the program counter is not in the footprint. -/
lemma footprint_control (h : i.kind ∉ Kind.transfers) : (i.footprint r).control = false := by
  obtain ⟨kind, first, second⟩ := i
  unfold footprint
  cases kind with
  | jr | jp | call | ret | reti | rst => exact absurd (by simp [Kind.transfers]) h
  | ld | ldh => exact control_load r _
  | inc | dec => exact control_step r _
  | add => exact control_add _
  | rlc | rrc | rl | rr | sla | sra | swap | srl => exact control_modify r _ _
  | res | set => exact control_changeBit r _
  | pop =>
    dsimp only
    split <;> simp
  | _ => rfl

namespace LeadsTo

variable {q pc : Address}

/-- An instruction that transfers no control leads on. -/
lemma of_onward (h : i.kind ∉ Kind.transfers) (hpc : pc = q) : i.LeadsTo r m q pc := by
  have hne {kinds : List Kind} (hkinds : kinds ⊆ Kind.transfers) : i.kind ∉ kinds :=
    fun hk => h (hkinds hk)
  refine ⟨fun _ => hpc, ?_, ?_, ?_⟩
  · intro _ hk
    exact absurd hk (hne (by decide))
  · intro hk
    exact absurd (List.mem_singleton.mpr hk) (hne (by decide))
  · intro _ hk
    exact absurd hk (hne (by decide))

/-- So does one whose condition fails. -/
lemma of_not_taken (h : i.isTaken r.flags = false) (hpc : pc = q) : i.LeadsTo r m q pc := by
  have hne : ¬ i.isTaken r.flags = true := by
    rw [h]
    exact Bool.false_ne_true
  refine ⟨fun _ => hpc, fun ht => absurd ht hne, ?_, fun ht => absurd ht hne⟩
  intro _ hfirst
  rw [isTaken, hfirst] at h
  cases h

/-- A jump, a call or a restart that is taken. -/
lemma of_branch (h : i.kind ∈ [Kind.jr, .jp, .call, .rst]) (ht : i.isTaken r.flags = true)
    (hfirst : i.first ≠ some (.pair .hl)) (hpc : i.branchTarget q = some pc) :
    i.LeadsTo r m q pc := by
  have hkind : i.kind ∈ Kind.transfers ∧ i.kind ∉ [Kind.ret, .reti] := by
    simp only [List.mem_cons, List.not_mem_nil, or_false] at h
    rcases h with h | h | h | h
    all_goals
      rw [h]
      decide
  refine ⟨?_, fun _ _ _ => hpc, fun _ h => absurd h hfirst, fun _ h => absurd h hkind.2⟩
  rintro (hk | hf)
  · exact absurd hkind.1 hk
  · exact absurd (ht.symm.trans hf) (by decide)

/-- A return that is taken. -/
lemma of_return (h : i.kind ∈ [Kind.ret, .reti]) (ht : i.isTaken r.flags = true)
    (hpc : Memory.read16 m r.sp = .ok pc) : i.LeadsTo r m q pc := by
  have hkind : i.kind ∈ Kind.transfers ∧ i.kind ∉ [Kind.jr, .jp, .call, .rst] := by
    simp only [List.mem_cons, List.not_mem_nil, or_false] at h
    rcases h with h | h
    all_goals
      rw [h]
      decide
  refine ⟨?_, fun _ h => absurd h hkind.2, fun h => absurd ?_ hkind.2, fun _ _ => hpc⟩
  · rintro (hk | hf)
    · exact absurd hkind.1 hk
    · exact absurd (ht.symm.trans hf) (by decide)
  · rw [h]
    decide

/-- A return that is taken and pops. -/
lemma of_popWord (f : UInt16 → Registers → Registers) (hf : ∀ w r', (f w r').pc = w)
    (h : i.kind ∈ [Kind.ret, .reti]) (ht : i.isTaken r.flags = true)
    (ho : (do let (w, r') ← popWord r m; .ok ⟨f w r', []⟩ : Except MemoryError Outcome) = .ok o) :
    i.LeadsTo r m q o.registers.pc := by
  obtain ⟨⟨w, r'⟩, hpop, ho⟩ := bind_eq_ok.mp ho
  obtain rfl := Except.ok.inj ho
  obtain ⟨w', hread, hpop⟩ := bind_eq_ok.mp hpop
  obtain ⟨rfl, -⟩ := Prod.mk.inj (Except.ok.inj hpop)
  refine .of_return h ht ?_
  rw [hf]
  exact hread

end LeadsTo

lemma JumpForm.leadsTo (h : JumpForm i bytes) (ho : i.outcome r m = .ok o) :
    i.LeadsTo r m r.pc o.registers.pc := by
  cases h with
  | jr e | jp lo hi =>
    obtain rfl := Except.ok.inj ho
    exact .of_branch (by simp) rfl nofun rfl
  | jrIf cc e | jpIf cc lo hi =>
    by_cases hcc : cc.holds r.flags = true
    · obtain rfl := Except.ok.inj ho
      refine .of_branch (by simp) hcc nofun ?_
      simp [isTaken, hcc, destination, branchTarget]
    · rw [Bool.not_eq_true] at hcc
      obtain rfl := Except.ok.inj ho
      refine .of_not_taken hcc ?_
      simp [isTaken, hcc]
  | jpHl =>
    obtain rfl := Except.ok.inj ho
    exact ⟨by rintro (h | h) <;> simp_all [Kind.transfers, isTaken],
      fun _ _ h => absurd rfl h, fun _ _ => rfl, by simp⟩

lemma StackForm.leadsTo (h : StackForm i bytes) (hk : i.kind ∈ Kind.transfers)
    (ho : i.outcome r m = .ok o) : i.LeadsTo r m r.pc o.registers.pc := by
  cases h with
  | call lo hi | rst v =>
    obtain rfl := Except.ok.inj ho
    exact .of_branch (by simp) rfl nofun rfl
  | callIf cc lo hi =>
    by_cases hcc : cc.holds r.flags = true
    · obtain rfl := Except.ok.inj ((if_pos hcc).symm.trans ho)
      exact .of_branch (by simp) hcc nofun rfl
    · obtain rfl := Except.ok.inj ((if_neg hcc).symm.trans ho)
      exact .of_not_taken (Bool.eq_false_iff.mpr hcc) rfl
  | ret => exact .of_popWord (fun w r => { r with pc := w }) (fun _ _ => rfl) (by simp) rfl ho
  | reti =>
    exact .of_popWord (fun w r => { r with pc := w, ime := .enabled }) (fun _ _ => rfl) (by simp)
      rfl ho
  | retIf cc =>
    by_cases hcc : cc.holds r.flags = true
    · exact .of_popWord (fun w r => { r with pc := w }) (fun _ _ => rfl) (by simp) hcc
        ((if_pos hcc).symm.trans ho)
    · obtain rfl := Except.ok.inj ((if_neg hcc).symm.trans ho)
      exact .of_not_taken (Bool.eq_false_iff.mpr hcc) rfl
  | push hp | pop hp => simp [Kind.transfers] at hk

lemma Form.transfers (h : Form i bytes) (hk : i.kind ∈ Kind.transfers) :
    JumpForm i bytes ∨ StackForm i bytes := by
  have hne (kinds : List Kind) (hkinds : ∀ k ∈ kinds, k ∉ Kind.transfers) : i.kind ∉ kinds :=
    fun hi => hkinds _ hi hk
  cases h with
  | jump h => exact .inl h
  | stack h => exact .inr h
  | plain h =>
    cases h with
    | plain hi => exact absurd hi (hne _ (by decide))
    | _ => simp [Kind.transfers] at hk
  | load h => cases h <;> simp [Kind.transfers] at hk
  | arithmetic h =>
    cases h with
    | sum hi ho | sumByte hi b => exact absurd hi (hne _ (by decide))
    | compare hi ho | compareByte hi b => exact absurd hi (hne _ (by decide))
    | _ => simp [Kind.transfers] at hk
  | extended h =>
    cases h with
    | shift hi ho b | changeBit hi hn ho b => exact absurd hi (hne _ (by decide))
    | testBit hn ho b => simp [Kind.transfers] at hk

/-- An instruction carried out in one go leaves the program counter where it leads to. -/
lemma Form.leadsTo {a : Aftermath M} (h : Form i bytes) (ha : i.carryOut r m = .ok a) :
    i.LeadsTo r m r.pc a.registers.pc := by
  -- without a transfer the footprint says it; otherwise the form decides where control goes
  by_cases hk : i.kind ∈ Kind.transfers
  · obtain ⟨o, m', ho, -, hconclude⟩ := carryOut_eq_ok ha
    obtain ⟨-, -, ime, halted, hregisters⟩ := conclude_keeps hconclude
    rw [hregisters]
    rcases h.transfers hk with h | h
    · exact h.leadsTo ho
    · exact h.leadsTo hk ho
  · exact .of_onward hk ((covers_of_carryOut ha).control (footprint_control hk))

end Instruction

namespace Machine

variable {s s' : Machine M} {n : Nat}

/-- **A program reads the bytes that its instruction was decoded from, and control goes where the
instruction says.**  When a processor that fetches steps and no access to memory fails, its program
reads the operand bytes of the instruction that was decoded, which are then in the latches as the
payload of the operands.  `STOP` reads nothing, and an opcode without a meaning has itself as
operand.  The program counter ends behind the instruction or where the instruction leads to. -/
theorem step_reads_operands (h : s.Fetches) (hstep : s.step = (.ok n, s')) :
    ∃ i bytes, s.cpu.fetched s.memory = .ok i ∧ i.encode = some bytes ∧
      i.size = some bytes.length ∧
      s.ReadsOperands i (i.operandBytes bytes.tail) ∧
      (i.kind ≠ .stop → i.kind ≠ .invalid → ∀ o ∈ i.operands,
        o.Latched (.behind s.operandRegisters (i.operandBytes bytes.tail))) ∧
      i.LeadsTo s.cpu.registers s.memory (s.cpu.nextAddress bytes.length)
        s'.cpu.registers.pc := by
  obtain ⟨i, b, bytes, hfetched, hencode, hform, hbytes, htick, -, hcarry⟩ :=
    step_of_fetches h hstep
  have hheld : Memory.Holds s.memory s.cpu.operandStart (i.operandBytes bytes) := by
    unfold Instruction.operandBytes
    split
    · exact Memory.holds_nil _ _
    · exact hbytes
  have hlead := hform.leadsTo hcarry
  refine ⟨i, b :: bytes, hfetched, hencode, ?_, ?_, ?_, ?_⟩
  · rw [Instruction.size, hencode, Option.map_some]
  · exact readsOperands_of_readsFirst htick hform.readsFirst hheld
  · -- only the padding of `STOP` is not among the bytes that a program reads
    intro hstop hvalid
    rw [Instruction.operandBytes, if_neg hstop]
    exact hform.latched hstop hvalid
  · exact ⟨hlead.onward, hlead.branch, hlead.jumpHl, hlead.back⟩

/-- A machine that is about to carry out `JR NZ` after a failed `HALT`, so that the opcode is its
own offset. -/
def repeating : Machine MemoryMap where
  cpu := { registers := { pc := 0xC000 }, haltBug := true }
  memory :=
    ⟨[.backed (.ram (.ofBytes "program" 0xC000 ⟨#[0x20, 0x05]⟩ .readWrite)),
      .backed (.ram (.ofBytes "if" 0xFF0F ⟨#[0x00]⟩ .readWrite)),
      .backed (.ram (.ofBytes "ie" 0xFFFF ⟨#[0x00]⟩ .readWrite))], {}⟩

lemma repeating_step : repeating.step = (.ok 4, repeating.step.2) := by
  refine Prod.ext ?_ rfl
  decide +kernel

/-- The jump counts from behind the one byte that it has. -/
theorem repeating_step_reads_operands :
    repeating.Fetches ∧ repeating.step = (.ok 4, repeating.step.2) ∧
      (∃ i bytes, repeating.cpu.fetched repeating.memory = .ok i ∧ i.encode = some bytes ∧
        repeating.ReadsOperands i (i.operandBytes bytes.tail) ∧
        i.LeadsTo repeating.cpu.registers repeating.memory (repeating.cpu.nextAddress bytes.length)
          repeating.step.2.cpu.registers.pc) ∧
      repeating.cpu.fetched repeating.memory = .ok ⟨.jr, some (.cond .nz), some (.rel8 0x20)⟩ ∧
      repeating.cpu.nextAddress 2 = 0xC001 ∧ repeating.step.2.cpu.registers.pc = 0xC021 := by
  have hfetches : repeating.Fetches := ⟨rfl, rfl, rfl, nofun⟩
  obtain ⟨i, bytes, hfetched, hencode, -, hreads, -, hlead⟩ :=
    step_reads_operands hfetches repeating_step
  refine ⟨hfetches, repeating_step, ⟨i, bytes, hfetched, hencode, hreads, hlead⟩, ?_, ?_, ?_⟩
  all_goals decide +kernel

end Machine

end Handheld
