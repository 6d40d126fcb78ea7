/-
# Operand bytes

The bytes of an instruction are read twice: the decoder reads them when the instruction is fetched,
and the program reads those behind the opcode again on its way.  Every form of instruction has a
program that reads its operand bytes first (`Form.readsFirst`), so a machine that has fetched the
instruction reads them in the next cycles (`Machine.readsOperands_of_readsFirst`).
-/
import Handheld.Proofs.Processor.Fetch
import Handheld.Proofs.Processor.Refinement

namespace Handheld

variable {M : Type} [Memory M]

/-! ## The reads of a program -/

/-- Whether a micro-operation reads a byte behind the opcode. -/
def MicroOp.readsOperand : MicroOp → Bool
  | secondOpcode | immLow | immHigh => true
  | _ => false

/-- The micro-operations of a program that read the bytes behind the opcode. -/
def Program.operandReads (p : Program) : List MicroOp :=
  p.ops.filter MicroOp.readsOperand

/-- Micro-operations that read operand bytes, with these bytes. -/
inductive OperandReads : List MicroOp → List UInt8 → Prop
  | nothing : OperandReads [] []
  | second (b : UInt8) : OperandReads [.secondOpcode] [b]
  | byte (b : UInt8) : OperandReads [.immLow] [b]
  | word (lo hi : UInt8) : OperandReads [.immLow, .immHigh] [lo, hi]

/-- The registers behind some bytes, with the bytes in the latches. -/
def Datapath.behind (r : Registers) (bytes : List UInt8) : Datapath :=
  ⟨r.skip bytes, bytes.getD 0 0, bytes.getD 1 0⟩

lemma MicroOp.issue_of_readsOperand {op : MicroOp} (h : op.readsOperand = true) (d : Datapath) :
    op.issue d = (d, .read d.registers.pc) := by
  cases op with
  | secondOpcode | immLow | immHigh => rfl
  | _ => cases h

/-- A read that works latches what it finds. -/
lemma MicroOp.perform_of_read {op : MicroOp} {d : Datapath} {m : M} {a : Address} {v : UInt8}
    (hissue : op.issue d = (d, .read a)) (h : Memory.read m a = .ok v) :
    op.perform d m = (.ok (), op.latch d v, m) := by
  rw [perform, hissue]
  dsimp only
  rw [h]

namespace OperandReads

variable {reads : List MicroOp} {bytes : List UInt8}

lemma length_eq (h : OperandReads reads bytes) : reads.length = bytes.length := by
  cases h <;> rfl

lemma length_le_two (h : OperandReads reads bytes) : bytes.length ≤ 2 := by
  cases h <;> simp

/-- The reads latch the bytes one after the other. -/
lemma latch_behind {op : MicroOp} {b : UInt8} {j : Nat} (h : OperandReads reads bytes)
    (r : Registers) (hop : reads[j]? = some op) (hb : bytes[j]? = some b) :
    op.latch (.behind r (bytes.take j)) b = .behind r (bytes.take (j + 1)) := by
  cases h with
  | nothing => cases hop
  | second c | byte c =>
    cases j with
    | zero =>
      obtain rfl := Option.some.inj hop
      obtain rfl := Option.some.inj hb
      simp [MicroOp.latch, Datapath.advance, Datapath.behind, Registers.skip]
    | succ j => cases hop
  | word lo hi =>
    rcases j with _ | _ | j
    · obtain rfl := Option.some.inj hop
      obtain rfl := Option.some.inj hb
      simp [MicroOp.latch, Datapath.advance, Datapath.behind, Registers.skip]
    · obtain rfl := Option.some.inj hop
      obtain rfl := Option.some.inj hb
      simp [MicroOp.latch, Datapath.advance, Datapath.behind, Registers.skip,
        Routine.add_one_add_one]
    · cases hop

/-- A read asks for the byte behind those already read, and latches it. -/
lemma exists_read {r : Registers} {m : M} {j : Nat} (h : OperandReads reads bytes)
    (hreads : ∀ op ∈ reads, op.readsOperand = true)
    (hm : Memory.Holds m r.pc bytes) (hj : j < bytes.length) :
    ∃ op, reads[j]? = some op ∧
      op.issue (.behind r (bytes.take j)) =
        (.behind r (bytes.take j), .read (r.pc + UInt16.ofNat j)) ∧
      op.perform (.behind r (bytes.take j)) m =
        (.ok (), .behind r (bytes.take (j + 1)), m) := by
  have hlt : j < reads.length := by
    rw [h.length_eq]
    exact hj
  have hop : reads[j]? = some reads[j] := List.getElem?_eq_getElem hlt
  have hpc : (Datapath.behind r (bytes.take j)).registers.pc = r.pc + UInt16.ofNat j := by
    simp [Datapath.behind, Registers.skip, Nat.min_eq_left (Nat.le_of_lt hj)]
  have hissue := MicroOp.issue_of_readsOperand (hreads _ (List.getElem_mem hlt))
    (.behind r (bytes.take j))
  rw [hpc] at hissue
  refine ⟨reads[j], hop, hissue, ?_⟩
  rw [MicroOp.perform_of_read hissue (hm j hj)]
  rw [h.latch_behind r hop (List.getElem?_eq_getElem hj)]

end OperandReads

/-- Whether a program reads some operand bytes right behind the opcode and nowhere else, before its
effect takes hold and before its condition counts. -/
structure Program.ReadsFirst (p : Program) (bytes : List UInt8) : Prop where
  reads : OperandReads p.operandReads bytes
  ops : p.ops = .opcode :: (p.operandReads ++ p.ops.drop (bytes.length + 1))
  effectAt : p.effectAt.all (bytes.length ≤ ·) = true
  branch : p.branch.all (bytes.length ≤ ·.1) = true

namespace Program

variable {p : Program} {bytes : List UInt8} {k : Nat}

/-- Behind the operand bytes there are no further reads of any. -/
lemma ReadsFirst.readsOperand_drop (h : p.ReadsFirst bytes) {op : MicroOp}
    (hop : op ∈ p.ops.drop (bytes.length + 1)) : op.readsOperand = false := by
  have hreads : p.operandReads.filter MicroOp.readsOperand = p.operandReads :=
    List.filter_eq_self.mpr fun op hop => (List.mem_filter.mp hop).2
  have hfilter : p.operandReads =
      p.operandReads ++ (p.ops.drop (bytes.length + 1)).filter MicroOp.readsOperand := by
    have hops := congrArg (List.filter MicroOp.readsOperand) h.ops
    rwa [List.filter_cons_of_neg Bool.false_ne_true, List.filter_append, hreads] at hops
  have hnil := List.self_eq_append_right.mp hfilter
  exact Bool.eq_false_iff.mpr (List.filter_eq_nil_iff.mp hnil op hop)

/-- An operand byte is read by one of the micro-operations right behind that of the opcode. -/
lemma ReadsFirst.exists_of_readsOperand (h : p.ReadsFirst bytes)
    (hread : (p.ops.getD k .internal).readsOperand = true) : ∃ j < bytes.length, k = j + 1 := by
  rw [List.getD_eq_getElem?_getD] at hread
  cases hop : p.ops[k]? with
  | none =>
    rw [hop] at hread
    cases hread
  | some op =>
    rw [hop, Option.getD_some] at hread
    rw [h.ops] at hop
    cases k with
    | zero =>
      obtain rfl := Option.some.inj hop
      cases hread
    | succ j =>
      refine ⟨j, ?_, rfl⟩
      by_contra hge
      rw [List.getElem?_cons_succ,
        List.getElem?_append_right (by rw [h.reads.length_eq]; omega)] at hop
      have hnot := h.readsOperand_drop (List.mem_of_getElem? hop)
      rw [hread] at hnot
      cases hnot

end Program

/-! ## The reads of an instruction -/

/-- Whether the latches hold the payload of an operand, if it has one. -/
def Operand.Latched (d : Datapath) : Operand → Prop
  | imm8 b | rel8 b | highOffset b | spRel b => d.z = b
  | imm16 w | direct w => d.wz = w
  | _ => True

namespace Instruction

/-- Of the bytes behind the first, those that a program reads: `STOP` skips its padding. -/
def operandBytes (i : Instruction) (bytes : List UInt8) : List UInt8 :=
  if i.kind = .stop then [] else bytes

variable {i : Instruction} {bytes : List UInt8} {r : Registers} {m : M}

lemma PlainForm.readsFirst (h : PlainForm i bytes) :
    (Program.ofInstruction i).ReadsFirst (i.operandBytes bytes) := by
  cases h with
  | plain hk =>
    simp only [Kind.plain, List.mem_cons, List.not_mem_nil, or_false] at hk
    rcases hk with rfl | rfl | rfl | rfl | rfl | rfl | rfl | rfl | rfl | rfl | rfl | rfl
    all_goals exact ⟨.nothing, rfl, rfl, rfl⟩
  | invalid b => exact ⟨.nothing, rfl, rfl, rfl⟩
  | stop b => exact ⟨.nothing, rfl, rfl, rfl⟩

lemma LoadForm.readsFirst (h : LoadForm i bytes) :
    (Program.ofInstruction i).ReadsFirst (i.operandBytes bytes) := by
  cases h with
  | reg x y | fetch h | put h | fetchHighC | putHighC | stack =>
    exact ⟨.nothing, rfl, rfl, rfl⟩
  | byte x b | hlByte b | fetchHigh b | putHigh b | offset b => exact ⟨.byte b, rfl, rfl, rfl⟩
  | fetchDirect lo hi | putDirect lo hi | word hp lo hi | putStack lo hi =>
    exact ⟨.word lo hi, rfl, rfl, rfl⟩

lemma ArithmeticForm.readsFirst (h : ArithmeticForm i bytes) :
    (Program.ofInstruction i).ReadsFirst (i.operandBytes bytes) := by
  cases h with
  | inc ho | dec ho =>
    cases ho
    all_goals exact ⟨.nothing, rfl, rfl, rfl⟩
  | incPair hp | decPair hp | addPair hp => exact ⟨.nothing, rfl, rfl, rfl⟩
  | addOffset e => exact ⟨.byte e, rfl, rfl, rfl⟩
  | sum hk ho =>
    simp only [Kind.sums, List.mem_cons, List.not_mem_nil, or_false] at hk
    cases ho
    all_goals
      rcases hk with rfl | rfl | rfl
      all_goals exact ⟨.nothing, rfl, rfl, rfl⟩
  | sumByte hk b =>
    simp only [Kind.sums, List.mem_cons, List.not_mem_nil, or_false] at hk
    rcases hk with rfl | rfl | rfl
    all_goals exact ⟨.byte b, rfl, rfl, rfl⟩
  | compare hk ho =>
    simp only [Kind.comparisons, List.mem_cons, List.not_mem_nil, or_false] at hk
    cases ho
    all_goals
      rcases hk with rfl | rfl | rfl | rfl | rfl
      all_goals exact ⟨.nothing, rfl, rfl, rfl⟩
  | compareByte hk b =>
    simp only [Kind.comparisons, List.mem_cons, List.not_mem_nil, or_false] at hk
    rcases hk with rfl | rfl | rfl | rfl | rfl
    all_goals exact ⟨.byte b, rfl, rfl, rfl⟩

lemma JumpForm.readsFirst (h : JumpForm i bytes) :
    (Program.ofInstruction i).ReadsFirst (i.operandBytes bytes) := by
  cases h with
  | jr e | jrIf cc e => exact ⟨.byte e, rfl, rfl, rfl⟩
  | jp lo hi | jpIf cc lo hi => exact ⟨.word lo hi, rfl, rfl, rfl⟩
  | jpHl => exact ⟨.nothing, rfl, rfl, rfl⟩

lemma StackForm.readsFirst (h : StackForm i bytes) :
    (Program.ofInstruction i).ReadsFirst (i.operandBytes bytes) := by
  cases h with
  | call lo hi | callIf cc lo hi => exact ⟨.word lo hi, rfl, rfl, rfl⟩
  | ret | retIf cc | reti | rst v | push hp | pop hp => exact ⟨.nothing, rfl, rfl, rfl⟩

lemma ExtendedForm.readsFirst (h : ExtendedForm i bytes) :
    (Program.ofInstruction i).ReadsFirst (i.operandBytes bytes) := by
  cases h with
  | shift hk ho b =>
    simp only [Kind.shifts, List.mem_cons, List.not_mem_nil, or_false] at hk
    cases ho
    all_goals
      rcases hk with rfl | rfl | rfl | rfl | rfl | rfl | rfl | rfl
      all_goals exact ⟨.second b, rfl, rfl, rfl⟩
  | testBit hn ho b =>
    cases ho
    all_goals exact ⟨.second b, rfl, rfl, rfl⟩
  | changeBit hk hn ho b =>
    simp only [Kind.bitChanges, List.mem_cons, List.not_mem_nil, or_false] at hk
    cases ho
    all_goals
      rcases hk with rfl | rfl
      all_goals exact ⟨.second b, rfl, rfl, rfl⟩

lemma Form.readsFirst (h : Form i bytes) :
    (Program.ofInstruction i).ReadsFirst (i.operandBytes bytes) := by
  cases h with
  | plain h => exact h.readsFirst
  | load h => exact h.readsFirst
  | arithmetic h => exact h.readsFirst
  | jump h => exact h.readsFirst
  | stack h => exact h.readsFirst
  | extended h => exact h.readsFirst

lemma holds_operandBytes {a : Address} (i : Instruction) (h : Memory.Holds m a bytes) :
    Memory.Holds m a (i.operandBytes bytes) := by
  unfold operandBytes
  split
  · exact Memory.holds_nil m a
  · exact h

/-- The operand bytes in the latches are the payload of the operands. -/
lemma Form.latched (h : Form i bytes) (hstop : i.kind ≠ .stop) (hvalid : i.kind ≠ .invalid) :
    ∀ o ∈ i.operands, o.Latched (.behind r bytes) := by
  cases h with
  | plain h => cases h <;> simp_all [operands]
  | load h => cases h <;> simp [operands, Operand.Latched, Datapath.behind, Datapath.wz]
  | arithmetic h =>
    cases h with
    | inc ho | dec ho | sum hk ho | compare hk ho =>
      cases ho <;> simp [operands, Operand.Latched]
    | _ => simp [operands, Operand.Latched, Datapath.behind]
  | jump h => cases h <;> simp [operands, Operand.Latched, Datapath.behind, Datapath.wz]
  | stack h => cases h <;> simp [operands, Operand.Latched, Datapath.behind, Datapath.wz]
  | extended h =>
    cases h with
    | shift hk ho b | testBit hn ho b | changeBit hk hn ho b =>
      cases ho <;> simp [operands, Operand.Latched]

end Instruction

/-! ## Reads in flight -/

namespace Machine

variable {s s' : Machine M} {i : Instruction} {b : UInt8} {bytes : List UInt8}

/-- The machine before micro-operation `k` of an instruction that it has fetched. -/
def inFlight (s : Machine M) (i : Instruction) (b : UInt8) (k : Nat) (d : Datapath) : Machine M :=
  ⟨{ s.cpu.launch i b with
      registers := d.registers, cycles := s.cpu.cycles + 1 + k,
      phase := .executing { s.cpu.flight i b with z := d.z, w := d.w, cursor := k } }, s.memory⟩

/-- The registers when the first operand byte is about to be read. -/
def operandRegisters (s : Machine M) : Registers :=
  { s.cpu.registers with pc := s.cpu.operandStart }

lemma tick_inFlight {k : Nat} {d d' : Datapath} {op : MicroOp} {ops : List MicroOp}
    (hops : (Program.ofInstruction i).ops.drop k = op :: ops) (hne : ops ≠ [])
    (h : op.perform d s.memory = (.ok (), d', s.memory))
    (heffect : (Program.ofInstruction i).effectAt ≠ some k)
    (htakes : (Program.ofInstruction i).takes k d'.registers.flags = true) :
    (s.inFlight i b k d).tick = (.ok false, s.inFlight i b (k + 1) d') :=
  tick_of_waits (x := { s.cpu.flight i b with z := d.z, w := d.w, cursor := k }) rfl hops hne h
    heffect htakes

/-- Before the last operand byte is read, the program neither takes effect nor ends. -/
lemma waits_of_readsFirst {p : Program} {k : Nat} (h : p.ReadsFirst bytes) (hk : k < bytes.length)
    (f : Flags) : p.effectAt ≠ some k ∧ p.takes k f = true := by
  constructor
  · intro heffect
    have hle := h.effectAt
    rw [heffect] at hle
    have := of_decide_eq_true hle
    omega
  · -- a condition counts after the last operand byte at the earliest
    unfold Program.takes
    have hle := h.branch
    cases hbranch : p.branch with
    | none => rfl
    | some branch =>
      obtain ⟨at_, condition⟩ := branch
      rw [hbranch] at hle
      have := of_decide_eq_true hle
      have hne : at_ ≠ k := by
        intro heq
        dsimp only at this
        omega
      simp [hne]

lemma drop_of_readsFirst {p : Program} {j : Nat} {op : MicroOp} (h : p.ReadsFirst bytes)
    (hop : p.operandReads[j]? = some op) :
    p.ops.drop (j + 1) =
      op :: (p.operandReads.drop (j + 1) ++ p.ops.drop (bytes.length + 1)) := by
  obtain ⟨hlt, rfl⟩ := List.getElem?_eq_some_iff.mp hop
  have hops := congrArg (List.drop (j + 1)) h.ops
  rw [List.drop_succ_cons, List.drop_append_of_le_length (Nat.le_of_lt hlt),
    List.drop_eq_getElem_cons hlt, List.cons_append] at hops
  exact hops

/-- The machine before it reads operand byte `j`. -/
lemma runs_inFlight (htick : s.tick = (.ok false, ⟨s.cpu.launch i b, s.memory⟩))
    (hfirst : (Program.ofInstruction i).ReadsFirst bytes)
    (hm : Memory.Holds s.memory s.cpu.operandStart bytes) {j : Nat} (hj : j < bytes.length) :
    Runs (j + 2) s (s.inFlight i b (j + 1) (.behind s.operandRegisters (bytes.take j))) := by
  have hlen := hfirst.reads.length_eq
  -- each read finds the registers and latches as the one before has left them
  induction j with
  | zero =>
    -- two ticks: the fetch, and the micro-operation of the opcode, which does nothing
    refine .succ (.succ (.zero s) htick) ?_
    have hstart : (⟨s.cpu.launch i b, s.memory⟩ : Machine M) =
        s.inFlight i b 0 (.behind s.operandRegisters []) := by
      simp [inFlight, Cpu.launch, Cpu.flight, Datapath.behind, operandRegisters, Cpu.note]
    have hne : (Program.ofInstruction i).operandReads ++
        (Program.ofInstruction i).ops.drop (bytes.length + 1) ≠ [] := by
      intro hnil
      have hzero := congrArg List.length hnil
      rw [List.length_append, List.length_nil] at hzero
      omega
    obtain ⟨heffect, htakes⟩ := waits_of_readsFirst hfirst hj
      (Datapath.behind s.operandRegisters []).registers.flags
    rw [hstart]
    exact tick_inFlight hfirst.ops hne rfl heffect htakes
  | succ j ih =>
    have hj' : j < bytes.length := Nat.lt_of_succ_lt hj
    obtain ⟨op, hop, -, hperform⟩ := hfirst.reads.exists_read
      (fun op hop => (List.mem_filter.mp hop).2) (r := s.operandRegisters) hm hj'
    have hne : (Program.ofInstruction i).operandReads.drop (j + 1) ++
        (Program.ofInstruction i).ops.drop (bytes.length + 1) ≠ [] := by
      intro hnil
      have hzero := congrArg List.length hnil
      rw [List.length_append, List.length_drop, List.length_nil] at hzero
      omega
    obtain ⟨heffect, htakes⟩ := waits_of_readsFirst hfirst hj
      (Datapath.behind s.operandRegisters (bytes.take (j + 1))).registers.flags
    exact .succ (ih hj')
      (tick_inFlight (drop_of_readsFirst hfirst hop) hne hperform heffect htakes)

/-- An operand byte is read at its place behind the opcode. -/
lemma pc_of_readsOperand (htick : s.tick = (.ok false, ⟨s.cpu.launch i b, s.memory⟩))
    (hfirst : (Program.ofInstruction i).ReadsFirst bytes)
    (hm : Memory.Holds s.memory s.cpu.operandStart bytes) {k : Nat} {x : Flight}
    (h : Runs k ⟨s.cpu.launch i b, s.memory⟩ s') (hs' : s'.cpu.phase = .executing x)
    (hread : x.op.readsOperand = true) :
    ∃ j < bytes.length, s'.cpu.registers.pc = s.cpu.operandStart + UInt16.ofNat j := by
  obtain ⟨y, hy, hroutine, hcursor⟩ := exists_flight_of_runs (x := s.cpu.flight i b) rfl h
  obtain rfl := Phase.executing.inj (hs'.symm.trans hy)
  have hprogram : x.program = Program.ofInstruction i := congrArg Routine.program hroutine
  rw [Flight.op, hprogram] at hread
  obtain ⟨j, hj, hk⟩ := hfirst.exists_of_readsOperand hread
  have hcursor : k = j + 1 := by
    rw [← hk, hcursor]
    exact (Nat.zero_add k).symm
  subst hcursor
  refine ⟨j, hj, ?_⟩
  rw [(runs_inFlight htick hfirst hm hj).unique (.cons htick h)]
  simp [inFlight, Datapath.behind, Registers.skip, operandRegisters,
    Nat.min_eq_left (Nat.le_of_lt hj)]

/-- Whether a machine reads these operand bytes after it has fetched an instruction: each with a
micro-operation of its own, in the cycles right behind that of the opcode.  The bytes read so far
are in the latches. -/
structure ReadsOperands (s : Machine M) (i : Instruction) (bytes : List UInt8) : Prop where
  /-- There are no other reads of operand bytes in the program. -/
  count : (Program.ofInstruction i).operandReads.length = bytes.length
  held : Memory.Holds s.memory s.cpu.operandStart bytes
  read : ∀ j < bytes.length, ∃ t x op, Runs (j + 2) s t ∧ t.memory = s.memory ∧
    t.cpu.phase = .executing x ∧ x.routine = .instruction i ∧
    x.program.ops[x.cursor]? = some op ∧ op.readsOperand = true ∧
    ∃ d, d = ⟨t.cpu.registers, x.z, x.w⟩ ∧ d = .behind s.operandRegisters (bytes.take j) ∧
      op.issue d = (d, .read (s.cpu.operandStart + UInt16.ofNat j)) ∧
      op.perform d t.memory =
        (.ok (), .behind s.operandRegisters (bytes.take (j + 1)), t.memory)

lemma readsOperands_of_readsFirst (htick : s.tick = (.ok false, ⟨s.cpu.launch i b, s.memory⟩))
    (hfirst : (Program.ofInstruction i).ReadsFirst bytes)
    (hm : Memory.Holds s.memory s.cpu.operandStart bytes) : s.ReadsOperands i bytes := by
  refine ⟨hfirst.reads.length_eq, hm, ?_⟩
  intro j hj
  have hruns := runs_inFlight htick hfirst hm hj
  have hread (op : MicroOp) (hop : op ∈ (Program.ofInstruction i).operandReads) :
      op.readsOperand = true :=
    (List.mem_filter.mp hop).2
  obtain ⟨op, hop, hissue, hperform⟩ :=
    hfirst.reads.exists_read hread (r := s.operandRegisters) hm hj
  have hcursor : (Program.ofInstruction i).ops[j + 1]? = some op := by
    rw [← List.head?_drop, drop_of_readsFirst hfirst hop]
    rfl
  exact ⟨_, _, op, hruns, rfl, rfl, rfl, hcursor, hread op (List.mem_of_getElem? hop), _, rfl, rfl,
    hissue, hperform⟩

end Machine

end Handheld
