/-
# The accesses of a machine cycle

A cycle may poll the interrupts, take a request back, read the bytes of an instruction or carry out
a micro-operation.  `Machine.Asks` says which accesses to memory these are, each of them made if
those before it work.  `Machine.Breaks` lists the ways in which a cycle fails, each with the fault
and the memory that are left; there is no other (`Machine.breaks_iff`).  Each is the failure of an
access that is made (`Machine.Breaks.exists_asks`), and every failure of such an access is one of
them (`Machine.Asks.exists_breaks`).
-/
import Handheld.Proofs.Console.Requests
import Handheld.Proofs.Instruction.MachineCode
import Handheld.Proofs.Processor.Cost

namespace Handheld

variable {M : Type} [Memory M] {m m' : M} {e : MemoryError}

/-! ## Failing accesses -/

/-- Whether a bus cycle fails with an error. -/
def BusCycle.Fails (m : M) (e : MemoryError) : BusCycle → Prop
  | idle => False
  | read a => Memory.read m a = .error e
  | write a v => (Memory.write m a v).1 = .error e

/-- Whether the memory is as before after any write that fails. -/
def Memory.KeptByFailures (m : M) : Prop :=
  ∀ a v e m', Memory.write m a v = (.error e, m') → m' = m

lemma Interrupt.poll_eq_error_iff :
    poll m = .error e ↔ Memory.read m requestAddress = .error e ∨
      ∃ f, Memory.read m requestAddress = .ok f ∧ Memory.read m enableAddress = .error e := by
  rw [poll, bind_eq_error]
  refine or_congr_right (exists_congr fun f => and_congr_right fun _ => ?_)
  cases Memory.read m enableAddress with
  | error e' => simp
  | ok enabled => simp [pure, Except.pure]

lemma Interrupt.acknowledge_eq_error_iff {i : Interrupt} :
    (i.acknowledge m).1 = .error e ↔ Memory.read m requestAddress = .error e ∨
      ∃ f, Memory.read m requestAddress = .ok f ∧
        (Memory.write m requestAddress (f &&& ~~~i.mask)).1 = .error e := by
  unfold acknowledge
  cases Memory.read m requestAddress with
  | error e' => simp
  | ok f => simp

/-- A micro-operation fails with the bus cycle that it asks for. -/
lemma MicroOp.fails_iff {op : MicroOp} {d : Datapath} :
    (op.issue d).2.Fails m e ↔ (op.perform d m).1 = .error e := by
  unfold perform
  rcases op.issue d with ⟨d', _ | a | ⟨a, v⟩⟩
  · simp [BusCycle.Fails]
  · dsimp only [BusCycle.Fails]
    cases Memory.read m a with
    | error e' => simp
    | ok v => simp
  · rfl

section Kept

variable (hkept : Memory.KeptByFailures m)
include hkept

lemma Memory.write_of_error {a : Address} {v : UInt8} (h : (write m a v).1 = .error e) :
    (write m a v).2 = m :=
  hkept a v e _ (Prod.ext h rfl)

lemma Interrupt.acknowledge_of_error {i : Interrupt} (h : (i.acknowledge m).1 = .error e) :
    (i.acknowledge m).2 = m := by
  unfold acknowledge at h ⊢
  cases hread : Memory.read m requestAddress with
  | error e' => rfl
  | ok f =>
    rw [hread] at h
    exact Memory.write_of_error hkept h

lemma MicroOp.perform_of_error {op : MicroOp} {d : Datapath} (h : (op.perform d m).1 = .error e) :
    (op.perform d m).2.2 = m := by
  rw [Machine.perform_memory]
  have hfails := MicroOp.fails_iff.mpr h
  rcases hissue : (op.issue d).2 with _ | a | ⟨a, v⟩
  · rfl
  · rfl
  · rw [hissue] at hfails
    exact Memory.write_of_error hkept hfails

end Kept

/-! ## Instructions that cannot be read to their end -/

/-- A list holds what is read of it. -/
lemma Stream.Holds.of_ofList {ε : Type} {fetch : Nat → Except ε UInt8} {bytes code : List UInt8}
    (hbytes : Holds fetch 0 bytes) (hcode : Holds (ofList bytes) 0 code) :
    Holds fetch 0 code ∧ code.length ≤ bytes.length := by
  have hget (k : Nat) (hk : k < code.length) : bytes[k]? = some code[k] := by
    have hread := hcode k hk
    rw [Nat.zero_add, ofList] at hread
    split at hread
    · rename_i b hb
      rw [hb, Except.ok.inj hread]
    · cases hread
  constructor
  · intro k hk
    obtain ⟨hlt, hb⟩ := List.getElem?_eq_some_iff.mp (hget k hk)
    rw [hbytes k hlt, hb]
  · by_contra hlt
    have hnone := hget bytes.length (Nat.lt_of_not_le hlt)
    rw [List.getElem?_eq_none (Nat.le_refl _)] at hnone
    cases hnone

namespace Instruction

/-- Whether bytes are not all the bytes of an instruction, and none begins with them that is. -/
def Incomplete (bytes : List UInt8) : Prop :=
  decodeStream (Stream.ofList bytes) = .error ()

/-- Decoding fails where an instruction is not complete and its next byte cannot be read. -/
lemma decodeStream_eq_error_iff {ε : Type} {fetch : Nat → Except ε UInt8} {e : ε} :
    decodeStream fetch = .error e ↔
      ∃ bytes, Stream.Holds fetch 0 bytes ∧ Incomplete bytes ∧ fetch bytes.length = .error e := by
  constructor
  · intro h
    obtain ⟨bytes, -, hbytes, herror⟩ := exists_error_of_decodeStream h
    refine ⟨bytes, hbytes, ?_, herror⟩
    cases hdecode : decodeStream (Stream.ofList bytes) with
    | error u => exact hdecode
    | ok result =>
      obtain ⟨op, hop, operands, hlen, hcode, hi, hn⟩ := decodeStream_eq_ok_iff.mp hdecode
      have hok := decodeStream_eq_ok_iff.mpr
        ⟨op, hop, operands, hlen, (hbytes.of_ofList hcode).1, hi, hn⟩
      cases h.symm.trans hok
  · rintro ⟨bytes, hbytes, hincomplete, herror⟩
    -- where the stream breaks off says how many bytes there are
    have hunique {code : List UInt8} (hcode : Stream.Holds fetch 0 code) :
        code.length ≤ bytes.length := by
      by_contra hlt
      have hread := hcode bytes.length (Nat.lt_of_not_le hlt)
      rw [Nat.zero_add, herror] at hread
      cases hread
    cases hdecode : decodeStream fetch with
    | error e' =>
      obtain ⟨bytes', -, hbytes', herror'⟩ := exists_error_of_decodeStream hdecode
      have hlength : bytes'.length = bytes.length := by
        refine Nat.le_antisymm (hunique hbytes') (Nat.le_of_not_lt fun hlt => ?_)
        have hread := hbytes bytes'.length hlt
        rw [Nat.zero_add, herror'] at hread
        cases hread
      rw [hlength] at herror'
      rw [Except.error.inj (herror'.symm.trans herror)]
    | ok result =>
      obtain ⟨op, hop, operands, hlen, hcode, hi, hn⟩ := decodeStream_eq_ok_iff.mp hdecode
      have hlist : Stream.Holds (Stream.ofList bytes) 0 (op.bytes ++ operands) := by
        intro k hk
        have hlt := Nat.lt_of_lt_of_le hk (hunique hcode)
        rw [Stream.holds_ofList bytes k hlt]
        exact congrArg _ (Except.ok.inj ((hbytes k hlt).symm.trans (hcode k hk)))
      have hok := decodeStream_eq_ok_iff.mpr ⟨op, hop, operands, hlen, hlist, hi, hn⟩
      cases hincomplete.symm.trans hok

end Instruction

namespace Cpu

/-- The address from which the processor reads a byte of an instruction, by its number. -/
def byteAddress (cpu : Cpu) (k : Nat) : Address :=
  cpu.registers.pc + UInt16.ofNat (if cpu.haltBug then k - 1 else k)

variable {cpu : Cpu}

lemma fetched_eq_map (cpu : Cpu) (m : M) :
    cpu.fetched m = (Instruction.decodeStream (cpu.fetchStream m)).map Prod.fst := by
  unfold fetched fetchStream Instruction.decodeRepeating Instruction.decode
  cases cpu.haltBug with
  | true =>
    simp only [if_true]
    cases Instruction.decodeStream _ <;> rfl
  | false =>
    simp only [Bool.false_eq_true, if_false]
    cases Instruction.decodeStream _ <;> rfl

/-- No instruction is fetched where a byte of it cannot be read. -/
lemma fetched_eq_error_iff :
    cpu.fetched m = .error e ↔ ∃ bytes, Stream.Holds (cpu.fetchStream m) 0 bytes ∧
      Instruction.Incomplete bytes ∧ Memory.read m (cpu.byteAddress bytes.length) = .error e := by
  rw [fetched_eq_map]
  refine Iff.trans ?_ Instruction.decodeStream_eq_error_iff
  cases Instruction.decodeStream (cpu.fetchStream m) with
  | error e' => simp [Except.map]
  | ok result => simp [Except.map]

end Cpu

namespace Machine

variable {s t : Machine M} {f : Fault} {x : Flight} {i : Instruction} {cpu : Cpu}

/-! ## What a cycle asks of memory -/

/-- Whether the next cycle polls the interrupts: between two instructions, and at the end of
`HALT`. -/
def Polls (s : Machine M) : Prop :=
  s.cpu.phase = .fetching ∧ s.cpu.locked = false ∨
    ∃ x i, s.cpu.phase = .executing x ∧ x.routine = .instruction i ∧ i.kind = .halt

/-- The accesses of the next cycle, each of them made if those before it work. -/
inductive Asks (s : Machine M) : BusCycle → Prop
  | requested (h : s.Polls) : Asks s (.read Interrupt.requestAddress)
  | enabled {flags : UInt8} (h : s.Polls)
      (hflags : Memory.read s.memory Interrupt.requestAddress = .ok flags) :
      Asks s (.read Interrupt.enableAddress)
  /-- The request that is answered is taken back. -/
  | acknowledge {flags : UInt8} {i : Interrupt} (h : s.Attends)
      (hpoll : Interrupt.poll s.memory = .ok (some i))
      (hflags : Memory.read s.memory Interrupt.requestAddress = .ok flags) :
      Asks s (.write Interrupt.requestAddress (flags &&& ~~~i.mask))
  /-- The next byte of an instruction that is not complete. -/
  | instruction {pending : Option Interrupt} {bytes : List UInt8} (h : s.Begins)
      (hpoll : Interrupt.poll s.memory = .ok pending)
      (hbytes : Stream.Holds (s.cpu.fetchStream s.memory) 0 bytes)
      (hincomplete : Instruction.Incomplete bytes) :
      Asks s (.read (s.cpu.byteAddress bytes.length))
  | operation {x : Flight} (h : s.cpu.phase = .executing x) :
      Asks s (x.op.issue ⟨s.cpu.registers, x.z, x.w⟩).2

/-- The ways in which the next cycle fails, with the fault and the memory that are left. -/
inductive Breaks (s : Machine M) : Fault → M → Prop
  | poll {e : MemoryError} (hphase : s.cpu.phase = .fetching) (hlocked : s.cpu.locked = false)
      (hpoll : Interrupt.poll s.memory = .error e) :
      Breaks s ⟨s.cpu.registers.pc, none, e⟩ s.memory
  | acknowledge {e : MemoryError} {i : Interrupt} (h : s.Attends)
      (hpoll : Interrupt.poll s.memory = .ok (some i))
      (hacknowledge : (i.acknowledge s.memory).1 = .error e) :
      Breaks s ⟨s.cpu.registers.pc, none, e⟩ (i.acknowledge s.memory).2
  | fetch {e : MemoryError} {pending : Option Interrupt} (h : s.Begins)
      (hpoll : Interrupt.poll s.memory = .ok pending)
      (hfetched : s.cpu.fetched s.memory = .error e) :
      Breaks s
        ⟨s.cpu.registers.pc, (Memory.read s.memory s.cpu.registers.pc).toOption, e⟩ s.memory
  | operation {e : MemoryError} {x : Flight} (h : s.cpu.phase = .executing x)
      (hperform : (x.op.perform ⟨s.cpu.registers, x.z, x.w⟩ s.memory).1 = .error e) :
      Breaks s ⟨x.origin, x.opcode, e⟩ (x.op.perform ⟨s.cpu.registers, x.z, x.w⟩ s.memory).2.2
  | halt {e : MemoryError} {x : Flight} {i : Instruction} (h : s.cpu.phase = .executing x)
      (hx : x.routine = .instruction i) (hhalt : i.kind = .halt)
      (hpoll : Interrupt.poll s.memory = .error e) :
      Breaks s ⟨x.origin, x.opcode, e⟩ s.memory

/-! ## The cycles that fail -/

/-- Once the interrupts have been polled, the machine sleeps on, answers one or fetches. -/
lemma boundary_cases (hphase : s.cpu.phase = .fetching) (hlocked : s.cpu.locked = false)
    {pending : Option Interrupt} (hpoll : Interrupt.poll s.memory = .ok pending) :
    pending = none ∧ s.cpu.registers.halted = true ∨
      (∃ i, pending = some i ∧ s.Attends) ∨ s.Begins := by
  by_cases hasleep : pending = none ∧ s.cpu.registers.halted = true
  · exact .inl hasleep
  by_cases hanswers : pending.isSome ∧ s.cpu.registers.ime = .enabled
  · obtain ⟨i, rfl⟩ := Option.isSome_iff_exists.mp hanswers.1
    exact .inr (.inl ⟨i, rfl, hphase, hlocked, hanswers.2⟩)
  · refine .inr (.inr ⟨hphase, hlocked, fun hhalted hnone => ?_, fun henabled j hsome => ?_⟩)
    · exact hasleep ⟨Except.ok.inj (hpoll.symm.trans hnone), hhalted⟩
    · obtain rfl := Except.ok.inj (hpoll.symm.trans hsome)
      exact hanswers ⟨rfl, henabled⟩

lemma program_of_halt (hx : x.routine = .instruction i) (hhalt : i.kind = .halt) :
    x.program = .single := by
  rw [Flight.program, hx]
  change Program.ofInstruction i = .single
  rw [Program.ofInstruction, hhalt]

/-- The one micro-operation of `HALT` asks nothing of memory. -/
lemma perform_of_halt (hx : x.routine = .instruction i) (hhalt : i.kind = .halt) (d : Datapath)
    (m : M) : x.op.perform d m = (.ok (), d, m) := by
  rw [Flight.op, program_of_halt hx hhalt]
  rcases x.cursor with _ | k <;> rfl

lemma conclude_eq_error_iff {r : Registers} :
    i.conclude r m = .error e ↔ i.kind = .halt ∧ Interrupt.poll m = .error e := by
  constructor
  · intro h
    refine ⟨?_, Instruction.poll_of_conclude_error h⟩
    by_contra hhalt
    rw [Instruction.conclude, if_neg hhalt] at h
    cases h
  · rintro ⟨hhalt, hpoll⟩
    rw [Instruction.conclude, if_pos hhalt, hpoll]
    rfl

/-- Of the ends of instructions only that of `HALT` fails. -/
lemma finish_eq_error_iff :
    (finish cpu m x).1 = .error f ↔
      ∃ i e, x.routine = .instruction i ∧ i.kind = .halt ∧ Interrupt.poll m = .error e ∧
        f = ⟨x.origin, x.opcode, e⟩ := by
  cases hx : x.routine with
  | interrupt i =>
    rw [finish, hx]
    simp
  | instruction i =>
    rw [finish_eq_conclude cpu m hx]
    cases hconclude : i.conclude cpu.registers m with
    | ok a =>
      have hnot : ¬ ∃ e, i.conclude cpu.registers m = .error e := by simp [hconclude]
      simp only [conclude_eq_error_iff] at hnot
      simpa using fun hhalt e hpoll => absurd ⟨e, hhalt, hpoll⟩ hnot
    | error e =>
      obtain ⟨hhalt, hpoll⟩ := conclude_eq_error_iff.mp hconclude
      simp [hhalt, hpoll, eq_comm]

/-- A micro-operation fails with its access, and `HALT` with the poll at its end. -/
lemma execute_eq_error_iff :
    (execute cpu m x).1 = .error f ↔
      (∃ e, (x.op.perform ⟨cpu.registers, x.z, x.w⟩ m).1 = .error e ∧
        f = ⟨x.origin, x.opcode, e⟩) ∨
      ∃ i e, x.routine = .instruction i ∧ i.kind = .halt ∧ Interrupt.poll m = .error e ∧
        f = ⟨x.origin, x.opcode, e⟩ := by
  rw [execute_op]
  rcases hperform : x.op.perform ⟨cpu.registers, x.z, x.w⟩ m with ⟨e | u, d, m'⟩
  · constructor
    · intro h
      exact .inl ⟨e, rfl, (Except.error.inj h).symm⟩
    · rintro (⟨e', he, rfl⟩ | ⟨i, e', hx, hhalt, -⟩)
      · obtain rfl := Except.error.inj he
        rfl
      · rw [perform_of_halt hx hhalt] at hperform
        cases hperform
  · dsimp only
    rw [applyEffect_eq]
    dsimp only
    constructor
    · intro h
      split at h
      · cases h
      · obtain ⟨i, e, hx, hhalt, hpoll, rfl⟩ := finish_eq_error_iff.mp h
        have hroutine : x.routine = .instruction i := hx
        rw [perform_of_halt hroutine hhalt] at hperform
        obtain rfl : m = m' := congrArg (·.2.2) hperform
        exact .inr ⟨i, e, hroutine, hhalt, hpoll, rfl⟩
    · rintro (⟨e', he, -⟩ | ⟨i, e, hx, hhalt, hpoll, rfl⟩)
      · cases he
      · have hlast : ¬ x.cursor + 1 < x.program.ops.length := by
          rw [program_of_halt hx hhalt]
          exact Nat.not_lt_of_le (Nat.succ_le_succ (Nat.zero_le _))
        have hends (c : Cpu) (z w : UInt8) : ¬ goesOn c { x with z := z, w := w } = true :=
          fun hgo => hlast (of_decide_eq_true (Bool.and_eq_true_iff.mp hgo).2)
        rw [perform_of_halt hx hhalt] at hperform
        obtain rfl : m = m' := congrArg (·.2.2) hperform
        rw [if_neg (hends _ _ _)]
        exact finish_eq_error_iff.mpr ⟨i, e, hx, hhalt, hpoll, rfl⟩

lemma tick_of_poll_error (hphase : s.cpu.phase = .fetching) (hlocked : s.cpu.locked = false)
    (hpoll : Interrupt.poll s.memory = .error e) :
    s.tick = (.error ⟨s.cpu.registers.pc, none, e⟩,
      ⟨{ s.cpu with cycles := s.cpu.cycles + 1 }, s.memory⟩) := by
  obtain ⟨cpu, m⟩ := s
  dsimp only at hphase hlocked hpoll
  rw [tick_fetching hphase, fetch, if_neg (by simp [hlocked]), hpoll]

lemma tick_of_acknowledge_error {i : Interrupt} (h : s.Attends)
    (hpoll : Interrupt.poll s.memory = .ok (some i))
    (hacknowledge : (i.acknowledge s.memory).1 = .error e) :
    s.tick.1 = .error ⟨s.cpu.registers.pc, none, e⟩ ∧
      s.tick.2.memory = (i.acknowledge s.memory).2 := by
  obtain ⟨cpu, m⟩ := s
  obtain ⟨hphase, hlocked, hime⟩ := h
  dsimp only at hphase hlocked hime hpoll hacknowledge
  rw [tick_fetching hphase, fetch, if_neg (by simp [hlocked]), hpoll]
  dsimp only
  rw [if_pos hime, dispatch]
  rcases hack : i.acknowledge m with ⟨result, m'⟩
  rw [hack] at hacknowledge
  obtain rfl : result = .error e := hacknowledge
  exact ⟨rfl, rfl⟩

/-- Where no instruction can be fetched, the opcode is known if it could be read. -/
lemma fetchInstruction_of_error (h : cpu.fetched m = .error e) :
    (fetchInstruction cpu m).1 =
        .error ⟨cpu.registers.pc, (Memory.read m cpu.registers.pc).toOption, e⟩ ∧
      (fetchInstruction cpu m).2.memory = m := by
  unfold fetchInstruction
  dsimp only
  cases hread : Memory.read m cpu.registers.pc with
  | error e' =>
    have hfirst := (Cpu.fetchStream_zero cpu m).trans hread
    rw [Cpu.fetched_eq_map, Instruction.decodeStream, hfirst] at h
    obtain rfl : e' = e := Except.error.inj h
    exact ⟨rfl, rfl⟩
  | ok b =>
    unfold Cpu.fetched at h
    dsimp only
    rw [h]
    exact ⟨rfl, rfl⟩

lemma Begins.tick_of_error (h : s.Begins) {pending : Option Interrupt}
    (hpoll : Interrupt.poll s.memory = .ok pending) (hfetched : s.cpu.fetched s.memory = .error e) :
    s.tick.1 = .error ⟨s.cpu.registers.pc,
        (Memory.read s.memory s.cpu.registers.pc).toOption, e⟩ ∧ s.tick.2.memory = s.memory := by
  rw [← h.tick_awake hpoll, tick_eq_fetchInstruction h.fetches hpoll]
  exact fetchInstruction_of_error hfetched

/-- Each of the ways fails. -/
lemma Breaks.tick (h : s.Breaks f m) : s.tick.1 = .error f ∧ s.tick.2.memory = m := by
  cases h with
  | poll hphase hlocked hpoll =>
    rw [tick_of_poll_error hphase hlocked hpoll]
    exact ⟨rfl, rfl⟩
  | acknowledge h hpoll hacknowledge => exact tick_of_acknowledge_error h hpoll hacknowledge
  | fetch h hpoll hfetched => exact h.tick_of_error hpoll hfetched
  | operation h hperform =>
    obtain ⟨cpu, m⟩ := s
    rw [tick_executing h]
    exact ⟨execute_eq_error_iff.mpr (.inl ⟨_, hperform, rfl⟩), execute_memory _ _ _⟩
  | halt h hx hhalt hpoll =>
    obtain ⟨cpu, m⟩ := s
    rw [tick_executing h]
    refine ⟨execute_eq_error_iff.mpr (.inr ⟨_, _, hx, hhalt, hpoll, rfl⟩), ?_⟩
    exact (execute_memory _ _ _).trans (congrArg (·.2.2) (perform_of_halt hx hhalt _ _))

/-- Once the interrupts have been polled, what fails is the answer to one or the fetch. -/
lemma breaks_of_boundary (hphase : s.cpu.phase = .fetching) (hlocked : s.cpu.locked = false)
    {pending : Option Interrupt} (hpoll : Interrupt.poll s.memory = .ok pending)
    (h : s.tick.1 = .error f) : ∃ m, s.Breaks f m := by
  suffices hbreaks : ∃ g m, s.Breaks g m by
    obtain ⟨g, m, hg⟩ := hbreaks
    obtain rfl := Except.error.inj (hg.tick.1.symm.trans h)
    exact ⟨m, hg⟩
  obtain hasleep | ⟨i, rfl, hattends⟩ | hbegins := boundary_cases hphase hlocked hpoll
  · rw [tick_of_asleep hphase hlocked (hpoll.trans (congrArg _ hasleep.1)) hasleep.2] at h
    cases h
  · rcases hack : i.acknowledge s.memory with ⟨e | u, m'⟩
    · exact ⟨_, _, .acknowledge hattends hpoll (congrArg Prod.fst hack)⟩
    · rw [tick_of_attends hattends hpoll hack] at h
      cases h
  · cases hfetched : s.cpu.fetched s.memory with
    | error e => exact ⟨_, _, .fetch hbegins hpoll hfetched⟩
    | ok i =>
      obtain ⟨b, -, -, -, hread, -⟩ := Cpu.exists_form_of_fetched hfetched
      rw [hbegins.tick_eq hpoll hread hfetched] at h
      cases h

/-- There is no other way to fail than these. -/
lemma breaks_of_tick (h : s.tick.1 = .error f) : s.Breaks f s.tick.2.memory := by
  suffices hbreaks : ∃ m, s.Breaks f m by
    obtain ⟨m, hm⟩ := hbreaks
    rwa [hm.tick.2]
  cases hphase : s.cpu.phase with
  | executing x =>
    obtain ⟨cpu, m⟩ := s
    rw [tick_executing hphase] at h
    rcases execute_eq_error_iff.mp h with ⟨e, hperform, rfl⟩ | ⟨i, e, hx, hhalt, hpoll, rfl⟩
    · exact ⟨_, .operation hphase hperform⟩
    · exact ⟨_, .halt hphase hx hhalt hpoll⟩
  | fetching =>
    cases hlocked : s.cpu.locked with
    | true =>
      rw [tick_of_locked hphase hlocked s.memory] at h
      cases h
    | false =>
      cases hpoll : Interrupt.poll s.memory with
      | error e =>
        rw [tick_of_poll_error hphase hlocked hpoll] at h
        obtain rfl := Except.error.inj h
        exact ⟨_, .poll hphase hlocked hpoll⟩
      | ok pending => exact breaks_of_boundary hphase hlocked hpoll h

/-- **A cycle fails in these ways** and in no other. -/
theorem breaks_iff : s.Breaks f m ↔ s.tick.1 = .error f ∧ s.tick.2.memory = m := by
  constructor
  · exact Breaks.tick
  · rintro ⟨h, rfl⟩
    exact breaks_of_tick h

/-! ## Failures and the accesses that fail -/

lemma exists_asks_of_poll (h : s.Polls) (hpoll : Interrupt.poll s.memory = .error e) :
    ∃ b, s.Asks b ∧ b.Fails s.memory e := by
  obtain hread | ⟨flags, hflags, hread⟩ := Interrupt.poll_eq_error_iff.mp hpoll
  · exact ⟨_, .requested h, hread⟩
  · exact ⟨_, .enabled h hflags, hread⟩

lemma exists_breaks_of_poll (h : s.Polls) (hpoll : Interrupt.poll s.memory = .error e) :
    ∃ f m, s.Breaks f m ∧ f.source = e := by
  obtain ⟨hphase, hlocked⟩ | ⟨x, i, hphase, hx, hhalt⟩ := h
  · exact ⟨_, _, .poll hphase hlocked hpoll, rfl⟩
  · exact ⟨_, _, .halt hphase hx hhalt hpoll, rfl⟩

/-- A cycle that fails has made an access that fails with the error of the fault. -/
lemma Breaks.exists_asks (h : s.Breaks f m) :
    ∃ b, s.Asks b ∧ b.Fails s.memory f.source := by
  cases h with
  | poll hphase hlocked hpoll => exact exists_asks_of_poll (.inl ⟨hphase, hlocked⟩) hpoll
  | acknowledge h hpoll hacknowledge =>
    obtain hread | ⟨flags, hflags, hwrite⟩ := Interrupt.acknowledge_eq_error_iff.mp hacknowledge
    · exact ⟨_, .requested (.inl ⟨h.boundary, h.unlocked⟩), hread⟩
    · exact ⟨_, .acknowledge h hpoll hflags, hwrite⟩
  | fetch h hpoll hfetched =>
    obtain ⟨bytes, hbytes, hincomplete, hread⟩ := Cpu.fetched_eq_error_iff.mp hfetched
    exact ⟨_, .instruction h hpoll hbytes hincomplete, hread⟩
  | operation h hperform => exact ⟨_, .operation h, MicroOp.fails_iff.mpr hperform⟩
  | halt h hx hhalt hpoll => exact exists_asks_of_poll (.inr ⟨_, _, h, hx, hhalt⟩) hpoll

/-- An access that is made and fails ends the cycle with its error. -/
lemma Asks.exists_breaks {b : BusCycle} (h : s.Asks b) (hfails : b.Fails s.memory e) :
    ∃ f m, s.Breaks f m ∧ f.source = e := by
  cases h with
  | requested h => exact exists_breaks_of_poll h (Interrupt.poll_eq_error_iff.mpr (.inl hfails))
  | enabled h hflags =>
    exact exists_breaks_of_poll h (Interrupt.poll_eq_error_iff.mpr (.inr ⟨_, hflags, hfails⟩))
  | acknowledge h hpoll hflags =>
    exact ⟨_, _, .acknowledge h hpoll
      (Interrupt.acknowledge_eq_error_iff.mpr (.inr ⟨_, hflags, hfails⟩)), rfl⟩
  | instruction h hpoll hbytes hincomplete =>
    exact ⟨_, _, .fetch h hpoll
      (Cpu.fetched_eq_error_iff.mpr ⟨_, hbytes, hincomplete, hfails⟩), rfl⟩
  | operation h => exact ⟨_, _, .operation h (MicroOp.fails_iff.mp hfails), rfl⟩

/-- A cycle that fails leaves memory as it was. -/
lemma Breaks.memory_eq (h : s.Breaks f m) (hkept : Memory.KeptByFailures s.memory) :
    m = s.memory := by
  cases h with
  | poll => rfl
  | acknowledge _ _ hacknowledge => exact Interrupt.acknowledge_of_error hkept hacknowledge
  | fetch => rfl
  | operation _ hperform => exact MicroOp.perform_of_error hkept hperform
  | halt => rfl

end Machine

end Handheld
