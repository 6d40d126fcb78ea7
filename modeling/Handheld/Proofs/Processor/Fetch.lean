/-
# Fetching an instruction

A processor between instructions that is awake and undisturbed fetches.  After a failed `HALT` it
reads the first byte twice before it moves on.  Either way there is a place from which the bytes
after the first are read, and the instruction is decoded from the bytes there
(`exists_form_of_fetched`).
-/
import Handheld.Proofs.Instruction.Codec
import Handheld.Proofs.Instruction.Form
import Handheld.Processor.Tick

namespace Handheld

variable {M : Type} [Memory M]

namespace Cpu

/-- The instruction that the processor decodes at its program counter. -/
def fetched (cpu : Cpu) (m : M) : Except MemoryError Instruction :=
  if cpu.haltBug then Instruction.decodeRepeating m cpu.registers.pc
  else (Instruction.decode m cpu.registers.pc).map Prod.fst

/-- The address from which the bytes after the first are read. -/
def operandStart (cpu : Cpu) : Address :=
  if cpu.haltBug then cpu.registers.pc else cpu.registers.pc + 1

/-- The address after an instruction of `n` bytes. -/
def nextAddress (cpu : Cpu) (n : Nat) : Address :=
  cpu.registers.pc + UInt16.ofNat (if cpu.haltBug then n - 1 else n)

/-- The bytes that the processor decodes from, by their number. -/
def fetchStream (cpu : Cpu) (m : M) (k : Nat) : Except MemoryError UInt8 :=
  Memory.read m (cpu.registers.pc + UInt16.ofNat (if cpu.haltBug then k - 1 else k))

/-- An instruction that has just been fetched. -/
def flight (cpu : Cpu) (i : Instruction) (opcode : UInt8) : Flight :=
  { routine := .instruction i, origin := cpu.registers.pc, opcode }

/-- The processor when it has fetched an instruction. -/
def launch (cpu : Cpu) (i : Instruction) (opcode : UInt8) : Cpu :=
  let r := { cpu.registers with pc := cpu.operandStart }
  let counted := { cpu with registers := r, cycles := cpu.cycles + 1, haltBug := false }
  { counted.note (.fetched cpu.registers.pc i r) with
    phase := .executing (cpu.flight i opcode) }

variable {cpu : Cpu} {m : M} {i : Instruction}

lemma operandStart_add (cpu : Cpu) (k : Nat) :
    cpu.operandStart + UInt16.ofNat k = cpu.nextAddress (k + 1) := by
  unfold operandStart nextAddress
  cases cpu.haltBug with
  | true => simp
  | false =>
    simp only [Bool.false_eq_true, if_false]
    rw [UInt16.add_assoc, Nat.add_comm k 1, UInt16.ofNat_add]
    rfl

lemma fetched_eq_ok_iff :
    cpu.fetched m = .ok i ↔ ∃ n, Instruction.decodeStream (cpu.fetchStream m) = .ok (i, n) := by
  -- both ways of decoding read a stream, which is `fetchStream`
  cases hbug : cpu.haltBug with
  | true =>
    have hstream : cpu.fetchStream m =
        fun k => Memory.read m (cpu.registers.pc + UInt16.ofNat (k - 1)) := by
      funext k
      simp [fetchStream, hbug]
    rw [fetched, if_pos hbug, hstream, Instruction.decodeRepeating, bind_eq_ok]
    constructor
    · rintro ⟨⟨i', n⟩, hn, h⟩
      obtain rfl := Except.ok.inj h
      exact ⟨n, hn⟩
    · rintro ⟨n, hn⟩
      exact ⟨(i, n), hn, rfl⟩
  | false =>
    have hstream : cpu.fetchStream m = Memory.stream m cpu.registers.pc := by
      funext k
      simp [fetchStream, Memory.stream, hbug]
    rw [fetched, if_neg (by simp [hbug]), hstream]
    constructor
    · intro h
      cases hdecode : Instruction.decode m cpu.registers.pc with
      | error e =>
        rw [hdecode] at h
        cases h
      | ok result =>
        obtain ⟨i', next⟩ := result
        rw [hdecode] at h
        obtain rfl := Except.ok.inj h
        obtain ⟨n, hn, -⟩ := Instruction.decode_eq_ok_iff.mp hdecode
        exact ⟨n, hn⟩
    · rintro ⟨n, hn⟩
      rw [Instruction.decode_eq_ok_iff.mpr ⟨n, hn, rfl⟩]
      rfl

lemma fetchStream_zero (cpu : Cpu) (m : M) :
    cpu.fetchStream m 0 = Memory.read m cpu.registers.pc := by
  simp [fetchStream]

/-- Behind the first byte the stream goes on where the processor reads operands. -/
lemma fetchStream_succ (cpu : Cpu) (m : M) (k : Nat) :
    cpu.fetchStream m (k + 1) = Memory.read m (cpu.operandStart + UInt16.ofNat k) := by
  rw [operandStart_add]
  rfl

/-- What is fetched has a form, with the bytes behind its first byte as memory holds them. -/
lemma exists_form_of_fetched (h : cpu.fetched m = .ok i) :
    ∃ b bytes, i.encode = some (b :: bytes) ∧ i.Form bytes ∧
      Memory.read m cpu.registers.pc = .ok b ∧ Memory.Holds m cpu.operandStart bytes := by
  obtain ⟨n, hn⟩ := fetched_eq_ok_iff.mp h
  obtain ⟨op, hop, bytes, hlen, hbytes, rfl, -⟩ := Instruction.decodeStream_eq_ok_iff.mp hn
  have hencode := Opcode.encode_eq_of_mem hop (op.encode_fill hlen)
  have hform := Instruction.form_of_mem hlen
  obtain ⟨b, rest, hcons⟩ : ∃ b rest, op.bytes ++ bytes = b :: rest := by
    cases op with
    | base b => exact ⟨b, bytes, rfl⟩
    | extended b => exact ⟨Opcode.extension, b :: bytes, rfl⟩
  rw [hcons] at hbytes hencode hform
  obtain ⟨hfirst, hrest⟩ := Stream.holds_cons.mp hbytes
  refine ⟨b, rest, hencode, hform, (fetchStream_zero cpu m).symm.trans hfirst, ?_⟩
  intro k hk
  rw [← fetchStream_succ, Nat.add_comm k 1, ← Nat.zero_add 1]
  exact hrest k hk

end Cpu

namespace Machine

/-- Whether the machine stands between two instructions and fetches in the next cycle: it is
neither locked nor asleep, and no interrupt will be taken. -/
structure Fetches (s : Machine M) : Prop where
  boundary : s.cpu.phase = .fetching
  unlocked : s.cpu.locked = false
  awake : s.cpu.registers.halted = false
  undisturbed : s.cpu.registers.ime = .enabled → ∀ j, Interrupt.poll s.memory ≠ .ok (some j)

variable {s : Machine M} {b : UInt8} {i : Instruction}

lemma fetchInstruction_eq {cpu : Cpu} {m : M} (hread : Memory.read m cpu.registers.pc = .ok b)
    (hfetched : cpu.fetched m = .ok i) :
    fetchInstruction { cpu with cycles := cpu.cycles + 1 } m =
      (.ok false, ⟨cpu.launch i b, m⟩) := by
  unfold Cpu.fetched at hfetched
  unfold fetchInstruction Cpu.launch Cpu.flight Cpu.operandStart
  cases hbug : cpu.haltBug with
  | true =>
    rw [if_pos hbug] at hfetched
    simp [hread, hfetched]
  | false =>
    rw [if_neg (by simp [hbug])] at hfetched
    simp [hread, hfetched]

lemma fetchInstruction_error (cpu : Cpu) (m : M)
    (h : ∀ i b, cpu.fetched m = .ok i → Memory.read m cpu.registers.pc ≠ .ok b) :
    ∃ e, (fetchInstruction { cpu with cycles := cpu.cycles + 1 } m).1 = .error e := by
  unfold fetchInstruction
  cases hread : Memory.read m cpu.registers.pc with
  | error e => exact ⟨⟨cpu.registers.pc, none, e⟩, by simp [hread]⟩
  | ok b =>
    cases hfetched : cpu.fetched m with
    | ok i => exact absurd hread (h i b hfetched)
    | error e =>
      unfold Cpu.fetched at hfetched
      exact ⟨⟨cpu.registers.pc, some b, e⟩, by simp [hread, hfetched]⟩

/-- All that a fetch can do: it fails, or it puts an instruction under way, and then the mark of
`HALT` is gone. -/
lemma fetchInstruction_cases (cpu : Cpu) (m : M) :
    (∃ e pc bug, (bug = true → cpu.haltBug = true) ∧
      fetchInstruction cpu m =
        (.error e, ⟨{ cpu with registers.pc := pc, haltBug := bug }, m⟩)) ∨
      ∃ pc i opcode journal, fetchInstruction cpu m =
        (.ok false, ⟨{ cpu with registers.pc := pc, haltBug := false, journal := journal,
                                phase := .executing (cpu.flight i opcode) }, m⟩) := by
  unfold fetchInstruction
  dsimp only
  cases Memory.read m cpu.registers.pc with
  | error e => exact .inl ⟨_, cpu.registers.pc, cpu.haltBug, id, rfl⟩
  | ok opcode =>
    -- the processor after the first byte, which is the same one whether the decoding works or not
    obtain ⟨pc, hcpu⟩ : ∃ pc, (if cpu.haltBug then { cpu with haltBug := false }
        else { cpu with registers.pc := cpu.registers.pc + 1 }) =
        { cpu with registers.pc := pc, haltBug := false } := by
      split
      · exact ⟨cpu.registers.pc, rfl⟩
      · rename_i hbug
        rw [Bool.not_eq_true] at hbug
        exact ⟨cpu.registers.pc + 1, by rw [← hbug]⟩
    dsimp only
    rw [hcpu]
    split
    · exact .inl ⟨_, pc, false, nofun, rfl⟩
    · exact .inr ⟨pc, _, _, _, rfl⟩

/-- All that the cycle between two instructions can do: it leaves the machine as it is, it fetches
awake, or it answers the interrupt that is pending. -/
lemma fetch_cases (cpu : Cpu) (m : M) :
    (∃ result, fetch cpu m = (result, ⟨cpu, m⟩)) ∨
      (cpu.locked = false ∧
        fetch cpu m = fetchInstruction { cpu with registers.halted := false } m) ∨
      ∃ i, cpu.locked = false ∧ Interrupt.poll m = .ok (some i) ∧ cpu.registers.ime = .enabled ∧
        fetch cpu m = dispatch { cpu with registers.halted := false } m i := by
  unfold fetch
  split
  · exact .inl ⟨_, rfl⟩
  · rename_i hlocked
    rw [Bool.not_eq_true] at hlocked
    split
    · exact .inl ⟨_, rfl⟩
    · split
      · exact .inl ⟨_, rfl⟩
      · rename_i hawake
        rw [Bool.not_eq_true] at hawake
        refine .inr (.inl ⟨hlocked, ?_⟩)
        rw [← hawake]
    · rename_i i hpoll
      dsimp only
      split
      · rename_i hime
        exact .inr (.inr ⟨i, hlocked, hpoll, hime, rfl⟩)
      · exact .inr (.inl ⟨hlocked, rfl⟩)

/-- A machine that fetches polls the interrupts and then fetches. -/
lemma tick_eq_fetchInstruction (h : s.Fetches) {pending : Option Interrupt}
    (hpoll : Interrupt.poll s.memory = .ok pending) :
    s.tick = fetchInstruction { s.cpu with cycles := s.cpu.cycles + 1 } s.memory := by
  obtain ⟨cpu, m⟩ := s
  obtain ⟨hphase, hlocked, hhalted, hime⟩ := h
  dsimp only at hphase hlocked hhalted hime hpoll ⊢
  have hawake : { cpu.registers with halted := false } = cpu.registers := by
    rw [← hhalted]
  simp only [tick, hphase]
  unfold fetch
  rw [if_neg (by simp [hlocked]), hpoll]
  cases pending with
  | none => simp [hhalted]
  | some j =>
    have hdisabled : cpu.registers.ime ≠ .enabled := fun henabled => hime henabled j hpoll
    simp [hawake, hdisabled]

/-- A cycle between two instructions that works has polled the interrupts. -/
lemma exists_poll_of_tick (hphase : s.cpu.phase = .fetching) (hlocked : s.cpu.locked = false)
    (hok : ∀ e, s.tick.1 ≠ .error e) : ∃ pending, Interrupt.poll s.memory = .ok pending := by
  obtain ⟨cpu, m⟩ := s
  dsimp only at hphase hlocked ⊢
  cases hpoll : Interrupt.poll m with
  | ok pending => exact ⟨pending, rfl⟩
  | error e =>
    refine absurd ?_ (hok ⟨cpu.registers.pc, none, e⟩)
    simp [tick, hphase, fetch, hlocked, hpoll]

/-- A fetch that works puts the instruction under way. -/
lemma tick_of_fetches (h : s.Fetches) (hok : ∀ e, s.tick.1 ≠ .error e) :
    ∃ i b, s.cpu.fetched s.memory = .ok i ∧ Memory.read s.memory s.cpu.registers.pc = .ok b ∧
      s.tick = (.ok false, ⟨s.cpu.launch i b, s.memory⟩) := by
  obtain ⟨pending, hpoll⟩ := exists_poll_of_tick h.boundary h.unlocked hok
  have htick := tick_eq_fetchInstruction h hpoll
  by_cases hfetch : ∃ i b, s.cpu.fetched s.memory = .ok i ∧
      Memory.read s.memory s.cpu.registers.pc = .ok b
  · obtain ⟨i, b, hfetched, hread⟩ := hfetch
    exact ⟨i, b, hfetched, hread, htick.trans (fetchInstruction_eq hread hfetched)⟩
  · obtain ⟨e, he⟩ := fetchInstruction_error s.cpu s.memory
      (fun i b hfetched hread => hfetch ⟨i, b, hfetched, hread⟩)
    rw [← htick] at he
    exact absurd he (hok e)

end Machine

end Handheld
