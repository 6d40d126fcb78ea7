/-
# Instructions in one go

What an instruction does, said without machine cycles: its operands are evaluated on the registers
and the memory before it, its rule is applied once, and its results are put where the operands say.
An immediate operand is taken from the instruction itself and not from memory.  The program counter
stands after the instruction from the start.
-/
import Handheld.Arithmetic
import Handheld.Interrupt
import Handheld.Proofs.Memory.Holds

namespace Handheld

namespace Memory

variable {M : Type} [Memory M]

/-- The memory after a write that works. -/
def put (m : M) (a : Address) (v : UInt8) : Except MemoryError M :=
  match write m a v with
  | (.ok _, m) => .ok m
  | (.error e, _) => .error e

/-- The memory after writes that work, the first in the list first. -/
def putAll (m : M) : List (Address × UInt8) → Except MemoryError M
  | [] => .ok m
  | (a, v) :: writes => do putAll (← put m a v) writes

lemma putAll_append (m : M) (first second : List (Address × UInt8)) :
    putAll m (first ++ second) = (do putAll (← putAll m first) second) := by
  induction first generalizing m with
  | nil => rfl
  | cons w first ih =>
    obtain ⟨a, v⟩ := w
    rw [List.cons_append, putAll, putAll]
    cases put m a v with
    | error e => rfl
    | ok m => exact ih m

end Memory

/-- What an instruction leaves: the registers, and the bytes it writes, the first one first. -/
structure Outcome where
  registers : Registers
  writes : List (Address × UInt8) := []

namespace Outcome

/-- Push a word, its high byte first. -/
def push (r : Registers) (w : UInt16) : Outcome :=
  ⟨{ r with sp := r.sp - 2 }, [(r.sp - 1, Word.high w), (r.sp - 2, Word.low w)]⟩

end Outcome

/-! ## Operands -/

namespace Operand

variable {M : Type} [Memory M]

/-- The address of an operand in memory. -/
def address? (r : Registers) : Operand → Option Address
  | indirect .bc => some (r.getPair .bc)
  | indirect .de => some (r.getPair .de)
  | indirect _ => some r.hl
  | direct a => some a
  | highOffset b => some (Word.ofBytes 0xFF b)
  | highC => some (Word.ofBytes 0xFF r.c)
  | _ => none

/-- The byte that an operand stands for. -/
def byte (r : Registers) (m : M) : Operand → Except MemoryError UInt8
  | reg x => .ok (r.get x)
  | imm8 b => .ok b
  | o =>
    match o.address? r with
    | some a => Memory.read m a
    | none => .ok 0

/-- The word that an operand stands for. -/
def word (r : Registers) : Operand → UInt16
  | pair p => r.getPair p
  | imm16 w => w
  | _ => 0

/-- Put a byte where an operand says. -/
def store (r : Registers) (v : UInt8) : Operand → Outcome
  | reg x => ⟨r.set v x, []⟩
  | o =>
    match o.address? r with
    | some a => ⟨r, [(a, v)]⟩
    | none => ⟨r, []⟩

/-- Step `HL` where an operand says so. -/
def stepHl (r : Registers) : Operand → Registers
  | indirect .hlInc => r.setPair (r.hl + 1) .hl
  | indirect .hlDec => r.setPair (r.hl - 1) .hl
  | _ => r

end Operand

/-! ## Rules -/

namespace Kind

open Arithmetic

/-- The accumulator after an operation on it and a source. -/
def combine (a v : UInt8) (f : Flags) : Kind → Result
  | .add => Arithmetic.add a v false
  | .adc => Arithmetic.add a v f.carry
  | .sub => Arithmetic.sub a v false
  | .sbc => Arithmetic.sub a v f.carry
  | .and => Arithmetic.and a v
  | .xor => Arithmetic.xor a v
  | .or => Arithmetic.or a v
  | .cp => ⟨a, (Arithmetic.sub a v false).flags⟩
  | _ => ⟨a, f⟩

/-- A byte after an operation on it alone. -/
def modify (v : UInt8) (f : Flags) : Kind → Result
  | .inc => Arithmetic.inc v f
  | .dec => Arithmetic.dec v f
  | k => (k.shift? v f.carry).getD ⟨v, f⟩

/-- The accumulator after an operation without operands. -/
def adjust (a : UInt8) (f : Flags) : Kind → Result
  | .daa => decimalAdjust a f
  | .cpl => ⟨~~~a, { f with subtract := true, halfCarry := true }⟩
  | .scf => ⟨a, ⟨f.zero, false, false, true⟩⟩
  | .ccf => ⟨a, ⟨f.zero, false, false, !f.carry⟩⟩
  | k =>
    match k.shift? a f.carry with
    | some result => { result with flags.zero := false }
    | none => ⟨a, f⟩

end Kind

namespace Instruction

variable {M : Type} [Memory M]

/-- Whether an instruction's condition holds; an instruction without one is not held up. -/
def isTaken (i : Instruction) (f : Flags) : Bool :=
  match i.first with
  | some (.cond condition) => condition.holds f
  | _ => true

/-- Loads.  A byte is put where the first operand says before `HL` steps. -/
def load (r : Registers) (m : M) : List Operand → Except MemoryError Outcome
  | [.direct a, .pair .sp] => .ok ⟨r, [(a, Word.low r.sp), (a + 1, Word.high r.sp)]⟩
  | [.pair .hl, .spRel e] =>
    let (w, flags) := Arithmetic.addOffset r.sp e
    .ok ⟨({ r with flags := flags }).setPair w .hl, []⟩
  | [.pair p, source] => .ok ⟨r.setPair (source.word r) p, []⟩
  | [target, source] => do
    let v ← source.byte r m
    let o := target.store r v
    return { o with registers := target.stepHl (source.stepHl o.registers) }
  | _ => .ok ⟨r, []⟩

/-- Operations on a byte alone. -/
def modify (kind : Kind) (r : Registers) (m : M) : List Operand → Except MemoryError Outcome
  | [o] => do
    let v ← o.byte r m
    let result := kind.modify v r.flags
    return o.store { r with flags := result.flags } result.value
  | _ => .ok ⟨r, []⟩

/-- One more or one less. -/
def step (kind : Kind) (r : Registers) (m : M) : List Operand → Except MemoryError Outcome
  | [.pair p] =>
    let w := r.getPair p
    .ok ⟨r.setPair (if kind = .inc then w + 1 else w - 1) p, []⟩
  | operands => modify kind r m operands

/-- Operations on the accumulator and a source, which is the last operand. -/
def combine (kind : Kind) (r : Registers) (m : M) : List Operand → Except MemoryError Outcome
  | [source] | [_, source] => do
    let v ← source.byte r m
    let result := kind.combine r.a v r.flags
    return ⟨{ r with a := result.value, flags := result.flags }, []⟩
  | _ => .ok ⟨r, []⟩

/-- Sums of words and bytes. -/
def add (r : Registers) (m : M) : List Operand → Except MemoryError Outcome
  | [.pair .hl, .pair p] =>
    let (w, flags) := Arithmetic.addWords r.hl (r.getPair p) r.flags
    .ok ⟨({ r with flags := flags }).setPair w .hl, []⟩
  | [.pair .sp, .rel8 e] =>
    let (w, flags) := Arithmetic.addOffset r.sp e
    .ok ⟨{ r with sp := w, flags := flags }, []⟩
  | operands => combine .add r m operands

/-- Operations on a bit. -/
def onBit (kind : Kind) (r : Registers) (m : M) : List Operand → Except MemoryError Outcome
  | [.bit n, o] => do
    let v ← o.byte r m
    if kind = .bit then return ⟨{ r with flags := Arithmetic.testBit n.toNat v r.flags }, []⟩
    else if kind = .set then return o.store r (v ||| 1 <<< n)
    else return o.store r (v &&& ~~~(1 <<< n))
  | _ => .ok ⟨r, []⟩

/-- Where a jump goes.  An instruction without a place to go to goes on. -/
def destination (i : Instruction) (r : Registers) : Address :=
  match i.first with
  | some (.pair .hl) => r.hl
  | _ => (i.branchTarget r.pc).getD r.pc

/-- The word on top of the stack, and the registers without it. -/
def popWord (r : Registers) (m : M) : Except MemoryError (UInt16 × Registers) := do
  let w ← Memory.read16 m r.sp
  return (w, { r with sp := r.sp + 2 })

/-- What an instruction leaves, when the program counter stands after it. -/
def outcome (i : Instruction) (r : Registers) (m : M) : Except MemoryError Outcome :=
  match i.kind with
  | .nop | .halt | .invalid => .ok ⟨r, []⟩
  | .ld | .ldh => load r m i.operands
  | .inc | .dec => step i.kind r m i.operands
  | .add => add r m i.operands
  | .adc | .sub | .sbc | .and | .xor | .or | .cp => combine i.kind r m i.operands
  | .rlca | .rrca | .rla | .rra | .daa | .cpl | .scf | .ccf =>
    let result := i.kind.adjust r.a r.flags
    .ok ⟨{ r with a := result.value, flags := result.flags }, []⟩
  | .rlc | .rrc | .rl | .rr | .sla | .sra | .swap | .srl => modify i.kind r m i.operands
  | .bit | .res | .set => onBit i.kind r m i.operands
  | .jr | .jp =>
    .ok ⟨if i.isTaken r.flags then { r with pc := i.destination r } else r, []⟩
  | .call | .rst =>
    if i.isTaken r.flags then
      let pushed := Outcome.push r r.pc
      .ok { pushed with registers.pc := i.destination r }
    else .ok ⟨r, []⟩
  | .ret =>
    if i.isTaken r.flags then do
      let (w, r) ← popWord r m
      return ⟨{ r with pc := w }, []⟩
    else .ok ⟨r, []⟩
  | .reti => do
    let (w, r) ← popWord r m
    return ⟨{ r with pc := w, ime := .enabled }, []⟩
  | .push =>
    match i.first with
    | some (.pair p) => .ok (.push r (r.getPair p))
    | _ => .ok ⟨r, []⟩
  | .pop =>
    match i.first with
    | some (.pair p) => do
      let (w, r) ← popWord r m
      return ⟨r.setPair w p, []⟩
    | _ => .ok ⟨r, []⟩
  | .di => .ok ⟨{ r with ime := .disabled }, []⟩
  | .ei => .ok ⟨{ r with ime := if r.ime = .disabled then .requested else r.ime }, []⟩
  | .stop => .ok ⟨{ r with halted := true }, []⟩

/-- Carry out an instruction in one go up to its end, with the program counter after it. -/
def run (i : Instruction) (r : Registers) (m : M) : Except MemoryError (Registers × M) := do
  let o ← i.outcome r m
  let m ← Memory.putAll m o.writes
  .ok (o.registers, m)

end Instruction

/-! ## The end of an instruction -/

/-- What the next instruction starts from. -/
structure Aftermath (M : Type) where
  registers : Registers
  memory : M
  /-- `HALT` has failed to put the processor to sleep. -/
  haltBug : Bool := false
  /-- The instruction had no meaning. -/
  locked : Bool := false

namespace Instruction

variable {M : Type} [Memory M]

/-- The master enable after an instruction: an enable that was asked for before takes hold. -/
def enableAfter (i : Instruction) (e : MasterEnable) : MasterEnable :=
  if e = .requested ∧ i.kind ≠ .ei then .enabled else e

/-- The end of an instruction.  `HALT` goes to sleep or, with an interrupt pending that will not
be taken, fails to. -/
def conclude (i : Instruction) (r : Registers) (m : M) : Except MemoryError (Aftermath M) :=
  let r := { r with ime := i.enableAfter r.ime }
  if i.kind = .halt then do
    let pending ← Interrupt.poll m
    if r.ime ≠ .enabled ∧ pending.isSome then .ok { registers := r, memory := m, haltBug := true }
    else .ok { registers := { r with halted := true }, memory := m }
  else .ok { registers := r, memory := m, locked := i.kind == .invalid }

/-- The end of an instruction fails only where the interrupts cannot be polled. -/
lemma poll_of_conclude_error {i : Instruction} {r : Registers} {m : M} {e : MemoryError}
    (h : i.conclude r m = .error e) : Interrupt.poll m = .error e := by
  unfold conclude at h
  dsimp only at h
  by_cases hhalt : i.kind = .halt
  · rw [if_pos hhalt] at h
    rcases bind_eq_error.mp h with h | ⟨pending, -, h⟩
    · exact h
    · split at h
      all_goals cases h
  · rw [if_neg hhalt] at h
    cases h

/-- The end of an instruction changes the master enable and the sleep alone, and locks where the
instruction has no meaning. -/
lemma conclude_keeps {i : Instruction} {r : Registers} {m : M} {a : Aftermath M}
    (h : i.conclude r m = .ok a) :
    a.memory = m ∧ a.locked = (i.kind == .invalid) ∧
      ∃ ime halted, a.registers = { r with ime := ime, halted := halted } := by
  unfold conclude at h
  dsimp only at h
  by_cases hhalt : i.kind = .halt
  · have hvalid : (i.kind == .invalid) = false := by
      rw [hhalt]
      rfl
    rw [if_pos hhalt] at h
    obtain ⟨pending, -, h⟩ := bind_eq_ok.mp h
    rw [hvalid]
    split at h
    all_goals
      obtain rfl := Except.ok.inj h
      exact ⟨rfl, rfl, _, _, rfl⟩
  · rw [if_neg hhalt] at h
    obtain rfl := Except.ok.inj h
    exact ⟨rfl, rfl, _, _, rfl⟩

/-- The mark is left by a `HALT` that fails, with interrupts disabled: an enable that was asked for
has been granted before. -/
lemma conclude_haltBug {i : Instruction} {r : Registers} {m : M} {a : Aftermath M}
    (h : i.conclude r m = .ok a) (hbug : a.haltBug = true) :
    i.kind = .halt ∧ a.registers.ime = .disabled ∧ a.registers.halted = r.halted := by
  unfold conclude at h
  dsimp only at h
  by_cases hhalt : i.kind = .halt
  · rw [if_pos hhalt] at h
    obtain ⟨pending, -, h⟩ := bind_eq_ok.mp h
    split at h
    · rename_i hfails
      obtain rfl := Except.ok.inj h
      refine ⟨hhalt, ?_, rfl⟩
      have hne := hfails.1
      dsimp only
      unfold enableAfter at hne ⊢
      rw [hhalt] at hne ⊢
      cases hime : r.ime with
      | disabled => rfl
      | requested => simp [hime] at hne
      | enabled => simp [hime] at hne
    · obtain rfl := Except.ok.inj h
      cases hbug
  · rw [if_neg hhalt] at h
    obtain rfl := Except.ok.inj h
    cases hbug

/-- The end of an instruction asks the memory for the pending interrupts alone. -/
lemma conclude_of_poll {m m' : M} (h : Interrupt.poll m' = Interrupt.poll m) (i : Instruction)
    (r : Registers) :
    i.conclude r m' = (i.conclude r m).map fun a => { a with memory := m' } := by
  unfold conclude
  dsimp only
  rw [h]
  by_cases hhalt : i.kind = .halt
  · rw [if_pos hhalt, if_pos hhalt]
    cases Interrupt.poll m with
    | error e => rfl
    | ok pending =>
      dsimp only [ok_bind]
      split <;> rfl
  · rw [if_neg hhalt, if_neg hhalt]
    rfl

/-- Carry out an instruction in one go, with the program counter after it. -/
def carryOut (i : Instruction) (r : Registers) (m : M) : Except MemoryError (Aftermath M) := do
  let (r, m) ← i.run r m
  i.conclude r m

end Instruction

end Handheld
