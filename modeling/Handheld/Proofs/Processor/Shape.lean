/-
# What programs do

An instruction's program is one of two dozen lists of micro-operations.  For each there is a lemma
here that says what a routine with this program does from its first micro-operation to its last,
when its accesses to memory work; the routine's effect is left open.  Operand bytes are given as
the bytes that memory holds at the program counter.
-/
import Handheld.Proofs.Memory.Holds
import Handheld.Proofs.Processor.Atomic
import Handheld.Proofs.Processor.Passage

namespace Handheld

variable {M : Type} [Memory M]

/-! ## Micro-operations that work -/

namespace MicroOp

variable {d : Datapath} {m : M}

/-- What a micro-operation that works leaves. -/
def act (op : MicroOp) (d : Datapath) (m : M) : Except MemoryError (Datapath × M) :=
  match op.perform d m with
  | (.ok _, d, m) => .ok (d, m)
  | (.error e, _, _) => .error e

@[simp] lemma act_opcode : opcode.act d m = .ok (d, m) := rfl

@[simp] lemma act_internal : internal.act d m = .ok (d, m) := rfl

@[simp] lemma act_secondOpcode :
    secondOpcode.act d m = do
      let v ← Memory.read m d.registers.pc
      return ({ d.advance with z := v }, m) := by
  simp only [act, perform, issue]
  cases Memory.read m d.registers.pc <;> rfl

@[simp] lemma act_immLow :
    immLow.act d m = do
      let v ← Memory.read m d.registers.pc
      return ({ d.advance with z := v }, m) := by
  simp only [act, perform, issue]
  cases Memory.read m d.registers.pc <;> rfl

@[simp] lemma act_immHigh :
    immHigh.act d m = do
      let v ← Memory.read m d.registers.pc
      return ({ d.advance with w := v }, m) := by
  simp only [act, perform, issue]
  cases Memory.read m d.registers.pc <;> rfl

@[simp] lemma act_read (p : Pointer) :
    (read p).act d m = do
      let v ← Memory.read m (d.address p)
      return ({ d.stepPointer p with z := v }, m) := by
  simp only [act, perform, issue]
  cases Memory.read m (d.address p) <;> rfl

@[simp] lemma act_write (p : Pointer) (s : ByteSource) :
    (write p s).act d m = do
      let m ← Memory.put m (d.address p) (d.byte s)
      return (d.stepPointer p, m) := by
  simp only [act, perform, issue, Memory.put]
  rcases Memory.write m (d.address p) (d.byte s) with ⟨e | u, m'⟩ <;> rfl

@[simp] lemma act_pushHigh (s : WordSource) :
    (pushHigh s).act d m = do
      let m ← Memory.put m (d.registers.sp + -1) (Word.high (d.word s))
      return (d.moveStack (-1), m) := by
  simp only [act, perform, issue, Datapath.push, Datapath.moveStack, Memory.put]
  rcases Memory.write m (d.registers.sp + -1) (Word.high (d.word s)) with ⟨e | u, m'⟩ <;> rfl

@[simp] lemma act_pushLow (s : WordSource) :
    (pushLow s).act d m = do
      let m ← Memory.put m (d.registers.sp + -1) (Word.low (d.word s))
      return (d.moveStack (-1), m) := by
  simp only [act, perform, issue, Datapath.push, Datapath.moveStack, Memory.put]
  rcases Memory.write m (d.registers.sp + -1) (Word.low (d.word s)) with ⟨e | u, m'⟩ <;> rfl

@[simp] lemma act_popLow :
    popLow.act d m = do
      let v ← Memory.read m d.registers.sp
      return ({ d.moveStack 1 with z := v }, m) := by
  simp only [act, perform, issue]
  cases Memory.read m d.registers.sp <;> rfl

@[simp] lemma act_popHigh :
    popHigh.act d m = do
      let v ← Memory.read m d.registers.sp
      return ({ d.moveStack 1 with w := v }, m) := by
  simp only [act, perform, issue]
  cases Memory.read m d.registers.sp <;> rfl

end MicroOp

/-! ## Passes that work -/

/-- The registers and the memory after a pass that works. -/
def Passage.outcome (p : Passage M) : Except MemoryError (Registers × M) :=
  p.result.map fun _ => (p.datapath.registers, p.memory)

namespace Routine

variable (r : Routine) (k : Nat) (d : Datapath) (m : M) (op : MicroOp) (ops : List MicroOp)

@[simp] lemma outcome_pass_nil : (r.pass k d m []).outcome = .ok (d.registers, m) := rfl

lemma outcome_pass_cons :
    (r.pass k d m (op :: ops)).outcome = (do
      let (d, m) ← op.act d m
      if r.program.takes k (r.applyAt k d).registers.flags then
        (r.pass (k + 1) (r.applyAt k d) m ops).outcome
      else .ok ((r.applyAt k d).registers, m)) := by
  unfold MicroOp.act
  rw [pass]
  rcases op.perform d m with ⟨e | u, d', m'⟩
  · rfl
  · dsimp only [ok_bind]
    split <;> rfl

end Routine

/-- A whole routine, from its first micro-operation. -/
def Routine.run (x : Routine) (r : Registers) (m : M) : Except MemoryError (Registers × M) :=
  (x.pass 0 ⟨r, 0, 0⟩ m x.program.ops).outcome

@[simp] lemma Program.takes_map {ops : List MicroOp} {effectAt : Option Nat} {j k : Nat}
    {cc : Option Condition} {f : Flags} :
    Program.takes ⟨ops, effectAt, cc.map (Prod.mk j)⟩ k f = (j != k || cc.all (·.holds f)) := by
  cases cc with
  | none => simp [takes]
  | some condition => rfl

namespace Routine

open MicroOp

variable {x : Routine} {r : Registers} {m : M} {b lo hi : UInt8} {p : Pointer} {s : ByteSource}

lemma add_one_add_one (a : UInt16) : a + 1 + 1 = a + 2 := by
  rw [UInt16.add_assoc]
  rfl

lemma add_neg_one (a : UInt16) : a + -1 = a - 1 :=
  (UInt16.sub_eq_add_neg a 1).symm

lemma sub_one_sub_one (a : UInt16) : a - 1 - 1 = a - 2 := by
  rw [UInt16.sub_eq_add_neg, UInt16.sub_eq_add_neg, UInt16.sub_eq_add_neg, UInt16.add_assoc]
  rfl

lemma getPair_sp {q : Pair} (hq : q ≠ .sp) (r : Registers) (a : UInt16) :
    ({ r with sp := a } : Registers).getPair q = r.getPair q := by
  cases q with
  | sp => exact absurd rfl hq
  | bc | de | hl | af => rfl

/-! ### Registers alone -/

lemma run_single (hx : x.program = ⟨[opcode], some 0, none⟩) :
    x.run r m = .ok ((x.effect ⟨r, 0, 0⟩).registers, m) := by
  simp [run, outcome_pass_cons, applyAt, Program.takes, hx]

lemma run_internal (hx : x.program = ⟨[opcode, internal], some 1, none⟩) :
    x.run r m = .ok ((x.effect ⟨r, 0, 0⟩).registers, m) := by
  simp [run, outcome_pass_cons, applyAt, Program.takes, hx]

/-! ### Operand bytes -/

lemma run_byte (hx : x.program = ⟨[opcode, immLow], some 1, none⟩)
    (hm : Memory.Holds m r.pc [b]) :
    x.run r m = .ok ((x.effect ⟨{ r with pc := r.pc + 1 }, b, 0⟩).registers, m) := by
  simp [run, outcome_pass_cons, applyAt, Program.takes, hx, hm.byte, Datapath.advance]

lemma run_word (hx : x.program = ⟨[opcode, immLow, immHigh], some 2, none⟩)
    (hm : Memory.Holds m r.pc [lo, hi]) :
    x.run r m = .ok ((x.effect ⟨{ r with pc := r.pc + 2 }, lo, hi⟩).registers, m) := by
  simp [run, outcome_pass_cons, applyAt, Program.takes, hx, hm.word, Datapath.advance,
    add_one_add_one]

lemma run_byte_internals (hx : x.program = ⟨[opcode, immLow, internal, internal], some 3, none⟩)
    (hm : Memory.Holds m r.pc [b]) :
    x.run r m = .ok ((x.effect ⟨{ r with pc := r.pc + 1 }, b, 0⟩).registers, m) := by
  simp [run, outcome_pass_cons, applyAt, Program.takes, hx, hm.byte, Datapath.advance]

lemma run_byte_internal (cc : Option Condition)
    (hx : x.program = ⟨[opcode, immLow, internal], some 2, cc.map (Prod.mk 1)⟩)
    (hm : Memory.Holds m r.pc [b]) :
    x.run r m = .ok (
      if cc.all (·.holds r.flags) then (x.effect ⟨{ r with pc := r.pc + 1 }, b, 0⟩).registers
      else { r with pc := r.pc + 1 }, m) := by
  simp [run, outcome_pass_cons, applyAt, hx, hm.byte, Datapath.advance]
  split <;> rfl

lemma run_word_internal (cc : Option Condition)
    (hx : x.program = ⟨[opcode, immLow, immHigh, internal], some 3, cc.map (Prod.mk 2)⟩)
    (hm : Memory.Holds m r.pc [lo, hi]) :
    x.run r m = .ok (
      if cc.all (·.holds r.flags) then (x.effect ⟨{ r with pc := r.pc + 2 }, lo, hi⟩).registers
      else { r with pc := r.pc + 2 }, m) := by
  simp [run, outcome_pass_cons, applyAt, hx, hm.word, Datapath.advance, add_one_add_one]
  split <;> rfl

lemma run_second (hx : x.program = ⟨[opcode, secondOpcode], some 1, none⟩)
    (hm : Memory.Holds m r.pc [b]) :
    x.run r m = .ok ((x.effect ⟨{ r with pc := r.pc + 1 }, b, 0⟩).registers, m) := by
  simp [run, outcome_pass_cons, applyAt, Program.takes, hx, hm.byte, Datapath.advance]

/-! ### A byte of memory -/

lemma run_read (hx : x.program = ⟨[opcode, read p], some 1, none⟩) :
    x.run r m = (do
      let v ← Memory.read m (Datapath.address ⟨r, 0, 0⟩ p)
      .ok ((x.effect { Datapath.stepPointer ⟨r, 0, 0⟩ p with z := v }).registers, m)) := by
  simp [run, outcome_pass_cons, applyAt, Program.takes, hx]

lemma run_write (hx : x.program = ⟨[opcode, write p s], none, none⟩) :
    x.run r m = (do
      let m ← Memory.put m (Datapath.address ⟨r, 0, 0⟩ p) (Datapath.byte ⟨r, 0, 0⟩ s)
      .ok ((Datapath.stepPointer ⟨r, 0, 0⟩ p).registers, m)) := by
  simp [run, outcome_pass_cons, applyAt, Program.takes, hx]

lemma run_byte_read (hx : x.program = ⟨[opcode, immLow, read .highZ], some 2, none⟩)
    (hm : Memory.Holds m r.pc [b]) :
    x.run r m = (do
      let v ← Memory.read m (Word.ofBytes 0xFF b)
      .ok ((x.effect ⟨{ r with pc := r.pc + 1 }, v, 0⟩).registers, m)) := by
  simp [run, outcome_pass_cons, applyAt, Program.takes, hx, hm.byte, Datapath.advance,
    Datapath.address, Datapath.stepPointer]

lemma run_byte_write (hx : x.program = ⟨[opcode, immLow, write p s], none, none⟩)
    (hm : Memory.Holds m r.pc [b]) :
    x.run r m = (do
      let d : Datapath := ⟨{ r with pc := r.pc + 1 }, b, 0⟩
      let m ← Memory.put m (d.address p) (d.byte s)
      .ok ((d.stepPointer p).registers, m)) := by
  simp [run, outcome_pass_cons, applyAt, Program.takes, hx, hm.byte, Datapath.advance]

lemma run_word_read (hx : x.program = ⟨[opcode, immLow, immHigh, read .wz], some 3, none⟩)
    (hm : Memory.Holds m r.pc [lo, hi]) :
    x.run r m = (do
      let v ← Memory.read m (Word.ofBytes hi lo)
      .ok ((x.effect ⟨{ r with pc := r.pc + 2 }, v, hi⟩).registers, m)) := by
  simp [run, outcome_pass_cons, applyAt, Program.takes, hx, hm.word, Datapath.advance,
    Datapath.address, Datapath.wz, Datapath.stepPointer, add_one_add_one]

lemma run_word_write (hx : x.program = ⟨[opcode, immLow, immHigh, write .wz s], none, none⟩)
    (hm : Memory.Holds m r.pc [lo, hi]) :
    x.run r m = (do
      let d : Datapath := ⟨{ r with pc := r.pc + 2 }, lo, hi⟩
      let m ← Memory.put m (Word.ofBytes hi lo) (d.byte s)
      .ok (d.registers, m)) := by
  simp [run, outcome_pass_cons, applyAt, Program.takes, hx, hm.word, Datapath.advance,
    Datapath.address, Datapath.wz, Datapath.stepPointer, add_one_add_one]

lemma run_word_writes
    (hx : x.program =
      ⟨[opcode, immLow, immHigh, write .wz .spLow, write .wzNext .spHigh], none, none⟩)
    (hm : Memory.Holds m r.pc [lo, hi]) :
    x.run r m = (do
      let m ← Memory.put m (Word.ofBytes hi lo) (Word.low r.sp)
      let m ← Memory.put m (Word.ofBytes hi lo + 1) (Word.high r.sp)
      .ok ({ r with pc := r.pc + 2 }, m)) := by
  simp [run, outcome_pass_cons, applyAt, Program.takes, hx, hm.word, Datapath.advance,
    Datapath.address, Datapath.wz, Datapath.stepPointer, Datapath.byte, add_one_add_one]

lemma run_second_read (hx : x.program = ⟨[opcode, secondOpcode, read .hl], some 2, none⟩)
    (hm : Memory.Holds m r.pc [b]) :
    x.run r m = (do
      let v ← Memory.read m r.hl
      .ok ((x.effect ⟨{ r with pc := r.pc + 1 }, v, 0⟩).registers, m)) := by
  simp [run, outcome_pass_cons, applyAt, Program.takes, hx, hm.byte, Datapath.advance,
    Datapath.address, Datapath.stepPointer, Registers.hl, Registers.getPair]

lemma run_modify (hx : x.program = ⟨[opcode, read .hl, write .hl .z], some 1, none⟩) :
    x.run r m = (do
      let v ← Memory.read m r.hl
      let d := x.effect ⟨r, v, 0⟩
      let m ← Memory.put m d.registers.hl d.z
      .ok (d.registers, m)) := by
  simp [run, outcome_pass_cons, applyAt, Program.takes, hx, Datapath.address,
    Datapath.stepPointer, Datapath.byte]

lemma run_second_modify
    (hx : x.program = ⟨[opcode, secondOpcode, read .hl, write .hl .z], some 2, none⟩)
    (hm : Memory.Holds m r.pc [b]) :
    x.run r m = (do
      let v ← Memory.read m r.hl
      let d := x.effect ⟨{ r with pc := r.pc + 1 }, v, 0⟩
      let m ← Memory.put m d.registers.hl d.z
      .ok (d.registers, m)) := by
  simp [run, outcome_pass_cons, applyAt, Program.takes, hx, hm.byte, Datapath.advance,
    Datapath.address, Datapath.stepPointer, Datapath.byte, Registers.hl, Registers.getPair]

/-! ### The stack -/

lemma run_push {q : Pair} (hq : q ≠ .sp)
    (hx : x.program = ⟨[opcode, internal, pushHigh (.pair q), pushLow (.pair q)], none, none⟩) :
    x.run r m = (do
      let m ← Memory.put m (r.sp - 1) (Word.high (r.getPair q))
      let m ← Memory.put m (r.sp - 2) (Word.low (r.getPair q))
      .ok ({ r with sp := r.sp - 2 }, m)) := by
  simp [run, outcome_pass_cons, applyAt, Program.takes, hx, Datapath.moveStack, Datapath.word,
    add_neg_one, sub_one_sub_one, getPair_sp hq]

lemma run_rst
    (hx : x.program = ⟨[opcode, internal, pushHigh .pc, pushLow .pc], some 3, none⟩) :
    x.run r m = (do
      let m ← Memory.put m (r.sp - 1) (Word.high r.pc)
      let m ← Memory.put m (r.sp - 2) (Word.low r.pc)
      .ok ((x.effect ⟨{ r with sp := r.sp - 2 }, 0, 0⟩).registers, m)) := by
  simp [run, outcome_pass_cons, applyAt, Program.takes, hx, Datapath.moveStack, Datapath.word,
    add_neg_one, sub_one_sub_one]

lemma run_call (cc : Option Condition)
    (hx : x.program =
      ⟨[opcode, immLow, immHigh, internal, pushHigh .pc, pushLow .pc], some 5,
        cc.map (Prod.mk 2)⟩)
    (hm : Memory.Holds m r.pc [lo, hi]) :
    x.run r m =
      if cc.all (·.holds r.flags) then (do
        let q := r.pc + 2
        let m ← Memory.put m (r.sp - 1) (Word.high q)
        let m ← Memory.put m (r.sp - 2) (Word.low q)
        .ok ((x.effect ⟨{ r with pc := q, sp := r.sp - 2 }, lo, hi⟩).registers, m))
      else .ok ({ r with pc := r.pc + 2 }, m) := by
  simp [run, outcome_pass_cons, applyAt, hx, hm.word, Datapath.advance, Datapath.moveStack,
    Datapath.word, add_one_add_one, add_neg_one, sub_one_sub_one]

lemma run_pop (hx : x.program = ⟨[opcode, popLow, popHigh], some 2, none⟩) :
    x.run r m = (do
      let lo ← Memory.read m r.sp
      let hi ← Memory.read m (r.sp + 1)
      .ok ((x.effect ⟨{ r with sp := r.sp + 2 }, lo, hi⟩).registers, m)) := by
  simp [run, outcome_pass_cons, applyAt, Program.takes, hx, Datapath.moveStack, add_one_add_one]

lemma run_ret (hx : x.program = ⟨[opcode, popLow, popHigh, internal], some 3, none⟩) :
    x.run r m = (do
      let lo ← Memory.read m r.sp
      let hi ← Memory.read m (r.sp + 1)
      .ok ((x.effect ⟨{ r with sp := r.sp + 2 }, lo, hi⟩).registers, m)) := by
  simp [run, outcome_pass_cons, applyAt, Program.takes, hx, Datapath.moveStack, add_one_add_one]

lemma run_retIf {condition : Condition}
    (hx : x.program =
      ⟨[opcode, internal, popLow, popHigh, internal], some 4, some (1, condition)⟩) :
    x.run r m =
      if condition.holds r.flags then (do
        let lo ← Memory.read m r.sp
        let hi ← Memory.read m (r.sp + 1)
        .ok ((x.effect ⟨{ r with sp := r.sp + 2 }, lo, hi⟩).registers, m))
      else .ok (r, m) := by
  simp [run, outcome_pass_cons, applyAt, Program.takes, hx, Datapath.moveStack, add_one_add_one]

end Routine

end Handheld
