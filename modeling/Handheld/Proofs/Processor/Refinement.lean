/-
# Programs and instructions

The program of an instruction, carried out on a memory that holds the operand bytes, does what the
instruction does in one go: it leaves the same registers and the same memory, and fails where the
instruction fails.  The main statement is `Instruction.Form.run_eq`.  Its cases are the forms of
instructions, and each joins the lemma on the form's list of micro-operations to the accesses that
the outcome of the instruction makes.
-/
import Handheld.Proofs.Instruction.Form
import Handheld.Proofs.Processor.Shape

namespace Handheld

variable {M : Type} [Memory M]

/-- The registers with the program counter behind some bytes. -/
def Registers.skip (r : Registers) (bytes : List UInt8) : Registers :=
  { r with pc := r.pc + UInt16.ofNat bytes.length }

@[simp] lemma Registers.skip_nil (r : Registers) : r.skip [] = r := by
  simp [skip]

namespace Instruction

variable {i : Instruction} {bytes : List UInt8} {r : Registers} {m : M}

/-! ## Outcomes by their accesses to memory -/

lemma run_of_registers {r' : Registers} (h : i.outcome r m = .ok ⟨r', []⟩) :
    i.run r m = .ok (r', m) := by
  rw [run, h]
  rfl

lemma run_of_read {a : Address} {f : UInt8 → Registers}
    (h : i.outcome r m = (do let v ← Memory.read m a; .ok ⟨f v, []⟩)) :
    i.run r m = (do let v ← Memory.read m a; .ok (f v, m)) := by
  rw [run, h]
  cases Memory.read m a <;> rfl

lemma run_of_write {r' : Registers} {a : Address} {v : UInt8}
    (h : i.outcome r m = .ok ⟨r', [(a, v)]⟩) :
    i.run r m = (do let m ← Memory.put m a v; .ok (r', m)) := by
  rw [run, h]
  simp only [ok_bind, Memory.putAll]
  cases Memory.put m a v <;> rfl

lemma run_of_writes {r' : Registers} {a a' : Address} {v v' : UInt8}
    (h : i.outcome r m = .ok ⟨r', [(a, v), (a', v')]⟩) :
    i.run r m = (do let m ← Memory.put m a v; let m ← Memory.put m a' v'; .ok (r', m)) := by
  rw [run, h]
  simp only [ok_bind, Memory.putAll]
  cases Memory.put m a v with
  | error e => rfl
  | ok m =>
    simp only [ok_bind]
    cases Memory.put m a' v' <;> rfl

lemma run_of_modify {a : Address} {f : UInt8 → Registers} {g : UInt8 → UInt8}
    (h : i.outcome r m = (do let v ← Memory.read m a; .ok ⟨f v, [(a, g v)]⟩)) :
    i.run r m = (do
      let v ← Memory.read m a
      let m ← Memory.put m a (g v)
      .ok (f v, m)) := by
  rw [run, h]
  cases Memory.read m a with
  | error e => rfl
  | ok v =>
    simp only [ok_bind, Memory.putAll]
    cases Memory.put m a (g v) <;> rfl

lemma run_of_pop (f : UInt16 → Registers → Registers)
    (h : i.outcome r m = (do let (w, r) ← popWord r m; .ok ⟨f w r, []⟩)) :
    i.run r m = (do
      let lo ← Memory.read m r.sp
      let hi ← Memory.read m (r.sp + 1)
      .ok (f (Word.ofBytes hi lo) { r with sp := r.sp + 2 }, m)) := by
  rw [run, h, popWord, Memory.read16]
  cases Memory.read m r.sp with
  | error e => rfl
  | ok lo => cases Memory.read m (r.sp + 1) <;> rfl

/-! ## Forms -/

open Routine

lemma run_ei (r : Registers) (m : M) :
    (Routine.instruction ⟨.ei, none, none⟩).run r m = Instruction.run ⟨.ei, none, none⟩ r m := by
  refine (run_single rfl).trans (run_of_registers ?_).symm
  by_cases hime : r.ime = .disabled
  · simp [outcome, Routine.effect, effect, Datapath.setEnable, hime]
  · simp [outcome, Routine.effect, effect, hime]

lemma PlainForm.run_eq (h : PlainForm i bytes) :
    (Routine.instruction i).run r m = i.run (r.skip bytes) m := by
  cases h with
  | plain hk =>
    rw [Registers.skip_nil]
    simp only [Kind.plain, List.mem_cons, List.not_mem_nil, or_false] at hk
    rcases hk with rfl | rfl | rfl | rfl | rfl | rfl | rfl | rfl | rfl | rfl | rfl | rfl
    all_goals first
      | exact (run_single rfl).trans (run_of_registers rfl).symm
      | exact run_ei r m
  | invalid b =>
    rw [Registers.skip_nil]
    exact (run_single rfl).trans (run_of_registers rfl).symm
  | stop b => exact (run_single rfl).trans (run_of_registers rfl).symm

lemma LoadForm.run_eq (h : LoadForm i bytes) (hm : Memory.Holds m r.pc bytes) :
    (Routine.instruction i).run r m = i.run (r.skip bytes) m := by
  cases h with
  | reg x y =>
    rw [Registers.skip_nil]
    exact (run_single rfl).trans (run_of_registers rfl).symm
  | byte x b => exact (run_byte rfl hm).trans (run_of_registers rfl).symm
  | hlByte b => exact (run_byte_write rfl hm).trans (run_of_write rfl).symm
  | fetch hx =>
    rw [Registers.skip_nil]
    rcases hx with rfl | rfl
    · exact (run_read rfl).trans (run_of_read rfl).symm
    · rename_i p
      cases p
      all_goals exact (run_read rfl).trans (run_of_read rfl).symm
  | put hx =>
    -- the write steps `HL` itself, and the outcome steps it after the store
    rw [Registers.skip_nil]
    rcases hx with rfl | rfl
    · exact (run_write rfl).trans (run_of_write rfl).symm
    · rename_i p
      cases p
      all_goals exact (run_write rfl).trans (run_of_write rfl).symm
  | fetchDirect lo hi => exact (run_word_read rfl hm).trans (run_of_read rfl).symm
  | putDirect lo hi => exact (run_word_write rfl hm).trans (run_of_write rfl).symm
  | fetchHigh b => exact (run_byte_read rfl hm).trans (run_of_read rfl).symm
  | putHigh b => exact (run_byte_write rfl hm).trans (run_of_write rfl).symm
  | fetchHighC =>
    rw [Registers.skip_nil]
    exact (run_read rfl).trans (run_of_read rfl).symm
  | putHighC =>
    rw [Registers.skip_nil]
    exact (run_write rfl).trans (run_of_write rfl).symm
  | @word p hp lo hi =>
    cases p
    all_goals exact (run_word rfl hm).trans (run_of_registers rfl).symm
  | putStack lo hi => exact (run_word_writes rfl hm).trans (run_of_writes rfl).symm
  | stack =>
    rw [Registers.skip_nil]
    exact (run_internal rfl).trans (run_of_registers rfl).symm
  | offset e => exact (run_byte_internal none rfl hm).trans (run_of_registers rfl).symm

lemma ArithmeticForm.run_eq (h : ArithmeticForm i bytes) (hm : Memory.Holds m r.pc bytes) :
    (Routine.instruction i).run r m = i.run (r.skip bytes) m := by
  cases h with
  | inc ho =>
    rw [Registers.skip_nil]
    cases ho with
    | reg x => exact (run_single rfl).trans (run_of_registers rfl).symm
    | hl => exact (run_modify rfl).trans (run_of_modify rfl).symm
  | dec ho =>
    rw [Registers.skip_nil]
    cases ho with
    | reg x => exact (run_single rfl).trans (run_of_registers rfl).symm
    | hl => exact (run_modify rfl).trans (run_of_modify rfl).symm
  | incPair hp =>
    rw [Registers.skip_nil]
    exact (run_internal rfl).trans (run_of_registers rfl).symm
  | decPair hp =>
    rw [Registers.skip_nil]
    exact (run_internal rfl).trans (run_of_registers rfl).symm
  | addPair hp =>
    rw [Registers.skip_nil]
    exact (run_internal rfl).trans (run_of_registers rfl).symm
  | addOffset e => exact (run_byte_internals rfl hm).trans (run_of_registers rfl).symm
  | sum hk ho =>
    rw [Registers.skip_nil]
    simp only [Kind.sums, List.mem_cons, List.not_mem_nil, or_false] at hk
    cases ho with
    | reg x =>
      rcases hk with rfl | rfl | rfl
      all_goals exact (run_single rfl).trans (run_of_registers rfl).symm
    | hl =>
      rcases hk with rfl | rfl | rfl
      all_goals exact (run_read rfl).trans (run_of_read rfl).symm
  | sumByte hk b =>
    simp only [Kind.sums, List.mem_cons, List.not_mem_nil, or_false] at hk
    rcases hk with rfl | rfl | rfl
    all_goals exact (run_byte rfl hm).trans (run_of_registers rfl).symm
  | compare hk ho =>
    rw [Registers.skip_nil]
    simp only [Kind.comparisons, List.mem_cons, List.not_mem_nil, or_false] at hk
    cases ho with
    | reg x =>
      rcases hk with rfl | rfl | rfl | rfl | rfl
      all_goals exact (run_single rfl).trans (run_of_registers rfl).symm
    | hl =>
      rcases hk with rfl | rfl | rfl | rfl | rfl
      all_goals exact (run_read rfl).trans (run_of_read rfl).symm
  | compareByte hk b =>
    simp only [Kind.comparisons, List.mem_cons, List.not_mem_nil, or_false] at hk
    rcases hk with rfl | rfl | rfl | rfl | rfl
    all_goals exact (run_byte rfl hm).trans (run_of_registers rfl).symm

lemma JumpForm.run_eq (h : JumpForm i bytes) (hm : Memory.Holds m r.pc bytes) :
    (Routine.instruction i).run r m = i.run (r.skip bytes) m := by
  cases h with
  | jr e => exact (run_byte_internal none rfl hm).trans (run_of_registers rfl).symm
  | jrIf cc e => exact (run_byte_internal (some cc) rfl hm).trans (run_of_registers rfl).symm
  | jp lo hi => exact (run_word_internal none rfl hm).trans (run_of_registers rfl).symm
  | jpIf cc lo hi =>
    exact (run_word_internal (some cc) rfl hm).trans (run_of_registers rfl).symm
  | jpHl =>
    rw [Registers.skip_nil]
    exact (run_single rfl).trans (run_of_registers rfl).symm

lemma StackForm.run_eq (h : StackForm i bytes) (hm : Memory.Holds m r.pc bytes) :
    (Routine.instruction i).run r m = i.run (r.skip bytes) m := by
  cases h with
  | call lo hi => exact (run_call none rfl hm).trans (run_of_writes rfl).symm
  | callIf cc lo hi =>
    -- the target is read whether the call is taken or not
    rw [run_call (some cc) rfl hm]
    by_cases hcc : cc.holds r.flags = true
    · refine (if_pos hcc).trans (run_of_writes ?_).symm
      exact if_pos hcc
    · refine (if_neg hcc).trans (run_of_registers ?_).symm
      exact if_neg hcc
  | ret =>
    rw [Registers.skip_nil]
    exact (run_ret rfl).trans (run_of_pop (fun w r => { r with pc := w }) rfl).symm
  | retIf cc =>
    rw [Registers.skip_nil, run_retIf rfl]
    by_cases hcc : cc.holds r.flags = true
    · refine (if_pos hcc).trans (run_of_pop (fun w r => { r with pc := w }) ?_).symm
      exact if_pos hcc
    · refine (if_neg hcc).trans (run_of_registers ?_).symm
      exact if_neg hcc
  | reti =>
    rw [Registers.skip_nil]
    exact (run_ret rfl).trans
      (run_of_pop (fun w r => { r with pc := w, ime := .enabled }) rfl).symm
  | rst v =>
    rw [Registers.skip_nil]
    exact (run_rst rfl).trans (run_of_writes rfl).symm
  | push hp =>
    rw [Registers.skip_nil]
    exact (run_push hp rfl).trans (run_of_writes rfl).symm
  | @pop p hp =>
    rw [Registers.skip_nil]
    exact (run_pop rfl).trans (run_of_pop (fun w r => r.setPair w p) rfl).symm

lemma ExtendedForm.run_eq (h : ExtendedForm i bytes) (hm : Memory.Holds m r.pc bytes) :
    (Routine.instruction i).run r m = i.run (r.skip bytes) m := by
  cases h with
  | shift hk ho b =>
    simp only [Kind.shifts, List.mem_cons, List.not_mem_nil, or_false] at hk
    cases ho with
    | reg x =>
      rcases hk with rfl | rfl | rfl | rfl | rfl | rfl | rfl | rfl
      all_goals exact (run_second rfl hm).trans (run_of_registers rfl).symm
    | hl =>
      rcases hk with rfl | rfl | rfl | rfl | rfl | rfl | rfl | rfl
      all_goals exact (run_second_modify rfl hm).trans (run_of_modify rfl).symm
  | testBit hn ho b =>
    cases ho with
    | reg x => exact (run_second rfl hm).trans (run_of_registers rfl).symm
    | hl => exact (run_second_read rfl hm).trans (run_of_read rfl).symm
  | changeBit hk hn ho b =>
    simp only [Kind.bitChanges, List.mem_cons, List.not_mem_nil, or_false] at hk
    cases ho with
    | reg x =>
      rcases hk with rfl | rfl
      all_goals exact (run_second rfl hm).trans (run_of_registers rfl).symm
    | hl =>
      rcases hk with rfl | rfl
      all_goals exact (run_second_modify rfl hm).trans (run_of_modify rfl).symm

/-- **A program does what its instruction does in one go**, after the operand bytes that the
instruction was decoded from. -/
theorem Form.run_eq (h : Form i bytes) (hm : Memory.Holds m r.pc bytes) :
    (Routine.instruction i).run r m = i.run (r.skip bytes) m := by
  cases h with
  | plain h => exact h.run_eq
  | load h => exact h.run_eq hm
  | arithmetic h => exact h.run_eq hm
  | jump h => exact h.run_eq hm
  | stack h => exact h.run_eq hm
  | extended h => exact h.run_eq hm

end Instruction

end Handheld
