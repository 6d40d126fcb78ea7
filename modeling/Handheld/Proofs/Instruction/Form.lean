/-
# Forms of instructions

The opcode table has five hundred entries but few patterns.  `Form` lists them: each is a kind with
operands of given sorts, beside the bytes that come after the first one.  What is decoded has one
of these forms (`form_of_mem`), so a law about every instruction is a law about every form.
-/
import Handheld.Proofs.Instruction.OpcodeTable

namespace Handheld

namespace Kind

/-- The kinds without operands that leave memory and control alone. -/
def plain : List Kind :=
  [nop, rlca, rrca, rla, rra, daa, cpl, scf, ccf, halt, di, ei]

/-- The operations on the accumulator and a source that name the accumulator. -/
def sums : List Kind :=
  [add, adc, sbc]

/-- The operations on the accumulator and a source that leave the accumulator unnamed. -/
def comparisons : List Kind :=
  [sub, and, xor, or, cp]

/-- The shifts of the extended opcodes. -/
def shifts : List Kind :=
  [rlc, rrc, rl, rr, sla, sra, swap, srl]

/-- The operations that store a bit. -/
def bitChanges : List Kind :=
  [res, set]

end Kind

/-- The operands that an operation on bytes can work on without bytes of its own: a register, or
the byte that `HL` points to. -/
inductive Operand.IsColumn : Operand → Prop
  | reg (x : Register) : IsColumn (.reg x)
  | hl : IsColumn (.indirect .hl)

namespace Instruction

/-! ## The forms, with the bytes after the first -/

/-- Instructions that neither move a byte between places nor transfer control. -/
inductive PlainForm : Instruction → List UInt8 → Prop
  | plain {k : Kind} (hk : k ∈ Kind.plain) : PlainForm ⟨k, none, none⟩ []
  | invalid (b : UInt8) : PlainForm ⟨.invalid, some (.imm8 b), none⟩ []
  | stop (b : UInt8) : PlainForm ⟨.stop, if b = 0 then none else some (.imm8 b), none⟩ [b]

/-- Loads between registers and memory. -/
inductive LoadForm : Instruction → List UInt8 → Prop
  | reg (x y : Register) : LoadForm ⟨.ld, some (.reg x), some (.reg y)⟩ []
  | byte (x : Register) (b : UInt8) : LoadForm ⟨.ld, some (.reg x), some (.imm8 b)⟩ [b]
  | hlByte (b : UInt8) : LoadForm ⟨.ld, some (.indirect .hl), some (.imm8 b)⟩ [b]
  | fetch {x : Register} {p : Indirect} (h : p = .hl ∨ x = .a) :
      LoadForm ⟨.ld, some (.reg x), some (.indirect p)⟩ []
  | put {x : Register} {p : Indirect} (h : p = .hl ∨ x = .a) :
      LoadForm ⟨.ld, some (.indirect p), some (.reg x)⟩ []
  | fetchDirect (lo hi : UInt8) :
      LoadForm ⟨.ld, some (.reg .a), some (.direct (Word.ofBytes hi lo))⟩ [lo, hi]
  | putDirect (lo hi : UInt8) :
      LoadForm ⟨.ld, some (.direct (Word.ofBytes hi lo)), some (.reg .a)⟩ [lo, hi]
  | fetchHigh (b : UInt8) : LoadForm ⟨.ldh, some (.reg .a), some (.highOffset b)⟩ [b]
  | putHigh (b : UInt8) : LoadForm ⟨.ldh, some (.highOffset b), some (.reg .a)⟩ [b]
  | fetchHighC : LoadForm ⟨.ldh, some (.reg .a), some .highC⟩ []
  | putHighC : LoadForm ⟨.ldh, some .highC, some (.reg .a)⟩ []
  | word {p : Pair} (hp : p ≠ .af) (lo hi : UInt8) :
      LoadForm ⟨.ld, some (.pair p), some (.imm16 (Word.ofBytes hi lo))⟩ [lo, hi]
  | putStack (lo hi : UInt8) :
      LoadForm ⟨.ld, some (.direct (Word.ofBytes hi lo)), some (.pair .sp)⟩ [lo, hi]
  | stack : LoadForm ⟨.ld, some (.pair .sp), some (.pair .hl)⟩ []
  | offset (e : UInt8) : LoadForm ⟨.ld, some (.pair .hl), some (.spRel e)⟩ [e]

/-- Arithmetic on bytes and on words. -/
inductive ArithmeticForm : Instruction → List UInt8 → Prop
  | inc {o : Operand} (ho : o.IsColumn) : ArithmeticForm ⟨.inc, some o, none⟩ []
  | dec {o : Operand} (ho : o.IsColumn) : ArithmeticForm ⟨.dec, some o, none⟩ []
  | incPair {p : Pair} (hp : p ≠ .af) : ArithmeticForm ⟨.inc, some (.pair p), none⟩ []
  | decPair {p : Pair} (hp : p ≠ .af) : ArithmeticForm ⟨.dec, some (.pair p), none⟩ []
  | addPair {p : Pair} (hp : p ≠ .af) :
      ArithmeticForm ⟨.add, some (.pair .hl), some (.pair p)⟩ []
  | addOffset (e : UInt8) : ArithmeticForm ⟨.add, some (.pair .sp), some (.rel8 e)⟩ [e]
  | sum {k : Kind} (hk : k ∈ Kind.sums) {o : Operand} (ho : o.IsColumn) :
      ArithmeticForm ⟨k, some (.reg .a), some o⟩ []
  | sumByte {k : Kind} (hk : k ∈ Kind.sums) (b : UInt8) :
      ArithmeticForm ⟨k, some (.reg .a), some (.imm8 b)⟩ [b]
  | compare {k : Kind} (hk : k ∈ Kind.comparisons) {o : Operand} (ho : o.IsColumn) :
      ArithmeticForm ⟨k, some o, none⟩ []
  | compareByte {k : Kind} (hk : k ∈ Kind.comparisons) (b : UInt8) :
      ArithmeticForm ⟨k, some (.imm8 b), none⟩ [b]

/-- Jumps. -/
inductive JumpForm : Instruction → List UInt8 → Prop
  | jr (e : UInt8) : JumpForm ⟨.jr, some (.rel8 e), none⟩ [e]
  | jrIf (cc : Condition) (e : UInt8) : JumpForm ⟨.jr, some (.cond cc), some (.rel8 e)⟩ [e]
  | jp (lo hi : UInt8) : JumpForm ⟨.jp, some (.imm16 (Word.ofBytes hi lo)), none⟩ [lo, hi]
  | jpIf (cc : Condition) (lo hi : UInt8) :
      JumpForm ⟨.jp, some (.cond cc), some (.imm16 (Word.ofBytes hi lo))⟩ [lo, hi]
  | jpHl : JumpForm ⟨.jp, some (.pair .hl), none⟩ []

/-- Instructions that work on the stack. -/
inductive StackForm : Instruction → List UInt8 → Prop
  | call (lo hi : UInt8) : StackForm ⟨.call, some (.imm16 (Word.ofBytes hi lo)), none⟩ [lo, hi]
  | callIf (cc : Condition) (lo hi : UInt8) :
      StackForm ⟨.call, some (.cond cc), some (.imm16 (Word.ofBytes hi lo))⟩ [lo, hi]
  | ret : StackForm ⟨.ret, none, none⟩ []
  | retIf (cc : Condition) : StackForm ⟨.ret, some (.cond cc), none⟩ []
  | reti : StackForm ⟨.reti, none, none⟩ []
  | rst (v : UInt8) : StackForm ⟨.rst, some (.vector v), none⟩ []
  | push {p : Pair} (hp : p ≠ .sp) : StackForm ⟨.push, some (.pair p), none⟩ []
  | pop {p : Pair} (hp : p ≠ .sp) : StackForm ⟨.pop, some (.pair p), none⟩ []

/-- The extended instructions.  The byte after the first is their opcode. -/
inductive ExtendedForm : Instruction → List UInt8 → Prop
  | shift {k : Kind} (hk : k ∈ Kind.shifts) {o : Operand} (ho : o.IsColumn) (b : UInt8) :
      ExtendedForm ⟨k, some o, none⟩ [b]
  | testBit {n : UInt8} (hn : n < 8) {o : Operand} (ho : o.IsColumn) (b : UInt8) :
      ExtendedForm ⟨.bit, some (.bit n), some o⟩ [b]
  | changeBit {k : Kind} (hk : k ∈ Kind.bitChanges) {n : UInt8} (hn : n < 8) {o : Operand}
      (ho : o.IsColumn) (b : UInt8) : ExtendedForm ⟨k, some (.bit n), some o⟩ [b]

/-- The forms of instructions with the bytes after the first. -/
inductive Form (i : Instruction) (bytes : List UInt8) : Prop
  | plain (h : PlainForm i bytes)
  | load (h : LoadForm i bytes)
  | arithmetic (h : ArithmeticForm i bytes)
  | jump (h : JumpForm i bytes)
  | stack (h : StackForm i bytes)
  | extended (h : ExtendedForm i bytes)

end Instruction

namespace Opcode

open Instruction

/-! ## The columns and pairs of the table -/

lemma isColumn_column (y : Nat) : (column y).IsColumn := by
  unfold column
  split
  all_goals first
    | exact .reg _
    | exact .hl

lemma eq_six_of_column {y : Nat} (h : column y = .indirect .hl) : y = 6 := by
  unfold column at h
  split at h
  all_goals first
    | rfl
    | cases h

lemma wordPair_ne_af (p : Nat) : wordPair p ≠ .af := by
  unfold wordPair
  split <;> decide

lemma stackPair_ne_sp (p : Nat) : stackPair p ≠ .sp := by
  unfold stackPair
  split <;> decide

lemma accumulatorKind_mem (y : Nat) : accumulatorKind y ∈ Kind.plain := by
  unfold accumulatorKind
  split <;> decide

lemma shiftKind_mem (y : Nat) : shiftKind y ∈ Kind.shifts := by
  unfold shiftKind
  split <;> decide

/-! ## The entries of the table -/

/-- Whether an entry makes one of the forms of the bytes in its slots. -/
def Entry.HasForm (e : Entry) : Prop :=
  ∀ bytes, bytes.length = e.width → Form (e.fill bytes) bytes

namespace Entry.HasForm

variable {e : Entry}

lemma nil (hwidth : e.width = 0) (h : Form (e.fill []) []) : e.HasForm := by
  intro bytes hlen
  obtain rfl := List.eq_nil_of_length_eq_zero (hlen.trans hwidth)
  exact h

lemma byte (hwidth : e.width = 1) (h : ∀ b, Form (e.fill [b]) [b]) : e.HasForm := by
  intro bytes hlen
  obtain ⟨b, rfl⟩ := List.length_eq_one_iff.mp (hlen.trans hwidth)
  exact h b

lemma word (hwidth : e.width = 2) (h : ∀ lo hi, Form (e.fill [lo, hi]) [lo, hi]) : e.HasForm := by
  intro bytes hlen
  obtain ⟨lo, hi, rfl⟩ := List.length_eq_two.mp (hlen.trans hwidth)
  exact h lo hi

end Entry.HasForm

lemma hasForm_sum {k : Kind} (hk : k ∈ Kind.sums) {o : Operand} (ho : o.IsColumn) :
    Entry.HasForm ⟨k, some accumulator, some (.fixed o)⟩ :=
  .nil rfl (.arithmetic (.sum hk ho))

lemma hasForm_compare {k : Kind} (hk : k ∈ Kind.comparisons) {o : Operand} (ho : o.IsColumn) :
    Entry.HasForm ⟨k, some (.fixed o), none⟩ :=
  .nil rfl (.arithmetic (.compare hk ho))

lemma hasForm_arithmetic {o : Operand} (ho : o.IsColumn) (y : Nat) :
    (arithmetic y (.fixed o)).HasForm := by
  unfold arithmetic
  split
  · exact hasForm_sum (by decide) ho
  · exact hasForm_sum (by decide) ho
  · exact hasForm_compare (by decide) ho
  · exact hasForm_sum (by decide) ho
  all_goals exact hasForm_compare (by decide) ho

lemma hasForm_arithmetic_imm8 (y : Nat) : (arithmetic y .imm8).HasForm := by
  unfold arithmetic
  split
  · exact .byte rfl fun b => .arithmetic (.sumByte (by decide) b)
  · exact .byte rfl fun b => .arithmetic (.sumByte (by decide) b)
  · exact .byte rfl fun b => .arithmetic (.compareByte (by decide) b)
  · exact .byte rfl fun b => .arithmetic (.sumByte (by decide) b)
  all_goals exact .byte rfl fun b => .arithmetic (.compareByte (by decide) b)

/-- A load between columns, of which the table has all but the one from memory to memory. -/
lemma hasForm_load {o o' : Operand} (ho : o.IsColumn) (ho' : o'.IsColumn)
    (hne : ¬ (o = .indirect .hl ∧ o' = .indirect .hl)) :
    Entry.HasForm ⟨.ld, some (.fixed o), some (.fixed o')⟩ := by
  cases ho with
  | reg x =>
    cases ho' with
    | reg y => exact .nil rfl (.load (.reg x y))
    | hl => exact .nil rfl (.load (.fetch (.inl rfl)))
  | hl =>
    cases ho' with
    | reg y => exact .nil rfl (.load (.put (.inl rfl)))
    | hl => exact absurd ⟨rfl, rfl⟩ hne

lemma hasForm_loadByte {o : Operand} (ho : o.IsColumn) :
    Entry.HasForm ⟨.ld, some (.fixed o), some .imm8⟩ := by
  cases ho with
  | reg x => exact .byte rfl fun b => .load (.byte x b)
  | hl => exact .byte rfl fun b => .load (.hlByte b)

lemma hasForm_fetch (p : Nat) :
    Entry.HasForm ⟨.ld, some accumulator, some (.fixed (pointer p))⟩ := by
  unfold pointer
  split
  all_goals exact .nil rfl (.load (.fetch (.inr rfl)))

lemma hasForm_put (p : Nat) :
    Entry.HasForm ⟨.ld, some (.fixed (pointer p)), some accumulator⟩ := by
  unfold pointer
  split
  all_goals exact .nil rfl (.load (.put (.inr rfl)))

lemma hasForm_lowQuadrant (y z : Nat) : (lowQuadrant y z).HasForm := by
  unfold lowQuadrant
  dsimp only
  split
  · split
    · exact .nil rfl (.plain (.plain (by decide)))
    · exact .word rfl fun lo hi => .load (.putStack lo hi)
    · exact .byte rfl fun b => .plain (.stop b)
    · exact .byte rfl fun e => .jump (.jr e)
    · exact .byte rfl fun e => .jump (.jrIf _ e)
  · split
    · exact .word rfl fun lo hi => .load (.word (wordPair_ne_af _) lo hi)
    · exact .nil rfl (.arithmetic (.addPair (wordPair_ne_af _)))
  · split
    · exact hasForm_put _
    · exact hasForm_fetch _
  · split
    · exact .nil rfl (.arithmetic (.incPair (wordPair_ne_af _)))
    · exact .nil rfl (.arithmetic (.decPair (wordPair_ne_af _)))
  · exact .nil rfl (.arithmetic (.inc (isColumn_column y)))
  · exact .nil rfl (.arithmetic (.dec (isColumn_column y)))
  · exact hasForm_loadByte (isColumn_column y)
  · exact .nil rfl (.plain (.plain (accumulatorKind_mem y)))

lemma hasForm_highQuadrant (op : UInt8) (y z : Nat) : (highQuadrant op y z).HasForm := by
  unfold highQuadrant
  dsimp only
  split
  · split
    · exact .byte rfl fun b => .load (.putHigh b)
    · exact .byte rfl fun e => .arithmetic (.addOffset e)
    · exact .byte rfl fun b => .load (.fetchHigh b)
    · exact .byte rfl fun e => .load (.offset e)
    · exact .nil rfl (.stack (.retIf _))
  · split
    · exact .nil rfl (.stack (.pop (stackPair_ne_sp _)))
    · split
      · exact .nil rfl (.stack .ret)
      · exact .nil rfl (.stack .reti)
      · exact .nil rfl (.jump .jpHl)
      · exact .nil rfl (.load .stack)
  · split
    · exact .nil rfl (.load .putHighC)
    · exact .word rfl fun lo hi => .load (.putDirect lo hi)
    · exact .nil rfl (.load .fetchHighC)
    · exact .word rfl fun lo hi => .load (.fetchDirect lo hi)
    · exact .word rfl fun lo hi => .jump (.jpIf _ lo hi)
  · split
    · exact .word rfl fun lo hi => .jump (.jp lo hi)
    · exact .nil rfl (.plain (.plain (by decide)))
    · exact .nil rfl (.plain (.plain (by decide)))
    · exact .nil rfl (.plain (.invalid op))
  · split
    · exact .word rfl fun lo hi => .stack (.callIf _ lo hi)
    · exact .nil rfl (.plain (.invalid op))
  · split
    · exact .nil rfl (.stack (.push (stackPair_ne_sp _)))
    · split
      · exact .word rfl fun lo hi => .stack (.call lo hi)
      · exact .nil rfl (.plain (.invalid op))
  · exact hasForm_arithmetic_imm8 y
  · exact .nil rfl (.stack (.rst _))

lemma hasForm_base (b : UInt8) : (base b).entry.HasForm := by
  show (baseEntry b).HasForm
  unfold baseEntry
  dsimp only
  split
  · exact hasForm_lowQuadrant _ _
  · split
    · exact .nil rfl (.plain (.plain (by decide)))
    · refine hasForm_load (isColumn_column _) (isColumn_column _) ?_
      -- the byte whose columns are both memory is `HALT`
      rintro ⟨hy, hz⟩
      have hy := eq_six_of_column hy
      have hz := eq_six_of_column hz
      have hb : b.toNat = 0x76 := by omega
      exact absurd (UInt8.toNat.inj hb) ‹_›
  · exact hasForm_arithmetic (isColumn_column _) _
  · exact hasForm_highQuadrant _ _ _

/-- An entry of the extended table makes one of the forms, with its second byte. -/
lemma form_extended (b : UInt8) : Form ((extended b).entry.fill []) [b] := by
  show Form ((extendedEntry b).fill []) [b]
  unfold extendedEntry
  dsimp only
  have hn : UInt8.ofNat (b.toNat / 8 % 8) < 8 := by
    rw [UInt8.lt_iff_toNat_lt, UInt8.toNat_ofNat']
    exact Nat.lt_of_le_of_lt (Nat.mod_le _ _) (Nat.mod_lt _ (by decide))
  split
  · exact .extended (.shift (shiftKind_mem _) (isColumn_column _) b)
  · exact .extended (.testBit hn (isColumn_column _) b)
  · exact .extended (.changeBit (k := .res) (by decide) hn (isColumn_column _) b)
  · exact .extended (.changeBit (k := .set) (by decide) hn (isColumn_column _) b)

lemma width_extended (b : UInt8) : (extended b).entry.width = 0 := by
  show (extendedEntry b).width = 0
  unfold extendedEntry
  dsimp only
  split <;> rfl

end Opcode

/-- **An instruction of the table has one of the forms**, with the bytes that come after its
first. -/
theorem Instruction.form_of_mem {op : Opcode} {bytes : List UInt8}
    (hlen : bytes.length = op.entry.width) :
    Form (op.entry.fill bytes) (op.bytes ++ bytes).tail := by
  cases op with
  | base b => exact Opcode.hasForm_base b bytes hlen
  | extended b =>
    obtain rfl := List.eq_nil_of_length_eq_zero (hlen.trans (Opcode.width_extended b))
    exact Opcode.form_extended b

end Handheld
