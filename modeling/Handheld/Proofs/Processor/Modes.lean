/-
# What instructions leave alone

What a processor does between two instructions is decided by its master enable and by its sleep, and
whether a program ends early by the flags.  A micro-operation changes none of them
(`MicroOp.perform_keeps`): they change with the effect of the instruction, and of the first two the
effect changes what `Instruction.modes_effect` says.
-/
import Mathlib.Tactic.Lemma
import Handheld.Processor.Effect

namespace Handheld

/-- The master enable and the sleep. -/
def Registers.modes (r : Registers) : MasterEnable × Bool :=
  (r.ime, r.halted)

namespace Registers

variable {r : Registers}

@[simp] lemma modes_set (v : UInt8) (x : Register) : (r.set v x).modes = r.modes := by
  cases x <;> rfl

@[simp] lemma modes_setPair (w : UInt16) (p : Pair) : (r.setPair w p).modes = r.modes := by
  cases p <;> rfl

end Registers

namespace Datapath

variable {d : Datapath}

@[simp] lemma modes_setFlags (f : Flags) : (d.setFlags f).registers.modes = d.registers.modes := rfl

@[simp] lemma modes_store (v : UInt8) (o : Option Operand) :
    (d.store v o).registers.modes = d.registers.modes := by
  unfold store
  split
  · exact Registers.modes_set _ _
  · rfl

@[simp] lemma modes_storeResult (r : Arithmetic.Result) (o : Option Operand) :
    (d.storeResult r o).registers.modes = d.registers.modes :=
  modes_store _ _

@[simp] lemma modes_accumulate (r : Arithmetic.Result) :
    (d.accumulate r).registers.modes = d.registers.modes :=
  modes_storeResult _ _

@[simp] lemma modes_setPair (w : UInt16) (p : Pair) :
    (d.setPair w p).registers.modes = d.registers.modes :=
  Registers.modes_setPair _ _

@[simp] lemma modes_jump (a : Address) : (d.jump a).registers.modes = d.registers.modes := rfl

end Datapath

namespace Instruction

variable {i : Instruction} {d : Datapath}

/-! ## Effects -/

/-- Whether an instruction sets the master enable. -/
def setsEnable (i : Instruction) : Prop :=
  i.kind = .di ∨ i.kind = .ei ∨ i.kind = .reti

/-- The master enable after the effect of an instruction. -/
def enableOf (i : Instruction) (e : MasterEnable) : MasterEnable :=
  match i.kind with
  | .di => .disabled
  | .ei => if e = .disabled then .requested else e
  | .reti => .enabled
  | _ => e

lemma enableOf_of_not_setsEnable (h : ¬ i.setsEnable) (e : MasterEnable) : i.enableOf e = e := by
  unfold enableOf
  unfold setsEnable at h
  split <;> simp_all

lemma modes_loadEffect (first second : Option Operand) :
    (loadEffect d first second).registers.modes = d.registers.modes := by
  unfold loadEffect
  split <;> simp

lemma modes_addEffect (first second : Option Operand) :
    (addEffect d first second).registers.modes = d.registers.modes := by
  unfold addEffect
  split <;> simp

lemma modes_sourceEffect (kind : Kind) (v : UInt8) :
    (sourceEffect d kind v).registers.modes = d.registers.modes := by
  unfold sourceEffect
  split <;> simp

lemma modes_stepEffect (up : Bool) (o : Option Operand) :
    (stepEffect d up o).registers.modes = d.registers.modes := by
  unfold stepEffect
  split <;> simp

lemma modes_bitEffect (kind : Kind) (n : UInt8) (o : Option Operand) :
    (bitEffect d kind n o).registers.modes = d.registers.modes := by
  unfold bitEffect
  dsimp only
  split <;> simp

/-- The effect of an instruction on the master enable and the sleep. -/
lemma modes_effect (i : Instruction) (d : Datapath) :
    (i.effect d).registers.modes =
      (i.enableOf d.registers.ime, if i.kind = .stop then true else d.registers.halted) := by
  unfold effect enableOf
  cases hkind : i.kind with
  | ld | ldh => exact modes_loadEffect _ _
  | inc | dec => exact modes_stepEffect _ _
  | add => exact modes_addEffect _ _
  | sub | and | xor | or | cp => exact modes_sourceEffect _ _
  | ei =>
    dsimp only
    split <;> rfl
  | rlca | rrca | rla | rra | rlc | rrc | rl | rr | sla | sra | swap | srl =>
    dsimp only
    split
    · exact Datapath.modes_storeResult _ _
    · rfl
  | jp | rst =>
    dsimp only
    split <;> rfl
  | pop =>
    dsimp only
    split
    · exact Datapath.modes_setPair _ _
    · rfl
  | bit | res | set =>
    dsimp only
    split
    · exact modes_bitEffect _ _ _
    · rfl
  | _ => rfl

lemma ime_effect (i : Instruction) (d : Datapath) :
    (i.effect d).registers.ime = i.enableOf d.registers.ime :=
  congrArg Prod.fst (i.modes_effect d)

lemma halted_effect (h : i.kind ≠ .stop) (d : Datapath) :
    (i.effect d).registers.halted = d.registers.halted :=
  (congrArg Prod.snd (i.modes_effect d)).trans (if_neg h)

end Instruction

/-! ## Micro-operations -/

/-- Whether two register files have the same flags, master enable and sleep. -/
def Registers.SameStatus (r r' : Registers) : Prop :=
  r'.flags = r.flags ∧ r'.modes = r.modes

lemma Datapath.moveStack_keeps (d : Datapath) (w : UInt16) :
    d.registers.SameStatus (d.moveStack w).registers := by
  rw [moveStack]
  exact ⟨rfl, rfl⟩

namespace MicroOp

variable {M : Type} [Memory M] {op : MicroOp} {d d' : Datapath} {m m' : M}
  {result : Except MemoryError Unit}

lemma issue_keeps (op : MicroOp) (d : Datapath) :
    d.registers.SameStatus (op.issue d).1.registers := by
  cases op with
  | read p | write p s => cases p <;> exact ⟨rfl, rfl⟩
  | pushHigh s | pushLow s => exact d.moveStack_keeps _
  | _ => exact ⟨rfl, rfl⟩

lemma latch_keeps (op : MicroOp) (d : Datapath) (v : UInt8) :
    d.registers.SameStatus (op.latch d v).registers := by
  cases op <;> exact ⟨rfl, rfl⟩

/-- A micro-operation leaves flags, master enable and sleep as they are, also when its access
fails. -/
lemma perform_keeps (h : op.perform d m = (result, d', m')) :
    d.registers.SameStatus d'.registers := by
  have hissue := op.issue_keeps d
  unfold perform at h
  rcases hcycle : op.issue d with ⟨e, _ | a | ⟨a, v⟩⟩
  all_goals
    rw [hcycle] at h hissue
    dsimp only at h
  · obtain ⟨-, rfl, -⟩ := h
    exact hissue
  · split at h
    · rename_i v _
      obtain ⟨-, rfl, -⟩ := h
      obtain ⟨hflags, hmodes⟩ := op.latch_keeps e v
      exact ⟨hflags.trans hissue.1, hmodes.trans hissue.2⟩
    · obtain ⟨-, rfl, -⟩ := h
      exact hissue
  · obtain ⟨-, rfl, -⟩ := h
    exact hissue

lemma ime_perform (h : op.perform d m = (result, d', m')) :
    d'.registers.ime = d.registers.ime :=
  congrArg Prod.fst (perform_keeps h).2

lemma halted_perform (h : op.perform d m = (result, d', m')) :
    d'.registers.halted = d.registers.halted :=
  congrArg Prod.snd (perform_keeps h).2

end MicroOp

end Handheld
