/-
# Consoles that come about

A console starts around a cartridge that has been loaded; then it runs, cycle by cycle or step by
step, and its registers are set from outside at any time.  The main statement,
`Console.Reachable.safe`, says that none of this fails: every access is answered, whatever is
indexed is long enough, and every step comes to its end.
-/
import Handheld.Console
import Handheld.Proofs.MemoryMap.Console

namespace Handheld

/-! ## Bit numbers -/

/-- A bit that an instruction names is one of a byte. -/
lemma Instruction.Form.bit_lt {i : Instruction} {bytes : List UInt8} {n : UInt8}
    (h : i.Form bytes) (hn : i.first = some (.bit n)) : n < 8 := by
  cases h with
  | plain h =>
    cases h with
    | stop b =>
      dsimp only at hn
      split at hn <;> cases hn
    | _ => cases hn
  | load h => cases h <;> cases hn
  | arithmetic h =>
    cases h with
    | inc ho | dec ho | compare hk ho => cases ho <;> cases hn
    | _ => cases hn
  | jump h => cases h <;> cases hn
  | stack h => cases h <;> cases hn
  | extended h =>
    cases h with
    | shift hk ho b => cases ho <;> cases hn
    | testBit hn' ho b | changeBit hk hn' ho b =>
      obtain rfl := Operand.bit.inj (Option.some.inj hn)
      exact hn'

lemma Interrupt.bit_lt (i : Interrupt) : i.bit < 8 := by
  cases i <;> decide

/-- Whether everything that a machine indexes, counts from or shifts by is in range. -/
structure Machine.InRange (s : Machine MemoryMap) : Prop where
  /-- The program in flight has a micro-operation at its cursor. -/
  cursor : ∀ x, s.cpu.phase = .executing x → x.cursor < x.program.ops.length
  /-- So has every program at its start, where an interrupt's is entered without a fetch. -/
  start : ∀ r : Routine, 0 < r.program.ops.length
  bit : ∀ x i n, s.cpu.phase = .executing x → x.routine = .instruction i →
    i.first = some (.bit n) → n < 8
  mask : ∀ i : Interrupt, i.bit < 8
  access : ∀ a, s.memory.InRange a

lemma Machine.Sound.inRange {s : Machine MemoryMap} (h : s.Sound MemoryMap.Sound) : s.InRange := by
  refine ⟨fun x hx => (h.flight x hx).cursor, fun r => (fits_program r).1, ?_, Interrupt.bit_lt,
    h.memory.inRange⟩
  intro x i n hx hi hn
  obtain ⟨bytes, hform⟩ := (h.flight x hx).form i hi
  exact hform.bit_lt hn

namespace Console

/-- The consoles that come about. -/
inductive Reachable : Console → Prop
  | start {image : ByteArray} {cartridge : Cartridge} {notices : List Cartridge.Notice}
      (h : Cartridge.load image = .ok (cartridge, notices)) (model : Model)
      (bootProgram : Option ByteArray) : Reachable (.start cartridge model bootProgram)
  /-- The registers are set from outside. -/
  | assign {c : Console} (h : Reachable c) (r : Registers) :
      Reachable { c with machine.cpu.registers := r }
  | tick {c : Console} (h : Reachable c) : Reachable { c with machine := c.machine.tick.2 }
  | step {c : Console} (h : Reachable c) : Reachable { c with machine := c.machine.step.2 }

variable {c : Console}

lemma sound_start {cartridge : Cartridge} (h : cartridge.Stored) (model : Model)
    (bootProgram : Option ByteArray) :
    (start cartridge model bootProgram).machine.Sound MemoryMap.Sound := by
  refine ⟨MemoryMap.sound_console h bootProgram, ?_⟩
  intro x hx
  cases bootProgram <;> cases hx

/-- A console stays sound, whatever is done to it. -/
lemma Reachable.sound (h : c.Reachable) : c.machine.Sound MemoryMap.Sound := by
  -- registers do not enter into soundness, so setting them keeps it
  induction h with
  | start h model bootProgram => exact sound_start (Cartridge.stored_of_load h) model bootProgram
  | assign h r ih => exact ⟨ih.memory, ih.flight⟩
  | tick h ih =>
    obtain ⟨b, -, htick⟩ := ih.tick MemoryMap.answers_sound
    exact htick
  | step h ih =>
    obtain ⟨k, t, u, -, -, -, -, hstep, hu⟩ := ih.exists_step MemoryMap.answers_sound
    dsimp only
    rw [hstep]
    exact hu

/-- **A console never fails.**  A tick answers.  A step is one to seven ticks of which the last is
the first to end an instruction.  What is indexed on the way is long enough. -/
theorem Reachable.safe (h : c.Reachable) :
    (∃ b, c.machine.tick.1 = .ok b) ∧
      (∃ k t u, k < 7 ∧ Machine.Runs k c.machine t ∧ t.tick = (.ok true, u) ∧
        u.cpu.phase = .fetching ∧ c.machine.step = (.ok (k + 1), u)) ∧
      c.machine.InRange := by
  have hsound := h.sound
  obtain ⟨b, htick, -⟩ := hsound.tick MemoryMap.answers_sound
  obtain ⟨k, t, u, hk, hruns, hend, hphase, hstep, -⟩ :=
    hsound.exists_step MemoryMap.answers_sound
  exact ⟨⟨b, htick⟩, ⟨k, t, u, hk, hruns, hend, hphase, hstep⟩, hsound.inRange⟩

lemma exists_load_blank : ∃ result, Cartridge.load (Bytes.fill 0x150 0) = .ok result := by
  have hsize : Header.size ≤ (Bytes.fill 0x150 0).size := by
    rw [Bytes.size_fill]
    exact Nat.le_refl _
  have hmapper : (Header.mk (Bytes.fill 0x150 0)).mapper? = some .romOnly := by
    decide +kernel
  obtain ⟨c, notices, hload, -⟩ := Cartridge.exists_load hsize hmapper
  exact ⟨(c, notices), hload⟩

/-- A console around a blank cartridge, with its registers set after a tick, is safe. -/
theorem blank_safe : ∃ cartridge notices,
    Cartridge.load (Bytes.fill 0x150 0) = .ok (cartridge, notices) ∧
      ∃ c : Console, c.Reachable ∧ c.machine.cpu.registers.pc = 0xFFFF ∧
        (∃ b, c.machine.tick.1 = .ok b) ∧
        (∃ k u, k < 7 ∧ c.machine.step = (.ok (k + 1), u)) ∧ c.machine.InRange := by
  obtain ⟨⟨cartridge, notices⟩, hload⟩ := exists_load_blank
  have hreachable := (Reachable.start hload .standard none).tick.assign { pc := 0xFFFF }
  obtain ⟨htick, ⟨k, t, u, hk, -, -, -, hstep⟩, hrange⟩ := hreachable.safe
  exact ⟨cartridge, notices, hload, _, hreachable, rfl, htick, ⟨k, u, hk, hstep⟩, hrange⟩

end Console

end Handheld
