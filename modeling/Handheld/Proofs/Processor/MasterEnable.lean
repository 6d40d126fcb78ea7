/-
# The master enable

`DI`, `EI` and `RETI` set the interrupt master enable with their last micro-operation, and no other
instruction touches it before its end.  At its end an instruction that is not `EI` grants an enable
that was asked for.  The main statement, `Machine.next_completion_enable`, says what becomes of an
enable that was asked for: it waits for the next instruction, during which no interrupt is
answered, and is granted or taken back by it, unless that instruction is `EI`.
-/
import Handheld.Proofs.Processor.Modes
import Handheld.Proofs.Processor.Step

namespace Handheld

/-- What an instruction makes of an enable that was asked for. -/
lemma Instruction.enableAfter_enableOf_requested (i : Instruction) :
    i.enableAfter (i.enableOf .requested) =
      if i.kind = .di then .disabled else if i.kind = .ei then .requested else .enabled := by
  unfold enableAfter enableOf
  cases i.kind <;> rfl

/-- An instruction that sets the master enable does so at its end, whatever the flags. -/
lemma Program.effect_last {i : Instruction} (h : i.setsEnable) :
    (ofInstruction i).effectAt = some ((ofInstruction i).ops.length - 1) ∧
      (ofInstruction i).branch = none := by
  unfold ofInstruction
  rcases h with h | h | h
  all_goals
    rw [h]
    exact ⟨rfl, rfl⟩

variable {M : Type} [Memory M]

namespace Machine

variable {cpu cpu' : Cpu} {m m' : M} {x : Flight} {i j : Instruction} {s t u v w : Machine M}
  {b : Bool}

/-! ## Cycles -/

/-- The end of an instruction grants an enable that was asked for before. -/
lemma ime_finish (hx : x.routine = .instruction i) (h : finish cpu m x = (.ok b, t)) :
    b = true ∧ t.cpu.phase = cpu.phase ∧
      t.cpu.registers.ime = i.enableAfter cpu.registers.ime := by
  rw [finish_eq_conclude cpu m hx] at h
  unfold Instruction.conclude at h
  dsimp only at h
  by_cases hhalt : i.kind = .halt
  · rw [if_pos hhalt] at h
    cases hpoll : Interrupt.poll m with
    | error e =>
      rw [hpoll] at h
      cases h
    | ok pending =>
      rw [hpoll] at h
      dsimp only [ok_bind] at h
      split_ifs at h
      all_goals
        obtain ⟨hb, rfl⟩ := Prod.mk.inj h
        exact ⟨(Except.ok.inj hb).symm, rfl, rfl⟩
  · rw [if_neg hhalt] at h
    obtain ⟨hb, rfl⟩ := Prod.mk.inj h
    exact ⟨(Except.ok.inj hb).symm, rfl, rfl⟩

/-- Whether an instruction is in flight at one of its micro-operations. -/
def Carries (s : Machine M) (i : Instruction) : Prop :=
  ∃ x, s.cpu.phase = .executing x ∧ x.routine = .instruction i ∧
    x.cursor < x.program.ops.length

/-- A cycle of an instruction either leaves it in flight and the master enable as it was, or ends
the instruction and does to the master enable all that the instruction does. -/
lemma ime_execute (hx : x.routine = .instruction i) (hcursor : x.cursor < x.program.ops.length)
    (h : execute cpu m x = (.ok b, t)) :
    b = false ∧ t.Carries i ∧ t.cpu.registers.ime = cpu.registers.ime ∨
      b = true ∧ t.cpu.phase = .fetching ∧
        t.cpu.registers.ime = i.enableAfter (i.enableOf cpu.registers.ime) := by
  obtain ⟨op, ops, hops⟩ : ∃ op ops, x.program.ops.drop x.cursor = op :: ops :=
    ⟨_, _, List.drop_eq_getElem_cons hcursor⟩
  have hlength : ops.length + x.cursor + 1 = x.program.ops.length := by
    have hlen := congrArg List.length hops
    rw [List.length_drop, List.length_cons] at hlen
    omega
  have hprogram : x.program = .ofInstruction i := congrArg Routine.program hx
  rcases hop : op.perform ⟨cpu.registers, x.z, x.w⟩ m with ⟨e | u, d, m'⟩
  · rw [execute_error cpu hops hop] at h
    cases h
  have hime : d.registers.ime = cpu.registers.ime := MicroOp.ime_perform hop
  have heffect : (x.routine.effect d).registers.ime = i.enableOf cpu.registers.ime := by
    rw [hx, ← hime]
    exact Instruction.ime_effect i d
  have hkeep (hi : ¬ i.setsEnable) :
      (x.routine.applyAt x.cursor d).registers.ime = cpu.registers.ime := by
    unfold Routine.applyAt
    split
    · rw [heffect, i.enableOf_of_not_setsEnable hi]
    · exact hime
  by_cases hend : ops = [] ∨
      x.program.takes x.cursor (x.routine.applyAt x.cursor d).registers.flags = false
  · right
    rw [execute_ends cpu hops hop rfl hend] at h
    obtain ⟨rfl, hphase, hfinish⟩ := ime_finish hx h
    refine ⟨rfl, by rw [hphase, Cpu.lockIf_phase], ?_⟩
    rw [hfinish, Cpu.lockIf_registers]
    refine congrArg i.enableAfter ?_
    by_cases hi : i.setsEnable
    · -- without a condition the program ends with its last micro-operation
      obtain ⟨hlast, hbranch⟩ := Program.effect_last hi
      rw [← hprogram] at hlast hbranch
      have hops : ops = [] := by
        rcases hend with hops | htakes
        · exact hops
        · rw [Program.takes, hbranch] at htakes
          cases htakes
      rw [hops, List.length_nil] at hlength
      have hat : x.routine.program.effectAt = some x.cursor := by
        rw [show x.routine.program = x.program from rfl, hlast]
        congr 1
        omega
      rw [Routine.applyAt, if_pos hat, heffect]
    · rw [hkeep hi, i.enableOf_of_not_setsEnable hi]
  · left
    obtain ⟨hne, htakes⟩ := not_or.mp hend
    rw [Bool.not_eq_false] at htakes
    rw [execute_goesOn cpu hops hne hop rfl htakes] at h
    obtain ⟨hb, rfl⟩ := Prod.mk.inj h
    have hpos := List.length_pos_iff.mpr hne
    refine ⟨(Except.ok.inj hb).symm,
      ⟨_, rfl, hx, show x.cursor + 1 < x.program.ops.length by omega⟩, ?_⟩
    refine (congrArg Registers.ime (Cpu.lockIf_registers _ _ _)).trans ?_
    by_cases hi : i.setsEnable
    · obtain ⟨hlast, -⟩ := Program.effect_last hi
      rw [← hprogram] at hlast
      have hat : ¬ x.routine.program.effectAt = some x.cursor := by
        rw [show x.routine.program = x.program from rfl, hlast, Option.some.injEq]
        omega
      rw [Routine.applyAt, if_neg hat]
      exact hime
    · exact hkeep hi

lemma ime_fetchInstruction (h : fetchInstruction cpu m = (.ok b, t)) :
    (∃ j, t.Carries j) ∧ t.cpu.registers.ime = cpu.registers.ime := by
  obtain ⟨e, pc, bug, -, hfetch⟩ | ⟨pc, j, opcode, journal, hfetch⟩ := fetchInstruction_cases cpu m
  · rw [hfetch] at h
    cases h
  · rw [hfetch] at h
    obtain ⟨-, rfl⟩ := Prod.mk.inj h
    exact ⟨⟨j, _, rfl, rfl, (Program.fits_ofInstruction j).1⟩, rfl⟩

/-- Whether the enable has been asked for, with an instruction in flight or none. -/
def Delays (s : Machine M) : Prop :=
  s.cpu.registers.ime = .requested ∧ (s.cpu.phase = .fetching ∨ ∃ j, s.Carries j)

/-- While the enable has only been asked for, no interrupt is answered between instructions. -/
lemma delays_fetch (cpu : Cpu) (hphase : cpu.phase = .fetching)
    (hime : cpu.registers.ime = .requested) (h : fetch cpu m = (.ok b, t)) : t.Delays := by
  obtain ⟨result, hfetch⟩ | ⟨-, hfetch⟩ | ⟨i, -, -, henabled, -⟩ := fetch_cases cpu m
  · rw [hfetch] at h
    obtain ⟨-, rfl⟩ := Prod.mk.inj h
    exact ⟨hime, .inl hphase⟩
  · rw [hfetch] at h
    obtain ⟨hcarries, hkeep⟩ := ime_fetchInstruction h
    exact ⟨hkeep.trans hime, .inr hcarries⟩
  · cases hime.symm.trans henabled

/-! ## Runs -/

/-- Whether a cycle ends an instruction. -/
def Completes (i : Instruction) (s t : Machine M) : Prop :=
  ∃ x, s.cpu.phase = .executing x ∧ x.routine = .instruction i ∧ s.tick = (.ok true, t)

/-- Cycles that do not fail and end no instruction. -/
inductive Waits (s : Machine M) : Machine M → Prop
  | refl : Waits s s
  | tick {t u : Machine M} {b : Bool} (h : Waits s t) (htick : t.tick = (.ok b, u))
      (hends : ∀ i, ¬ Completes i t u) : Waits s u

omit [Memory M] in
lemma Delays.not_dispatching (h : s.Delays) (hphase : s.cpu.phase = .executing x)
    (k : Interrupt) : x.routine ≠ .interrupt k := by
  intro hroutine
  obtain ⟨-, h | ⟨j, y, hy, hj, -⟩⟩ := h
  · exact absurd (h.symm.trans hphase) nofun
  · obtain rfl := Phase.executing.inj (hy.symm.trans hphase)
    exact absurd (hroutine.symm.trans hj) nofun

lemma Delays.tick (h : s.Delays) (htick : s.tick = (.ok b, t)) (hends : ∀ i, ¬ Completes i s t) :
    t.Delays := by
  obtain ⟨cpu, m⟩ := s
  obtain ⟨hime, hphase | ⟨j, x, hphase, hj, hcursor⟩⟩ := h
  · rw [tick_fetching hphase] at htick
    exact delays_fetch { cpu with cycles := cpu.cycles + 1 } hphase hime htick
  · have hexecute := htick
    rw [tick_executing hphase] at hexecute
    rcases ime_execute hj hcursor hexecute with ⟨-, hcarries, hime'⟩ | ⟨rfl, -, -⟩
    · exact ⟨hime'.trans hime, .inr ⟨j, hcarries⟩⟩
    · exact absurd ⟨x, hphase, hj, htick⟩ (hends j)

lemma Waits.delays (h : Waits s t) (hs : s.Delays) : t.Delays := by
  induction h with
  | refl => exact hs
  | tick h htick hends ih => exact ih.tick htick hends

/-- A cycle that ends an instruction leaves the processor between instructions. -/
lemma Completes.fetching (h : Completes i s t) : t.cpu.phase = .fetching := by
  obtain ⟨x, hphase, hx, htick⟩ := h
  obtain ⟨cpu, m⟩ := s
  rw [tick_executing hphase] at htick
  unfold execute at htick
  dsimp only at htick
  split at htick
  · cases htick
  · rw [applyEffect_eq] at htick
    dsimp only at htick
    split at htick
    · cases htick
    · exact (ime_finish hx htick).2.1

/-- **What becomes of an enable that was asked for.**  It waits for the next instruction to end,
and no interrupt is answered until then.  That instruction takes it back if it is `DI`, asks for it
again if it is `EI`, and grants it otherwise. -/
theorem next_completion_enable (hs : Completes i s t) (hime : t.cpu.registers.ime = .requested)
    (hwaits : Waits t u) (hu : Completes j u v) :
    v.cpu.registers.ime =
        (if j.kind = .di then .disabled else if j.kind = .ei then .requested else .enabled) ∧
      ∀ w, Waits t w → w.cpu.registers.ime = .requested ∧
        ∀ x k, w.cpu.phase = .executing x → x.routine ≠ .interrupt k := by
  have ht : t.Delays := ⟨hime, .inl hs.fetching⟩
  refine ⟨?_, fun w hw => ⟨(hw.delays ht).1, fun x k hx => (hw.delays ht).not_dispatching hx k⟩⟩
  obtain ⟨x, hphase, hj, htick⟩ := hu
  obtain ⟨hime', hfetching | ⟨j', y, hy, hj', hcursor⟩⟩ := hwaits.delays ht
  · exact absurd (hfetching.symm.trans hphase) nofun
  · obtain rfl := Phase.executing.inj (hy.symm.trans hphase)
    obtain ⟨cpu, m⟩ := u
    rw [tick_executing hphase] at htick
    rcases ime_execute hj hcursor htick with ⟨hb, -, -⟩ | ⟨-, -, hv⟩
    · cases hb
    · rw [hv]
      change j.enableAfter (j.enableOf cpu.registers.ime) = _
      rw [show cpu.registers.ime = .requested from hime']
      exact j.enableAfter_enableOf_requested

/-! ### Two instructions of one byte -/

/-- A machine that is about to carry out `EI` and an instruction of one byte. -/
def enabling (opcode : UInt8) : Machine MemoryMap where
  cpu := { registers := { pc := 0xC000 } }
  memory :=
    ⟨[.backed (.ram (.ofBytes "program" 0xC000 ⟨#[0xFB, opcode]⟩ .readWrite)),
      .backed (.ram (.ofBytes "if" 0xFF0F ⟨#[0x00]⟩ .readWrite)),
      .backed (.ram (.ofBytes "ie" 0xFFFF ⟨#[0x00]⟩ .readWrite))], {}⟩

/-- The machine after a number of ticks. -/
def after (s : Machine M) : Nat → Machine M
  | 0 => s
  | n + 1 => (s.after n).tick.2

lemma completes_of_phase {n : Nat} (hphase : (s.after n).cpu.phase = .executing x)
    (hx : x.routine = .instruction i) (hend : (s.after n).tick.1 = .ok true) :
    Completes i (s.after n) (s.after (n + 1)) :=
  ⟨x, hphase, hx, Prod.ext hend rfl⟩

lemma waits_of_fetching {n : Nat} (hphase : (s.after n).cpu.phase = .fetching)
    (hgo : (s.after n).tick.1 = .ok false) : Waits (s.after n) (s.after (n + 1)) := by
  refine .tick .refl (Prod.ext hgo rfl) ?_
  rintro i ⟨x, hx, -⟩
  exact absurd (hphase.symm.trans hx) nofun

/-- `EI` and `NOP`: interrupts are enabled when the `NOP` has ended. -/
theorem nop_completion_enable :
    Completes ⟨.ei, none, none⟩ ((enabling 0x00).after 1) ((enabling 0x00).after 2) ∧
      ((enabling 0x00).after 2).cpu.registers.ime = .requested ∧
      Completes ⟨.nop, none, none⟩ ((enabling 0x00).after 3) ((enabling 0x00).after 4) ∧
      ((enabling 0x00).after 4).cpu.registers.ime = .enabled := by
  have hei : Completes ⟨.ei, none, none⟩ ((enabling 0x00).after 1) ((enabling 0x00).after 2) :=
    completes_of_phase (x := ⟨.instruction ⟨.ei, none, none⟩, 0xC000, some 0xFB, 0, 0, 0⟩)
      (by decide +kernel) rfl (by decide +kernel)
  have hnop : Completes ⟨.nop, none, none⟩ ((enabling 0x00).after 3) ((enabling 0x00).after 4) :=
    completes_of_phase (x := ⟨.instruction ⟨.nop, none, none⟩, 0xC001, some 0x00, 0, 0, 0⟩)
      (by decide +kernel) rfl (by decide +kernel)
  have hime : ((enabling 0x00).after 2).cpu.registers.ime = .requested := by decide +kernel
  have hwaits := waits_of_fetching (s := enabling 0x00) (n := 2) hei.fetching (by decide +kernel)
  exact ⟨hei, hime, hnop, (next_completion_enable hei hime hwaits hnop).1⟩

/-- `EI` and `EI`: the enable is still only asked for when the second has ended. -/
theorem requested_after_second_ei :
    Completes ⟨.ei, none, none⟩ ((enabling 0xFB).after 1) ((enabling 0xFB).after 2) ∧
      ((enabling 0xFB).after 2).cpu.registers.ime = .requested ∧
      Waits ((enabling 0xFB).after 2) ((enabling 0xFB).after 3) ∧
      Completes ⟨.ei, none, none⟩ ((enabling 0xFB).after 3) ((enabling 0xFB).after 4) ∧
      ((enabling 0xFB).after 4).cpu.registers.ime = .requested := by
  have hei : Completes ⟨.ei, none, none⟩ ((enabling 0xFB).after 1) ((enabling 0xFB).after 2) :=
    completes_of_phase (x := ⟨.instruction ⟨.ei, none, none⟩, 0xC000, some 0xFB, 0, 0, 0⟩)
      (by decide +kernel) rfl (by decide +kernel)
  exact ⟨hei, by decide +kernel, waits_of_fetching hei.fetching (by decide +kernel),
    completes_of_phase (x := ⟨.instruction ⟨.ei, none, none⟩, 0xC001, some 0xFB, 0, 0, 0⟩)
      (by decide +kernel) rfl (by decide +kernel), by decide +kernel⟩

end Machine

end Handheld
