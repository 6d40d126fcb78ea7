/-
# Coherent processors

The marks of a processor do not contradict its phase: with a program in flight it is neither asleep
nor locked nor marked by a failed `HALT`, and it is marked only between instructions and with
interrupts disabled.  These facts hold each other up, as an interrupt is dispatched only where
interrupts are enabled and therefore no mark is left.  The main statement,
`Cpu.coherent_ticked`, says that they hold after any ticks, whatever memory the ticks find and also
where they fail, and that a locked processor does nothing but count cycles.
-/
import Handheld.Proofs.Processor.Fetch
import Handheld.Proofs.Processor.Modes
import Handheld.Proofs.Processor.Step

namespace Handheld

/-! ## Programs of more than one cycle -/

lemma Program.length_of_single {i : Instruction} (h : i.kind = .stop ∨ i.kind = .invalid) :
    (ofInstruction i).ops.length = 1 := by
  unfold ofInstruction
  rcases h with h | h
  all_goals
    rw [h]
    rfl

namespace Routine

variable {r : Routine}

/-- Only a routine of one cycle sends the processor to sleep. -/
lemma halted_effect (h : 1 < r.program.ops.length) (d : Datapath) :
    (r.effect d).registers.halted = d.registers.halted := by
  cases r with
  | interrupt i => rfl
  | instruction i =>
    refine Instruction.halted_effect ?_ d
    intro hstop
    exact absurd (Program.length_of_single (.inl hstop)) (Nat.ne_of_gt h)

/-- Only a routine of one cycle locks it. -/
lemma locks_eq_false (h : 1 < r.program.ops.length) : r.locks = false := by
  cases r with
  | interrupt i => rfl
  | instruction i =>
    refine beq_eq_false_iff_ne.mpr ?_
    intro hinvalid
    exact absurd (Program.length_of_single (.inr hinvalid)) (Nat.ne_of_gt h)

end Routine

/-- The marks of a processor fit its phase. -/
structure Cpu.Coherent (c : Cpu) : Prop where
  flight : ∀ x, c.phase = .executing x → x.cursor < x.program.ops.length ∧
    c.registers.halted = false ∧ c.locked = false ∧ c.haltBug = false
  bug : c.haltBug = true →
    c.phase = .fetching ∧ c.registers.ime = .disabled ∧ c.registers.halted = false
  lock : c.locked = true → c.phase = .fetching

namespace Cpu

variable {c : Cpu}

lemma coherent_of_unmarked (hphase : c.phase = .fetching) (hbug : c.haltBug = false) :
    c.Coherent where
  flight _ hx := absurd (hphase.symm.trans hx) nofun
  bug h := absurd (hbug.symm.trans h) nofun
  lock _ := hphase

lemma coherent_of_flight {x : Flight} (hphase : c.phase = .executing x)
    (hcursor : x.cursor < x.program.ops.length) (hawake : c.registers.halted = false)
    (hlocked : c.locked = false) (hbug : c.haltBug = false) : c.Coherent where
  flight y hy := by
    obtain rfl := Phase.executing.inj (hphase.symm.trans hy)
    exact ⟨hcursor, hawake, hlocked, hbug⟩
  bug h := absurd (hbug.symm.trans h) nofun
  lock h := absurd (hlocked.symm.trans h) nofun

end Cpu

namespace Machine

variable {M : Type} [Memory M] {cpu : Cpu} {m : M} {x : Flight}

/-! ## One cycle -/

/-- A `HALT` that fails does so with interrupts disabled: an enable that was asked for has been
granted before it looks. -/
lemma coherent_finish (hphase : cpu.phase = .fetching) (hbug : cpu.haltBug = false)
    (hawake : ∀ i, x.routine = .instruction i → i.kind = .halt → cpu.registers.halted = false) :
    (finish cpu m x).2.cpu.Coherent := by
  cases hx : x.routine with
  | interrupt i =>
    rw [finish, hx]
    exact Cpu.coherent_of_unmarked hphase hbug
  | instruction i =>
    rw [finish_eq_conclude cpu m hx]
    cases hconclude : i.conclude cpu.registers m with
    | error e => exact Cpu.coherent_of_unmarked hphase hbug
    | ok a =>
      cases hmark : a.haltBug with
      | false =>
        refine Cpu.coherent_of_unmarked hphase ?_
        dsimp only
        rw [hbug, hmark]
        rfl
      | true =>
        obtain ⟨hhalt, hdisabled, hhalted⟩ := Instruction.conclude_haltBug hconclude hmark
        refine ⟨fun y hy => ?_, fun _ => ?_, fun _ => hphase⟩
        · cases hphase.symm.trans hy
        · exact ⟨hphase, hdisabled, hhalted.trans (hawake i hx hhalt)⟩

/-- A micro-operation of a processor without marks fails, goes on, or ends its program. -/
lemma coherent_execute (hcursor : x.cursor < x.program.ops.length)
    (hawake : cpu.registers.halted = false) (hlocked : cpu.locked = false)
    (hbug : cpu.haltBug = false) : (execute cpu m x).2.cpu.Coherent := by
  obtain ⟨op, ops, hops⟩ : ∃ op ops, x.program.ops.drop x.cursor = op :: ops :=
    ⟨_, _, List.drop_eq_getElem_cons hcursor⟩
  rcases hop : op.perform ⟨cpu.registers, x.z, x.w⟩ m with ⟨e | u, d, m'⟩
  · rw [execute_error cpu hops hop]
    exact Cpu.coherent_of_unmarked rfl hbug
  have hperform : d.registers.halted = false := (MicroOp.halted_perform hop).trans hawake
  by_cases hend : ops = [] ∨
      x.program.takes x.cursor (x.routine.applyAt x.cursor d).registers.flags = false
  · rw [execute_ends cpu hops hop rfl hend]
    refine coherent_finish ?_ ?_ ?_
    · rw [Cpu.lockIf_phase]
    · rw [Cpu.lockIf_haltBug]
      exact hbug
    · intro i hi hhalt
      rw [Cpu.lockIf_registers, Routine.applyAt, hi]
      split
      · exact (Instruction.halted_effect (by simp [hhalt]) d).trans hperform
      · exact hperform
  · obtain ⟨hne, htakes⟩ := not_or.mp hend
    rw [Bool.not_eq_false] at htakes
    rw [execute_goesOn cpu hops hne hop rfl htakes]
    have hnext : x.cursor + 1 < x.program.ops.length := by
      have hlength := congrArg List.length hops
      have hpos := List.length_pos_iff.mpr hne
      rw [List.length_drop, List.length_cons] at hlength
      omega
    have hlong : 1 < x.routine.program.ops.length := Nat.lt_of_le_of_lt (Nat.le_add_left 1 _) hnext
    have hhalted : (x.routine.applyAt x.cursor d).registers.halted = false := by
      unfold Routine.applyAt
      split
      · exact (Routine.halted_effect hlong d).trans hperform
      · exact hperform
    refine Cpu.coherent_of_flight rfl hnext ?_ ?_ ?_
    · exact (congrArg Registers.halted (Cpu.lockIf_registers _ _ _)).trans hhalted
    · refine (Cpu.lockIf_locked _ _ _).trans ?_
      rw [Routine.locks_eq_false hlong, Bool.and_false, Bool.or_false]
      exact hlocked
    · exact (Cpu.lockIf_haltBug _ _ _).trans hbug

/-- A fetch takes the mark away, or fails before it does. -/
lemma coherent_fetchInstruction (hphase : cpu.phase = .fetching) (hlocked : cpu.locked = false)
    (hawake : cpu.registers.halted = false)
    (hbug : cpu.haltBug = true → cpu.registers.ime = .disabled) :
    (fetchInstruction cpu m).2.cpu.Coherent := by
  obtain ⟨e, pc, bug, hkept, h⟩ | ⟨pc, i, opcode, journal, h⟩ := fetchInstruction_cases cpu m
  · rw [h]
    exact ⟨fun y hy => absurd (hphase.symm.trans hy) nofun,
      fun h => ⟨hphase, hbug (hkept h), hawake⟩, fun _ => hphase⟩
  · rw [h]
    exact Cpu.coherent_of_flight rfl (Program.fits_ofInstruction i).1 hawake hlocked rfl

/-- A dispatch begins without a mark. -/
lemma coherent_dispatch (hphase : cpu.phase = .fetching) (hlocked : cpu.locked = false)
    (hawake : cpu.registers.halted = false) (hbug : cpu.haltBug = false) (i : Interrupt) :
    (dispatch cpu m i).2.cpu.Coherent := by
  unfold dispatch
  dsimp only
  split
  · exact Cpu.coherent_of_unmarked hphase hbug
  · exact coherent_execute Program.fits_dispatch.1 hawake hlocked hbug

/-- **Every cycle keeps a processor coherent**, whatever the memory answers. -/
theorem coherent_tick (h : cpu.Coherent) (m : M) : (tick ⟨cpu, m⟩).2.cpu.Coherent := by
  cases hphase : cpu.phase with
  | executing x =>
    obtain ⟨hcursor, hawake, hlocked, hbug⟩ := h.flight x hphase
    rw [tick_executing hphase]
    exact coherent_execute hcursor hawake hlocked hbug
  | fetching =>
    rw [tick_fetching hphase]
    obtain ⟨result, hfetch⟩ | ⟨hlocked, hfetch⟩ | ⟨i, hlocked, -, hime, hfetch⟩ :=
      fetch_cases { cpu with cycles := cpu.cycles + 1 } m
    · rw [hfetch]
      exact ⟨h.flight, h.bug, h.lock⟩
    · rw [hfetch]
      exact coherent_fetchInstruction hphase hlocked rfl fun hbug => (h.bug hbug).2.1
    · rw [hfetch]
      refine coherent_dispatch (by exact hphase) (by exact hlocked) rfl ?_ i
      -- with interrupts enabled there is no mark
      rw [Bool.eq_false_iff]
      intro hbug
      exact absurd ((h.bug hbug).2.1.symm.trans hime) nofun

lemma tick_of_locked (hphase : cpu.phase = .fetching) (hlocked : cpu.locked = true) (m : M) :
    tick ⟨cpu, m⟩ = (.ok true, ⟨{ cpu with cycles := cpu.cycles + 1 }, m⟩) := by
  rw [tick_fetching hphase, fetch]
  exact if_pos hlocked

end Machine

/-! ## Many cycles -/

namespace Cpu

variable {M : Type} [Memory M] {c : Cpu}

/-- The processor after ticks.  Each finds a memory of its own: the one that the tick before has
left, or what anyone else has made of it. -/
def ticked (c : Cpu) (ms : List M) : Cpu :=
  ms.foldl (fun c m => (Machine.tick ⟨c, m⟩).2.cpu) c

lemma Coherent.ticked (h : c.Coherent) (ms : List M) : (c.ticked ms).Coherent := by
  induction ms generalizing c with
  | nil => exact h
  | cons m ms ih => exact ih (Machine.coherent_tick h m)

lemma ticked_of_locked (hphase : c.phase = .fetching) (hlocked : c.locked = true) (ms : List M) :
    c.ticked ms = { c with cycles := c.cycles + ms.length } := by
  induction ms generalizing c with
  | nil => rfl
  | cons m ms ih =>
    refine (congrArg (·.ticked ms) (congrArg (·.2.cpu)
      (Machine.tick_of_locked hphase hlocked m))).trans ?_
    dsimp only
    rw [ih (by exact hphase) (by exact hlocked), List.length_cons]
    simp only [Nat.add_assoc, Nat.add_comm 1]

/-- **A processor stays coherent from its start on.**  After any ticks from any registers, whatever
memories the ticks find and also where they fail: a program in flight has a micro-operation at its
cursor, and the processor then is neither asleep nor locked nor marked by a failed `HALT`; it is so
marked only between instructions, with interrupts disabled and awake; and it is locked only between
instructions.  When it is locked, every later tick answers that it is between instructions, and
changes nothing but the cycle counter.  The low half of the flag byte is zero. -/
theorem coherent_ticked (r : Registers) (ms : List M) :
    ((ofRegisters r).ticked ms).Coherent ∧
      (((ofRegisters r).ticked ms).locked = true → ∀ (later : List M) (m : M),
        Machine.tick ⟨((ofRegisters r).ticked ms).ticked later, m⟩ =
          (.ok true, ⟨{ (ofRegisters r).ticked ms with
            cycles := ((ofRegisters r).ticked ms).cycles + later.length + 1 }, m⟩)) ∧
      ((ofRegisters r).ticked ms).registers.f &&& 0x0F = 0 := by
  have hcoherent : ((ofRegisters r).ticked ms).Coherent :=
    (coherent_of_unmarked (c := ofRegisters r) rfl rfl).ticked ms
  refine ⟨hcoherent, ?_, Flags.toByte_and_low _⟩
  intro hlocked later m
  have hphase := hcoherent.lock hlocked
  rw [ticked_of_locked hphase hlocked later]
  exact Machine.tick_of_locked (by exact hphase) (by exact hlocked) m

end Cpu

end Handheld
