/-
# Programs in one go

A program of micro-operations is carried out one machine cycle at a time.  `Routine.pass` carries
out what is left of it in one go, on the registers, the latches and the memory alone.  The main
statement, `Machine.ticks_executing`, says that ticking a machine to the end of its instruction is
such a pass, after which the processor is back between instructions.
-/
import Mathlib.Tactic.Lemma
import Handheld.Processor.Tick
import Handheld.Proofs.Processor.Atomic

namespace Handheld

/-- Whether a program goes on after a micro-operation, by its condition. -/
def Program.takes (p : Program) (k : Nat) (f : Flags) : Bool :=
  match p.branch with
  | some (at_, condition) => at_ != k || condition.holds f
  | none => true

/-- The end of what is left of a program, with the number of its machine cycles and whether the
effect took hold in it. -/
structure Passage (M : Type) where
  result : Except MemoryError Unit
  datapath : Datapath
  memory : M
  cycles : Nat
  applied : Bool

namespace Routine

variable {M : Type} [Memory M]

/-- Put the effect of a routine into place after micro-operation `k`. -/
def applyAt (r : Routine) (k : Nat) (d : Datapath) : Datapath :=
  if r.program.effectAt = some k then r.effect d else d

/-- Carry out micro-operations of a routine, of which the first has number `k`. -/
def pass (r : Routine) (k : Nat) (d : Datapath) (m : M) : List MicroOp → Passage M
  | [] => ⟨.ok (), d, m, 0, false⟩
  | op :: ops =>
    match op.perform d m with
    | (.error e, d, m) => ⟨.error e, d, m, 1, false⟩
    | (.ok _, d, m) =>
      let d := r.applyAt k d
      let hit := decide (r.program.effectAt = some k)
      if r.program.takes k d.registers.flags then
        let p := pass r (k + 1) d m ops
        { p with cycles := p.cycles + 1, applied := hit || p.applied }
      else ⟨.ok (), d, m, 1, hit⟩

end Routine

section

variable {M : Type} [Memory M] {r : Routine} {k : Nat} {d d' : Datapath} {m m' : M} {op : MicroOp}
  {ops : List MicroOp}

lemma Routine.pass_of_takes (h : op.perform d m = (.ok (), d', m'))
    (htakes : r.program.takes k (r.applyAt k d').registers.flags = true) :
    r.pass k d m (op :: ops) =
      { r.pass (k + 1) (r.applyAt k d') m' ops with
        cycles := (r.pass (k + 1) (r.applyAt k d') m' ops).cycles + 1
        applied := decide (r.program.effectAt = some k) ||
          (r.pass (k + 1) (r.applyAt k d') m' ops).applied } := by
  rw [pass, h]
  exact if_pos htakes

lemma Routine.pass_of_ends (h : op.perform d m = (.ok (), d', m'))
    (hend : ops = [] ∨ r.program.takes k (r.applyAt k d').registers.flags = false) :
    r.pass k d m (op :: ops) =
      ⟨.ok (), r.applyAt k d', m', 1, decide (r.program.effectAt = some k)⟩ := by
  rw [pass, h]
  rcases hend with rfl | hend
  · simp [pass]
  · simp [hend]

end

/-- The effect takes hold in a pass only after a micro-operation of the pass. -/
lemma Routine.effectAt_of_applied {M : Type} [Memory M] {r : Routine} {k : Nat} {d : Datapath}
    {m : M} {ops : List MicroOp} (h : (r.pass k d m ops).applied = true) :
    ∃ j, k ≤ j ∧ r.program.effectAt = some j := by
  induction ops generalizing k d m with
  | nil => cases h
  | cons op ops ih =>
    unfold pass at h
    rcases hop : op.perform d m with ⟨e | u, d', m'⟩
    · rw [hop] at h
      cases h
    · simp only [hop] at h
      by_cases hk : r.program.effectAt = some k
      · exact ⟨k, Nat.le_refl k, hk⟩
      · by_cases htakes : r.program.takes k (r.applyAt k d').registers.flags = true
        · rw [if_pos htakes] at h
          simp only [hk, decide_false, Bool.false_or] at h
          obtain ⟨j, hj, heffect⟩ := ih h
          exact ⟨j, by omega, heffect⟩
        · rw [if_neg htakes] at h
          simp [hk] at h

/-- The micro-operation at the cursor. -/
def Flight.op (x : Flight) : MicroOp :=
  x.program.ops.getD x.cursor .internal

/-- Lock the processor if an opcode without a meaning has taken its effect. -/
def Cpu.lockIf (cpu : Cpu) (x : Flight) (hit : Bool) : Cpu :=
  if hit && x.routine.locks then
    ({ cpu with locked := true } : Cpu).note (.locked (x.opcode.getD 0) x.origin)
  else cpu

@[simp] lemma Cpu.lockIf_registers (cpu : Cpu) (x : Flight) (hit : Bool) :
    (cpu.lockIf x hit).registers = cpu.registers := by
  unfold lockIf
  split <;> rfl

@[simp] lemma Cpu.lockIf_cycles (cpu : Cpu) (x : Flight) (hit : Bool) :
    (cpu.lockIf x hit).cycles = cpu.cycles := by
  unfold lockIf
  split <;> rfl

@[simp] lemma Cpu.lockIf_haltBug (cpu : Cpu) (x : Flight) (hit : Bool) :
    (cpu.lockIf x hit).haltBug = cpu.haltBug := by
  unfold lockIf
  split <;> rfl

@[simp] lemma Cpu.lockIf_phase (cpu : Cpu) (x : Flight) (hit : Bool) :
    (cpu.lockIf x hit).phase = cpu.phase := by
  unfold lockIf
  split <;> rfl

lemma Cpu.lockIf_locked (cpu : Cpu) (x : Flight) (hit : Bool) :
    (cpu.lockIf x hit).locked = (cpu.locked || (hit && x.routine.locks)) := by
  unfold lockIf
  cases hit && x.routine.locks with
  | true => simp [note]
  | false => simp

/-- Whether a processor locks shows in its lock and its journal alone. -/
lemma Cpu.exists_lockIf (cpu : Cpu) (x : Flight) (hit : Bool) :
    ∃ journal, cpu.lockIf x hit =
      { cpu with locked := cpu.locked || (hit && x.routine.locks), journal := journal } := by
  unfold lockIf
  cases hit && x.routine.locks with
  | true =>
    refine ⟨cpu.journal.add (.locked (x.opcode.getD 0) x.origin), ?_⟩
    rw [Bool.or_true]
    rfl
  | false =>
    refine ⟨cpu.journal, ?_⟩
    rw [Bool.or_false]
    rfl

lemma Cpu.lockIf_setPhase {cpu : Cpu} {x : Flight} {phase : Phase} {hit : Bool} :
    { cpu.lockIf x hit with phase := phase } = Cpu.lockIf { cpu with phase := phase } x hit := by
  unfold lockIf
  split <;> rfl

/-- Two chances to take an effect are one, as an effect is taken once. -/
lemma Cpu.lockIf_lockIf (cpu : Cpu) (x y : Flight) {r r' : Registers} {c : Nat} {phase : Phase}
    {hit hit' : Bool} (hr : y.routine = x.routine) (ho : y.origin = x.origin)
    (hc : y.opcode = x.opcode) (honce : hit = true → hit' = false) :
    Cpu.lockIf { Cpu.lockIf { cpu with registers := r } x hit with
        registers := r', cycles := c, phase := phase } y hit' =
      Cpu.lockIf { cpu with registers := r', cycles := c, phase := phase } x (hit || hit') := by
  unfold lockIf
  rw [hr, ho, hc]
  cases hit with
  | false => simp
  | true =>
    rw [honce rfl]
    cases hlocks : x.routine.locks with
    | true => simp [note]
    | false => simp

namespace Machine

variable {M : Type} [Memory M] {cpu : Cpu} {m m' : M} {x : Flight} {d d' : Datapath}
  {op : MicroOp} {ops : List MicroOp} {n : Nat}

/-- The end of an instruction does not look at the latches and the cursor. -/
lemma finish_congr {x y : Flight} (hr : y.routine = x.routine) (ho : y.origin = x.origin)
    (hc : y.opcode = x.opcode) : finish cpu m y = finish cpu m x := by
  unfold finish
  rw [hr, ho, hc]

/-- The end of an instruction is that of the instruction in one go. -/
lemma finish_eq_conclude (cpu : Cpu) (m : M) {i : Instruction} (hx : x.routine = .instruction i) :
    finish cpu m x =
      match i.conclude cpu.registers m with
      | .error e =>
        (.error ⟨x.origin, x.opcode, e⟩,
          ⟨{ cpu with registers.ime := i.enableAfter cpu.registers.ime }, m⟩)
      | .ok a =>
        (.ok true,
          ⟨{ cpu with registers := a.registers, haltBug := cpu.haltBug || a.haltBug }, m⟩) := by
  -- `finish` chooses between two processors where the instruction in one go changes a field.
  have henable : (if cpu.registers.ime = .requested ∧ i.kind ≠ .ei then
      { cpu with registers.ime := .enabled } else cpu) =
      { cpu with registers.ime := i.enableAfter cpu.registers.ime } := by
    unfold Instruction.enableAfter
    split <;> rfl
  unfold finish Instruction.conclude
  rw [hx]
  dsimp only
  rw [henable]
  by_cases hhalt : i.kind = .halt
  · rw [if_pos hhalt, if_pos hhalt]
    cases Interrupt.poll m with
    | error e => rfl
    | ok pending =>
      dsimp only [ok_bind]
      by_cases hpending : i.enableAfter cpu.registers.ime ≠ .enabled ∧ pending.isSome
      · rw [if_pos hpending, if_pos hpending]
        simp
      · rw [if_neg hpending, if_neg hpending]
        simp
  · rw [if_neg hhalt, if_neg hhalt]
    simp

/-- Ending an instruction changes registers and the mark of `HALT` alone, and fails only where the
interrupts cannot be polled. -/
lemma finish_cases (cpu : Cpu) (m : M) (x : Flight) :
    (∃ r bug, finish cpu m x = (.ok true, ⟨{ cpu with registers := r, haltBug := bug }, m⟩)) ∨
    ∃ e r, Interrupt.poll m = .error e ∧
      finish cpu m x = (.error ⟨x.origin, x.opcode, e⟩, ⟨{ cpu with registers := r }, m⟩) := by
  cases hx : x.routine with
  | interrupt i =>
    refine .inl ⟨cpu.registers, cpu.haltBug, ?_⟩
    rw [finish, hx]
  | instruction i =>
    rw [finish_eq_conclude cpu m hx]
    cases hconclude : i.conclude cpu.registers m with
    | ok a => exact .inl ⟨_, _, rfl⟩
    | error e => exact .inr ⟨e, _, Instruction.poll_of_conclude_error hconclude, rfl⟩

/-! ## One machine cycle of a program -/

lemma applyEffect_eq (cpu : Cpu) (x : Flight) (d : Datapath) :
    applyEffect cpu x d =
      (Cpu.lockIf { cpu with registers := (x.routine.applyAt x.cursor d).registers } x
        (decide (x.program.effectAt = some x.cursor)),
        { x with z := (x.routine.applyAt x.cursor d).z
                 w := (x.routine.applyAt x.cursor d).w }) := by
  have hprogram : x.routine.program = x.program := rfl
  by_cases h : x.program.effectAt = some x.cursor
  · cases hlocks : x.routine.locks with
    | true => simp [applyEffect, Cpu.lockIf, Routine.applyAt, hprogram, h, hlocks]
    | false => simp [applyEffect, Cpu.lockIf, Routine.applyAt, hprogram, h, hlocks]
  · simp [applyEffect, Cpu.lockIf, Routine.applyAt, hprogram, h]

/-- What the effect changes is in the registers, the latches, the lock and the journal. -/
lemma exists_applyEffect (cpu : Cpu) (x : Flight) (d : Datapath) :
    ∃ journal, applyEffect cpu x d =
      ({ cpu with
          registers := (x.routine.applyAt x.cursor d).registers
          locked := cpu.locked ||
            (decide (x.program.effectAt = some x.cursor) && x.routine.locks)
          journal := journal },
        { x with
          z := (x.routine.applyAt x.cursor d).z
          w := (x.routine.applyAt x.cursor d).w }) := by
  obtain ⟨journal, hlock⟩ := Cpu.exists_lockIf
    { cpu with registers := (x.routine.applyAt x.cursor d).registers } x
    (decide (x.program.effectAt = some x.cursor))
  exact ⟨journal, by rw [applyEffect_eq, hlock]⟩

lemma execute_op (cpu : Cpu) (m : M) (x : Flight) :
    execute cpu m x =
      match x.op.perform ⟨cpu.registers, x.z, x.w⟩ m with
      | (.error e, d, m) =>
        (.error ⟨x.origin, x.opcode, e⟩,
          ⟨{ cpu with registers := d.registers, phase := .fetching }, m⟩)
      | (.ok _, d, m) =>
        let (cpu, x) := applyEffect cpu x d
        if goesOn cpu x then
          (.ok false, ⟨{ cpu with phase := .executing { x with cursor := x.cursor + 1 } }, m⟩)
        else finish { cpu with phase := .fetching } m x :=
  rfl

lemma execute_eq (hops : x.program.ops.drop x.cursor = op :: ops) :
    execute cpu m x =
      match op.perform ⟨cpu.registers, x.z, x.w⟩ m with
      | (.error e, d, m) =>
        (.error ⟨x.origin, x.opcode, e⟩,
          ⟨{ cpu with registers := d.registers, phase := .fetching }, m⟩)
      | (.ok _, d, m) =>
        let (cpu, x) := applyEffect cpu x d
        if goesOn cpu x then
          (.ok false, ⟨{ cpu with phase := .executing { x with cursor := x.cursor + 1 } }, m⟩)
        else finish { cpu with phase := .fetching } m x := by
  have hop : x.program.ops.getD x.cursor .internal = op := by
    have h := congrArg List.head? hops
    rw [List.head?_drop, List.head?_cons] at h
    rw [List.getD_eq_getElem?_getD, h, Option.getD_some]
  unfold execute
  rewrite [hop]
  rfl

/-- A failing access ends the program. -/
lemma execute_error (cpu : Cpu) {e : MemoryError} (hops : x.program.ops.drop x.cursor = op :: ops)
    (h : op.perform ⟨cpu.registers, x.z, x.w⟩ m = (.error e, d, m')) :
    execute cpu m x =
      (.error ⟨x.origin, x.opcode, e⟩,
        ⟨{ cpu with registers := d.registers, phase := .fetching }, m'⟩) := by
  rw [execute_eq hops, h]

/-- A micro-operation that is not the last changes the registers, the latches and the memory, and
moves the cursor. -/
lemma execute_goesOn (cpu : Cpu) (hops : x.program.ops.drop x.cursor = op :: ops)
    (hne : ops ≠ []) (h : op.perform ⟨cpu.registers, x.z, x.w⟩ m = (.ok (), d, m'))
    (hd : x.routine.applyAt x.cursor d = d')
    (htakes : x.program.takes x.cursor d'.registers.flags = true) :
    execute cpu m x =
      (.ok false,
        ⟨{ Cpu.lockIf { cpu with registers := d'.registers } x
            (decide (x.program.effectAt = some x.cursor)) with
            phase := .executing { x with z := d'.z, w := d'.w, cursor := x.cursor + 1 } },
          m'⟩) := by
  have hlt : x.cursor + 1 < x.program.ops.length := by
    have hlen := congrArg List.length hops
    have hpos := List.length_pos_iff.mpr hne
    rw [List.length_drop, List.length_cons] at hlen
    omega
  have hgo (cpu' : Cpu) (x' : Flight) (hregs : cpu'.registers = d'.registers)
      (hprogram : x'.program = x.program) (hcursor : x'.cursor = x.cursor) :
      goesOn cpu' x' = true := by
    show (x'.program.takes x'.cursor cpu'.registers.flags &&
      decide (x'.cursor + 1 < x'.program.ops.length)) = true
    rw [hprogram, hcursor, hregs, htakes, Bool.true_and]
    exact decide_eq_true hlt
  rw [execute_eq hops, h]
  simp only [applyEffect_eq, hd]
  exact if_pos (hgo _ _ (by simp) rfl rfl)

/-- The last micro-operation, or one after which the condition fails, ends the program. -/
lemma execute_ends (cpu : Cpu) (hops : x.program.ops.drop x.cursor = op :: ops)
    (h : op.perform ⟨cpu.registers, x.z, x.w⟩ m = (.ok (), d, m'))
    (hd : x.routine.applyAt x.cursor d = d')
    (hend : ops = [] ∨ x.program.takes x.cursor d'.registers.flags = false) :
    execute cpu m x =
      finish (Cpu.lockIf { cpu with registers := d'.registers, phase := .fetching } x
        (decide (x.program.effectAt = some x.cursor))) m' x := by
  have hgo (cpu' : Cpu) (x' : Flight) (hregs : cpu'.registers = d'.registers)
      (hprogram : x'.program = x.program) (hcursor : x'.cursor = x.cursor) :
      goesOn cpu' x' = false := by
    show (x'.program.takes x'.cursor cpu'.registers.flags &&
      decide (x'.cursor + 1 < x'.program.ops.length)) = false
    rw [hprogram, hcursor, hregs]
    rcases hend with rfl | hend
    · have hlen := congrArg List.length hops
      rw [List.length_drop, List.length_singleton] at hlen
      rw [decide_eq_false (by omega), Bool.and_false]
    · rw [hend, Bool.false_and]
  rw [execute_eq hops, h]
  simp only [applyEffect_eq, hd]
  refine (if_neg ?_).trans (by rw [Cpu.lockIf_setPhase]; exact finish_congr rfl rfl rfl)
  have hfalse := hgo (Cpu.lockIf { cpu with registers := d'.registers } x
    (decide (x.program.effectAt = some x.cursor))) { x with z := d'.z, w := d'.w } (by simp) rfl rfl
  rw [hfalse]
  exact Bool.false_ne_true

/-! ## A program in one go -/

/-- The machine at the end of an instruction, by what was left of its program. -/
def settle (cpu : Cpu) (x : Flight) (p : Passage M) : Except Fault Unit × Machine M :=
  let cpu := Cpu.lockIf { cpu with registers := p.datapath.registers,
                                   cycles := cpu.cycles + p.cycles, phase := .fetching } x p.applied
  match p.result with
  | .error e => (.error ⟨x.origin, x.opcode, e⟩, ⟨cpu, p.memory⟩)
  | .ok _ => ((finish cpu p.memory x).1.map fun _ => (), (finish cpu p.memory x).2)

lemma tick_executing (h : cpu.phase = .executing x) :
    (⟨cpu, m⟩ : Machine M).tick = execute { cpu with cycles := cpu.cycles + 1 } m x := by
  unfold tick
  dsimp only
  rw [h]

lemma tick_fetching (h : cpu.phase = .fetching) :
    (⟨cpu, m⟩ : Machine M).tick = fetch { cpu with cycles := cpu.cycles + 1 } m := by
  unfold tick
  dsimp only
  rw [h]

/-- A cycle that ends the instruction is the last of its ticks. -/
lemma ticks_succ_of_ends {machine : Machine M}
    (h : machine.tick = finish cpu m x) :
    ticks (n + 1) machine = ((finish cpu m x).1.map fun _ => (), (finish cpu m x).2) := by
  rw [ticks, h]
  obtain ⟨r, bug, hfinish⟩ | ⟨e, r, -, hfinish⟩ := finish_cases cpu m x
  · rw [hfinish]
    rfl
  · rw [hfinish]
    rfl

/-- One cycle and what comes after it, taken together. -/
lemma settle_goesOn (cpu : Cpu) (x : Flight) {hit : Bool} {z w : UInt8} {k : Nat} {r : Registers}
    {p : Passage M} (honce : hit = true → p.applied = false) :
    settle { Cpu.lockIf { cpu with cycles := cpu.cycles + 1, registers := r } x hit with
        phase := .executing { x with z := z, w := w, cursor := k } }
      { x with z := z, w := w, cursor := k } p =
    settle cpu x { p with cycles := p.cycles + 1, applied := hit || p.applied } := by
  -- The cycle and what comes after it both may lock, but only one of them has the effect.
  have hlock : Cpu.lockIf
      { Cpu.lockIf { cpu with cycles := cpu.cycles + 1, registers := r } x hit with
        registers := p.datapath.registers
        cycles := cpu.cycles + (p.cycles + 1)
        phase := .fetching } { x with z := z, w := w, cursor := k } p.applied =
      Cpu.lockIf { cpu with registers := p.datapath.registers
                            cycles := cpu.cycles + (p.cycles + 1)
                            phase := .fetching } x (hit || p.applied) :=
    Cpu.lockIf_lockIf { cpu with cycles := cpu.cycles + 1 } x
      { x with z := z, w := w, cursor := k } rfl rfl rfl honce
  have hcycles : cpu.cycles + 1 + p.cycles = cpu.cycles + (p.cycles + 1) := by omega
  simp only [settle, Cpu.lockIf_cycles, hcycles, hlock]
  cases p.result with
  | error e => rfl
  | ok u =>
    dsimp only
    rw [finish_congr (x := x) (y := { x with z := z, w := w, cursor := k }) rfl rfl rfl]

/-- **A program in flight ends as its pass says**, when there are cycles enough to end it. -/
theorem ticks_executing (hphase : cpu.phase = .executing x)
    (hops : x.program.ops.drop x.cursor = ops) (hne : ops ≠ []) (hn : ops.length ≤ n) :
    ticks n ⟨cpu, m⟩ =
      settle cpu x (x.routine.pass x.cursor ⟨cpu.registers, x.z, x.w⟩ m ops) := by
  -- The induction is on what is left of the program; `cpu` and `x` are where it has come to.
  induction ops generalizing cpu m x n with
  | nil => exact absurd rfl hne
  | cons op ops ih =>
    obtain ⟨n, rfl⟩ : ∃ k, n = k + 1 := ⟨n - 1, by rw [List.length_cons] at hn; omega⟩
    let counted : Cpu := { cpu with cycles := cpu.cycles + 1 }
    have htick : (⟨cpu, m⟩ : Machine M).tick = execute counted m x := tick_executing hphase
    rcases hop : op.perform ⟨cpu.registers, x.z, x.w⟩ m with ⟨e | u, d, m'⟩
    · have hcycle := htick.trans (execute_error counted hops hop)
      rw [ticks, hcycle, Routine.pass, hop]
      simp [settle, Cpu.lockIf, counted]
    · by_cases hend : ops = [] ∨
          x.program.takes x.cursor (x.routine.applyAt x.cursor d).registers.flags = false
      · rw [ticks_succ_of_ends (htick.trans (execute_ends counted hops hop rfl hend)),
          Routine.pass_of_ends hop hend]
        rfl
      · obtain ⟨hne', htakes⟩ := not_or.mp hend
        rw [Bool.not_eq_false] at htakes
        have hcycle := htick.trans (execute_goesOn counted hops hne' hop rfl htakes)
        rw [ticks, hcycle, Routine.pass_of_takes hop htakes]
        dsimp only
        have hrest : x.program.ops.drop (x.cursor + 1) = ops := by
          rw [← List.tail_drop, hops, List.tail_cons]
        rw [ih rfl hrest hne' (by rw [List.length_cons] at hn; omega)]
        generalize hp : x.routine.pass (x.cursor + 1) (x.routine.applyAt x.cursor d) m' ops = p
        -- The effect is not taken both in this cycle and in a later one.
        have honce : decide (x.program.effectAt = some x.cursor) = true → p.applied = false := by
          intro hhit
          rw [Bool.eq_false_iff, ← hp]
          intro happlied
          obtain ⟨j, hj, heffect⟩ := Routine.effectAt_of_applied happlied
          have heq := Option.some.inj ((of_decide_eq_true hhit).symm.trans heffect)
          omega
        refine (congrArg (settle _ _) ?_).trans (settle_goesOn cpu x honce)
        rw [← hp]
        simp only [Cpu.lockIf_registers]

/-! ## Cycles that do not end a program -/

/-- Ticks that neither fail nor end an instruction. -/
inductive Runs : Nat → Machine M → Machine M → Prop
  | zero (s : Machine M) : Runs 0 s s
  | succ {n : Nat} {s t u : Machine M} (h : Runs n s t) (htick : t.tick = (.ok false, u)) :
      Runs (n + 1) s u

lemma ticks_of_runs {k : Nat} {s t : Machine M} (h : Runs n s t) :
    ticks (n + k) s = ticks k t := by
  induction h generalizing k with
  | zero => rw [Nat.zero_add]
  | succ h htick ih =>
    rw [Nat.add_assoc, Nat.add_comm 1 k, ih, ticks, htick]

/-- A micro-operation without the effect, and before the condition counts, leaves the program in
flight. -/
lemma tick_of_waits (hphase : cpu.phase = .executing x)
    (hops : x.program.ops.drop x.cursor = op :: ops) (hne : ops ≠ [])
    (h : op.perform ⟨cpu.registers, x.z, x.w⟩ m = (.ok (), d, m'))
    (heffect : x.program.effectAt ≠ some x.cursor)
    (htakes : x.program.takes x.cursor d.registers.flags = true) :
    (⟨cpu, m⟩ : Machine M).tick =
      (.ok false,
        ⟨{ cpu with registers := d.registers, cycles := cpu.cycles + 1,
                    phase := .executing { x with z := d.z, w := d.w, cursor := x.cursor + 1 } },
          m'⟩) := by
  have hd : x.routine.applyAt x.cursor d = d := if_neg heffect
  rw [tick_executing hphase,
    execute_goesOn { cpu with cycles := cpu.cycles + 1 } hops hne h hd htakes,
    decide_eq_false heffect]
  rfl

lemma Runs.cons {s t u : Machine M} (htick : s.tick = (.ok false, t)) (h : Runs n t u) :
    Runs (n + 1) s u := by
  induction h with
  | zero t => exact .succ (.zero s) htick
  | succ h hlast ih => exact .succ (ih htick) hlast

lemma Runs.unique {s t t' : Machine M} (h : Runs n s t) (h' : Runs n s t') : t' = t := by
  induction h generalizing t' with
  | zero =>
    cases h'
    rfl
  | succ _ htick ih =>
    cases h' with
    | succ h' htick' =>
      obtain rfl := ih h'
      exact congrArg Prod.snd (htick'.symm.trans htick)

/-- A cycle that does not end a program keeps what it is, and moves its cursor. -/
lemma phase_of_tick {s t : Machine M} (hs : s.cpu.phase = .executing x)
    (h : s.tick = (.ok false, t)) :
    ∃ z w, t.cpu.phase = .executing { x with z := z, w := w, cursor := x.cursor + 1 } := by
  obtain ⟨cpu, m⟩ := s
  rw [tick_executing hs] at h
  unfold execute at h
  dsimp only at h
  split at h
  · cases h
  · rename_i d n _
    rw [applyEffect_eq] at h
    dsimp only at h
    split at h
    · obtain rfl := congrArg Prod.snd h
      exact ⟨_, _, rfl⟩
    · obtain ⟨r, bug, hfinish⟩ | ⟨e, r, -, hfinish⟩ := finish_cases _ n _
      · cases h.symm.trans hfinish
      · cases h.symm.trans hfinish

lemma exists_flight_of_tick {s t : Machine M} (hs : s.cpu.phase = .executing x)
    (h : s.tick = (.ok false, t)) :
    ∃ y, t.cpu.phase = .executing y ∧ y.routine = x.routine ∧ y.cursor = x.cursor + 1 := by
  obtain ⟨z, w, hphase⟩ := phase_of_tick hs h
  exact ⟨_, hphase, rfl, rfl⟩

/-- Cycles that do not end a program move its cursor by as many places. -/
lemma exists_flight_of_runs {s t : Machine M} (hs : s.cpu.phase = .executing x) (h : Runs n s t) :
    ∃ y, t.cpu.phase = .executing y ∧ y.routine = x.routine ∧ y.cursor = x.cursor + n := by
  induction h with
  | zero => exact ⟨x, hs, rfl, rfl⟩
  | succ _ htick ih =>
    obtain ⟨y, hy, hroutine, hcursor⟩ := ih hs
    obtain ⟨y', hy', hroutine', hcursor'⟩ := exists_flight_of_tick hy htick
    exact ⟨y', hy', hroutine'.trans hroutine, by omega⟩

end Machine

end Handheld
