/-
# The cost of a step

What a step from between two instructions costs can be told before it: one cycle if the processor
idles, five if it answers an interrupt, and otherwise one for the fetch and those of the
instruction's program.  Of a conditional program these are fewer when the condition fails, and it is
the flags before the step that decide, as no micro-operation changes flags before the condition
counts (`Routine.cycles_pass`).  The main statement is `Machine.cost_of_step`.
-/
import Handheld.Proofs.Processor.Coherence
import Handheld.Proofs.Processor.Dispatch
import Handheld.Proofs.Processor.Duration

namespace Handheld

/-! ## Conditions -/

namespace Program

variable {p : Program} {k at_ : Nat} {condition : Condition} {f : Flags}

lemma takes_of_branch_none (h : p.branch = none) (k : Nat) (f : Flags) : p.takes k f = true := by
  rw [takes, h]

lemma takes_of_ne (h : p.branch = some (at_, condition)) (hne : at_ ≠ k) (f : Flags) :
    p.takes k f = true := by
  rw [takes, h]
  simp [hne]

lemma takes_self (h : p.branch = some (at_, condition)) (f : Flags) :
    p.takes at_ f = condition.holds f := by
  rw [takes, h]
  simp

/-- Whether a condition that ends a program early is an operand, and counts before the effect takes
hold. -/
structure Conditional (p : Program) (at_ : Nat) (condition : Condition) (o : Option Operand) :
    Prop where
  operand : o = some (.cond condition)
  inside : at_ < p.ops.length
  early : ∀ e, p.effectAt = some e → at_ < e

lemma conditional_of_branchAfter {o : Option Operand} {e : Nat} (hinside : k < p.ops.length)
    (heffect : p.effectAt = some e) (hearly : k < e)
    (h : branchAfter k o = some (at_, condition)) : p.Conditional at_ condition o := by
  unfold branchAfter at h
  split at h
  · obtain ⟨rfl, rfl⟩ := Prod.mk.inj (Option.some.inj h)
    refine ⟨rfl, hinside, ?_⟩
    intro e' he'
    obtain rfl := Option.some.inj (heffect.symm.trans he')
    exact hearly
  · cases h

lemma conditional_jump {first second : Option Operand}
    (h : (jump first second).branch = some (at_, condition)) :
    (jump first second).Conditional at_ condition first := by
  unfold jump at h ⊢
  split at h
  · cases h
  · exact conditional_of_branchAfter (by decide : 2 < 4) rfl (by decide : 2 < 3) h

lemma conditional_ret {first second : Option Operand}
    (h : (ret first second).branch = some (at_, condition)) :
    (ret first second).Conditional at_ condition first := by
  unfold ret at h ⊢
  split at h
  · cases h
    refine ⟨rfl, (by decide : 1 < 5), ?_⟩
    rintro e ⟨⟩
    decide
  · cases h

lemma branch_loadHigh (first second : Option Operand) : (loadHigh first second).branch = none := by
  unfold loadHigh
  split <;> rfl

lemma branch_step (first second : Option Operand) : (step first second).branch = none := by
  unfold step
  split <;> rfl

lemma branch_accumulate (source : Option Operand) : (accumulate source).branch = none := by
  unfold accumulate
  split <;> rfl

lemma branch_add (first second : Option Operand) : (add first second).branch = none := by
  unfold add
  split
  · rfl
  · rfl
  · exact branch_accumulate _

lemma branch_push (first second : Option Operand) : (push first second).branch = none := by
  unfold push
  split <;> rfl

lemma branch_shift (first second : Option Operand) : (shift first second).branch = none := by
  unfold shift
  split <;> rfl

lemma branch_testBit (o : Option Operand) : (testBit o).branch = none := by
  unfold testBit
  split <;> rfl

lemma branch_changeBit (o : Option Operand) : (changeBit o).branch = none := by
  unfold changeBit
  split <;> rfl

/-- A condition that ends the program of an instruction early is its first operand. -/
lemma conditional_of_branch {i : Instruction}
    (h : (ofInstruction i).branch = some (at_, condition)) :
    (ofInstruction i).Conditional at_ condition i.first := by
  have hnone {p p' : Program} (hp : p.branch = none) (h : p.branch = some (at_, condition)) :
      p'.Conditional at_ condition i.first :=
    absurd (hp.symm.trans h) nofun
  obtain ⟨kind, first, second⟩ := i
  unfold ofInstruction at h ⊢
  cases kind with
  | jr => exact conditional_of_branchAfter (by decide : 1 < 3) rfl (by decide : 1 < 2) h
  | call => exact conditional_of_branchAfter (by decide : 2 < 6) rfl (by decide : 2 < 5) h
  | jp => exact conditional_jump h
  | ret => exact conditional_ret h
  | ld => exact hnone (fits_branch_load _ _).2 h
  | ldh => exact hnone (branch_loadHigh _ _) h
  | inc | dec => exact hnone (branch_step _ _) h
  | add => exact hnone (branch_add _ _) h
  | adc | sub | sbc | and | xor | or | cp => exact hnone (branch_accumulate _) h
  | push => exact hnone (branch_push _ _) h
  | rlc | rrc | rl | rr | sla | sra | swap | srl => exact hnone (branch_shift _ _) h
  | bit => exact hnone (branch_testBit _) h
  | res | set => exact hnone (branch_changeBit _) h
  | _ => cases h

end Program

/-- The cycles that the program of an instruction takes, by the flags before it. -/
def Instruction.duration (i : Instruction) (f : Flags) : Nat :=
  if i.isTaken f then (Program.ofInstruction i).maxCycles else (Program.ofInstruction i).minCycles

namespace Routine

variable {M : Type} [Memory M] {r : Routine} {k : Nat} {d : Datapath} {m : M}
  {ops : List MicroOp}

/-- The first micro-operation of a pass that works works. -/
lemma perform_of_pass {op : MicroOp} (h : (r.pass k d m (op :: ops)).result = .ok ()) :
    ∃ d' m', op.perform d m = (.ok (), d', m') := by
  unfold pass at h
  rcases hop : op.perform d m with ⟨e | u, d', m'⟩
  · rw [hop] at h
    cases h
  · exact ⟨d', m', rfl⟩

/-- Where no condition counts any more, each micro-operation takes its cycle. -/
lemma cycles_pass_of_takes (htakes : ∀ j, k ≤ j → ∀ f, r.program.takes j f = true)
    (h : (r.pass k d m ops).result = .ok ()) : (r.pass k d m ops).cycles = ops.length := by
  induction ops generalizing k d m with
  | nil => rfl
  | cons op ops ih =>
    obtain ⟨d', m', hop⟩ := perform_of_pass h
    rw [pass_of_takes hop (htakes k (Nat.le_refl k) _)] at h ⊢
    exact congrArg (· + 1) (ih (fun j hj => htakes j (Nat.le_of_succ_le hj)) h)

/-- Where a condition is still to count, it decides by the flags before the pass. -/
lemma cycles_pass_of_branch {at_ : Nat} {condition : Condition}
    (hbranch : r.program.branch = some (at_, condition))
    (heffect : ∀ e, r.program.effectAt = some e → at_ < e) (hk : k ≤ at_)
    (hat : at_ < k + ops.length) (h : (r.pass k d m ops).result = .ok ()) :
    (r.pass k d m ops).cycles =
      if condition.holds d.registers.flags then ops.length else at_ + 1 - k := by
  induction ops generalizing k d m with
  | nil => exact absurd hat (Nat.not_lt_of_le hk)
  | cons op ops ih =>
    obtain ⟨d', m', hop⟩ := perform_of_pass h
    have hflags : d'.registers.flags = d.registers.flags := (MicroOp.perform_keeps hop).1
    -- the effect, which may change the flags, comes later
    have happly : r.applyAt k d' = d' :=
      if_neg fun he => absurd (heffect k he) (Nat.not_lt_of_le hk)
    rw [List.length_cons] at hat ⊢
    by_cases hne : at_ = k
    · subst hne
      have htakes := Program.takes_self hbranch (r.applyAt at_ d').registers.flags
      rw [happly, hflags] at htakes
      cases hholds : condition.holds d.registers.flags with
      | true =>
        rw [hholds] at htakes
        rw [pass_of_takes hop (by rw [happly, hflags]; exact htakes)] at h ⊢
        refine congrArg (· + 1) (cycles_pass_of_takes (fun j hj f => ?_) h)
        exact Program.takes_of_ne hbranch (Nat.ne_of_lt hj) f
      | false =>
        rw [hholds] at htakes
        rw [pass_of_ends hop (.inr (by rw [happly, hflags]; exact htakes))]
        simp
    · have hlt : k < at_ := Nat.lt_of_le_of_ne hk (Ne.symm hne)
      rw [pass_of_takes hop (Program.takes_of_ne hbranch hne _)] at h ⊢
      have hrest := ih hlt (by omega) h
      dsimp only
      rw [hrest, happly, hflags]
      split
      · rfl
      · omega

/-- **The cycles of an instruction's program** that is carried out without a failure. -/
theorem cycles_pass {i : Instruction} {r : Registers}
    (h : ((instruction i).pass 0 ⟨r, 0, 0⟩ m (Program.ofInstruction i).ops).result = .ok ()) :
    ((instruction i).pass 0 ⟨r, 0, 0⟩ m (Program.ofInstruction i).ops).cycles =
      i.duration r.flags := by
  have hprogram : (instruction i).program = Program.ofInstruction i := rfl
  unfold Instruction.duration
  cases hbranch : (Program.ofInstruction i).branch with
  | none =>
    rw [cycles_pass_of_takes ?_ h]
    · simp [Program.minCycles, Program.maxCycles, hbranch]
    · intro j _
      rw [hprogram]
      exact Program.takes_of_branch_none hbranch j
  | some branch =>
    obtain ⟨at_, condition⟩ := branch
    obtain ⟨hfirst, hinside, hearly⟩ := Program.conditional_of_branch hbranch
    rw [← hprogram] at hbranch hearly
    rw [cycles_pass_of_branch hbranch hearly (Nat.zero_le _) (by omega) h]
    rw [hprogram] at hbranch
    simp [Instruction.isTaken, hfirst, Program.minCycles, Program.maxCycles, hbranch]

end Routine

namespace Machine

variable {M : Type} [Memory M] {s t : Machine M} {cpu : Cpu} {m : M} {x : Flight} {n k : Nat}

/-! ## Programs in flight -/

lemma cycles_of_settle {p : Passage M} (h : settle cpu x p = (.ok (), t)) :
    p.result = .ok () ∧ t.cpu.cycles = cpu.cycles + p.cycles := by
  unfold settle at h
  dsimp only at h
  split at h
  · cases h
  · rename_i hresult
    obtain rfl := congrArg Prod.snd h
    refine ⟨hresult, ?_⟩
    dsimp only
    rw [finish_cycles, Cpu.lockIf_cycles]

/-- A program in flight takes the cycles of its pass. -/
lemma cycles_of_ticks {ops : List MicroOp} (hphase : cpu.phase = .executing x)
    (hops : x.program.ops.drop x.cursor = ops) (hne : ops ≠ []) (hk : ops.length ≤ k)
    (h : ticks k ⟨cpu, m⟩ = (.ok (), t)) :
    (x.routine.pass x.cursor ⟨cpu.registers, x.z, x.w⟩ m ops).result = .ok () ∧
      t.cpu.cycles =
        cpu.cycles + (x.routine.pass x.cursor ⟨cpu.registers, x.z, x.w⟩ m ops).cycles := by
  rw [ticks_executing hphase hops hne hk] at h
  exact cycles_of_settle h

/-! ## Cycles to the end of an instruction -/

/-- The cycles to the end of an instruction, with their number: none but the last ends it. -/
inductive EndsIn : Nat → Machine M → Machine M → Prop
  | last {s t : Machine M} (htick : s.tick = (.ok true, t)) : EndsIn 1 s t
  | cons {n : Nat} {s t u : Machine M} (htick : s.tick = (.ok false, t)) (h : EndsIn n t u) :
      EndsIn (n + 1) s u

lemma EndsIn.exists_runs (h : EndsIn n s t) :
    ∃ k u, n = k + 1 ∧ Runs k s u ∧ u.tick = (.ok true, t) := by
  induction h with
  | @last s t htick => exact ⟨0, s, rfl, .zero s, htick⟩
  | cons htick _ ih =>
    obtain ⟨k, u, rfl, hruns, hend⟩ := ih
    exact ⟨k + 1, u, rfl, .cons htick hruns, hend⟩

lemma EndsIn.step (h : EndsIn n s t) (hn : n ≤ longestStep) : s.step = (.ok n, t) := by
  obtain ⟨k, u, rfl, hruns, hend⟩ := h.exists_runs
  exact step_of_runs hruns hend hn

lemma EndsIn.cycles_eq (h : EndsIn n s t) : t.cpu.cycles = s.cpu.cycles + n := by
  induction h with
  | @last s t htick =>
    have hcycles := tick_cycles s
    rwa [htick] at hcycles
  | @cons n s t u htick _ ih =>
    have hcycles := tick_cycles s
    rw [htick] at hcycles
    rw [ih, hcycles]
    omega

lemma exists_endsIn_of_ticks (hleft : s.left ≤ k) (hpos : 0 < k) (h : ticks k s = (.ok (), t)) :
    ∃ n, EndsIn n s t := by
  induction k generalizing s with
  | zero => exact absurd hpos (Nat.lt_irrefl 0)
  | succ k ih =>
    have hnears := nears_tick s
    rw [ticks] at h
    rcases htick : s.tick with ⟨result, u⟩
    rw [htick] at hnears h
    cases hnears with
    | goesOn hpos' hleft' =>
      obtain ⟨n, hends⟩ := ih (s := u) (by omega) (by omega) h
      exact ⟨n + 1, .cons htick hends⟩
    | ends hresult hphase =>
      rcases result with e | _ | _
      · cases h
      · exact absurd rfl hresult
      · obtain rfl := congrArg Prod.snd h
        exact ⟨1, .last htick⟩

/-- A step is the cycles to the end of an instruction, and answers their number. -/
lemma endsIn_of_step (h : s.step = (.ok n, t)) : EndsIn n s t := by
  obtain ⟨hticks, -⟩ := step_eq_ok_iff.mp h
  obtain ⟨k, hends⟩ := exists_endsIn_of_ticks s.left_le (Nat.zero_lt_succ _) hticks
  have hcycles := hends.cycles_eq
  rw [(length_of_step h).2.2] at hcycles
  rwa [Nat.add_left_cancel hcycles]

/-! ## Sleepers -/

/-- Whether the machine stands between two instructions and goes on to fetch: it is not locked,
nothing keeps it asleep, and no interrupt will be taken. -/
structure Begins (s : Machine M) : Prop where
  boundary : s.cpu.phase = .fetching
  unlocked : s.cpu.locked = false
  roused : s.cpu.registers.halted = true → Interrupt.poll s.memory ≠ .ok none
  undisturbed : s.cpu.registers.ime = .enabled → ∀ j, Interrupt.poll s.memory ≠ .ok (some j)

/-- The machine awake. -/
def awake (s : Machine M) : Machine M :=
  ⟨{ s.cpu with registers.halted := false }, s.memory⟩

lemma Begins.fetches (h : s.Begins) : s.awake.Fetches :=
  ⟨h.boundary, h.unlocked, rfl, h.undisturbed⟩

/-- A sleeper that is roused does what it would do awake. -/
lemma Begins.tick_awake (h : s.Begins) {pending : Option Interrupt}
    (hpoll : Interrupt.poll s.memory = .ok pending) : s.awake.tick = s.tick := by
  rw [tick_eq_fetchInstruction h.fetches hpoll]
  obtain ⟨cpu, m⟩ := s
  obtain ⟨hphase, hlocked, hroused, hdisturbed⟩ := h
  dsimp only at hphase hlocked hroused hdisturbed hpoll
  rw [tick_fetching hphase, fetch, if_neg (by simp [hlocked]), hpoll]
  cases pending with
  | none =>
    have hawake : cpu.registers.halted = false := by
      rw [Bool.eq_false_iff]
      exact fun hhalted => hroused hhalted hpoll
    dsimp only
    rw [if_neg (by simp [hawake])]
    simp only [awake, ← hawake]
  | some j =>
    have hdisabled : cpu.registers.ime ≠ .enabled := fun henabled => hdisturbed henabled j hpoll
    dsimp only
    rw [if_neg hdisabled]
    rfl

/-- The cycle in which an instruction is fetched, once what it reads is known. -/
lemma Begins.tick_eq (h : s.Begins) {pending : Option Interrupt} {i : Instruction} {b : UInt8}
    (hpoll : Interrupt.poll s.memory = .ok pending)
    (hread : Memory.read s.memory s.cpu.registers.pc = .ok b)
    (hfetched : s.cpu.fetched s.memory = .ok i) :
    s.tick = (.ok false, ⟨s.awake.cpu.launch i b, s.memory⟩) := by
  rw [← h.tick_awake hpoll, tick_eq_fetchInstruction h.fetches hpoll]
  exact fetchInstruction_eq hread hfetched

/-- A step that works has read the interrupts and an instruction. -/
lemma Begins.exists_of_step (hs : s.Begins) (h : s.step = (.ok n, t)) :
    ∃ pending i b, Interrupt.poll s.memory = .ok pending ∧
      Memory.read s.memory s.cpu.registers.pc = .ok b ∧ s.cpu.fetched s.memory = .ok i := by
  have hok := tick_ne_error (step_eq_ok_iff.mp h).1
  obtain ⟨pending, hpoll⟩ := exists_poll_of_tick hs.boundary hs.unlocked hok
  rw [← hs.tick_awake hpoll] at hok
  obtain ⟨i, b, hfetched, hread, -⟩ := tick_of_fetches hs.fetches hok
  exact ⟨pending, i, b, hpoll, hread, hfetched⟩

/-- Behind the fetch come the cycles of the instruction. -/
lemma Begins.exists_endsIn (hs : s.Begins) {pending : Option Interrupt} {i : Instruction}
    {b : UInt8} (hpoll : Interrupt.poll s.memory = .ok pending)
    (hread : Memory.read s.memory s.cpu.registers.pc = .ok b)
    (hfetched : s.cpu.fetched s.memory = .ok i) (h : s.step = (.ok n, t)) :
    ∃ k, n = k + 1 ∧ EndsIn k ⟨s.awake.cpu.launch i b, s.memory⟩ t := by
  have htick := hs.tick_eq hpoll hread hfetched
  cases endsIn_of_step h with
  | last hlast => cases htick.symm.trans hlast
  | @cons k _ u _ hfetch hends =>
    obtain rfl := congrArg Prod.snd (htick.symm.trans hfetch)
    exact ⟨k, rfl, hends⟩

/-! ## Steps -/

/-- What the next step costs from between two instructions. -/
def cost (s : Machine M) : Except MemoryError Nat :=
  if s.cpu.locked then .ok 1
  else do
    let pending ← Interrupt.poll s.memory
    if pending.isNone ∧ s.cpu.registers.halted then return 1
    else if pending.isSome ∧ s.cpu.registers.ime = .enabled then return 5
    else
      let i ← s.cpu.fetched s.memory
      return 1 + i.duration s.cpu.registers.flags

lemma tick_of_asleep (hphase : s.cpu.phase = .fetching) (hlocked : s.cpu.locked = false)
    (hpoll : Interrupt.poll s.memory = .ok none) (hhalted : s.cpu.registers.halted = true) :
    s.tick = (.ok true, ⟨{ s.cpu with cycles := s.cpu.cycles + 1 }, s.memory⟩) := by
  obtain ⟨cpu, m⟩ := s
  dsimp only at hphase hlocked hpoll hhalted
  simp [tick, hphase, fetch, hlocked, hpoll, hhalted]

/-- An idle cycle is a step of its own. -/
lemma eq_one_of_tick {u : Machine M} (htick : s.tick = (.ok true, u)) (h : s.step = (.ok n, t)) :
    n = 1 := by
  have hstep := (step_of_runs (.zero s) htick (by decide)).symm.trans h
  exact (Except.ok.inj (congrArg Prod.fst hstep)).symm

/-- A cycle that begins to answer an interrupt and works has taken the request back. -/
lemma exists_acknowledge_of_tick {i : Interrupt} (hs : s.Attends)
    (hpoll : Interrupt.poll s.memory = .ok (some i)) (hok : ∀ e, s.tick.1 ≠ .error e) :
    ∃ m, i.acknowledge s.memory = (.ok (), m) := by
  obtain ⟨cpu, m⟩ := s
  obtain ⟨hphase, hlocked, hime⟩ := hs
  dsimp only at hphase hlocked hime hpoll ⊢
  rcases hack : i.acknowledge m with ⟨e | u, m'⟩
  · refine absurd ?_ (hok ⟨cpu.registers.pc, none, e⟩)
    simp [tick, hphase, fetch, hlocked, hpoll, hime, dispatch, hack]
  · exact ⟨m', rfl⟩

/-- An interrupt is answered in five cycles. -/
lemma eq_five_of_attends {i : Interrupt} (hs : s.Attends)
    (hpoll : Interrupt.poll s.memory = .ok (some i)) (h : s.step = (.ok n, t)) : n = 5 := by
  obtain ⟨hticks, rfl⟩ := step_eq_ok_iff.mp h
  obtain ⟨m, hack⟩ := exists_acknowledge_of_tick hs hpoll (tick_ne_error hticks)
  rw [longestStep, ticks, tick_of_attends hs hpoll hack] at hticks
  obtain ⟨hresult, hcycles⟩ := cycles_of_ticks rfl
    (show _ = Program.dispatch.ops.drop 1 from rfl) (List.cons_ne_nil _ _) (by decide) hticks
  rw [hcycles, Routine.cycles_pass_of_takes ?_ hresult]
  · change s.cpu.cycles + 1 + 4 - s.cpu.cycles = 5
    omega
  · intro j _
    exact Program.takes_of_branch_none rfl j

/-- An instruction that is fetched takes a cycle more than its program. -/
lemma exists_duration_of_begins (hs : s.Begins) (h : s.step = (.ok n, t)) :
    ∃ i, s.cpu.fetched s.memory = .ok i ∧ n = 1 + i.duration s.cpu.registers.flags := by
  obtain ⟨pending, i, b, hpoll, hread, hfetched⟩ := hs.exists_of_step h
  obtain ⟨hticks, rfl⟩ := step_eq_ok_iff.mp h
  obtain ⟨hpos, hlt⟩ := Program.fits_ofInstruction i
  rw [longestStep, ticks, hs.tick_eq hpoll hread hfetched] at hticks
  obtain ⟨hresult, hcycles⟩ := cycles_of_ticks rfl (show _ = (Program.ofInstruction i).ops from rfl)
    (List.length_pos_iff.mp hpos) (Nat.le_of_lt_succ hlt) hticks
  refine ⟨i, hfetched, ?_⟩
  rw [hcycles.trans (congrArg (_ + ·) (Routine.cycles_pass hresult))]
  change s.cpu.cycles + 1 + i.duration s.cpu.registers.flags - s.cpu.cycles = _
  omega

/-- **The cost of a step that works**, from between two instructions.  A locked processor and one
that nothing rouses take one cycle, the answer to an interrupt five, and an instruction a cycle more
than its program, whose length is decided by the flags before the step.  The cycle counter grows by
the cost, and of the cycles only the last answers that the instruction has ended. -/
theorem cost_of_step (hs : s.cpu.phase = .fetching) (h : s.step = (.ok n, t)) :
    s.cost = .ok n ∧ t.cpu.cycles = s.cpu.cycles + n ∧
      ∃ u, Runs (n - 1) s u ∧ u.tick = (.ok true, t) := by
  obtain ⟨k, u, hk, hruns, hend⟩ := (endsIn_of_step h).exists_runs
  obtain rfl : k = n - 1 := by omega
  refine ⟨?_, (length_of_step h).2.2, u, hruns, hend⟩
  unfold cost
  cases hlocked : s.cpu.locked with
  | true =>
    rw [eq_one_of_tick (tick_of_locked hs hlocked s.memory) h]
    rfl
  | false =>
    have hok := tick_ne_error (step_eq_ok_iff.mp h).1
    obtain ⟨pending, hpoll⟩ := exists_poll_of_tick hs hlocked hok
    rw [if_neg Bool.false_ne_true, hpoll, ok_bind]
    by_cases hasleep : pending.isNone ∧ s.cpu.registers.halted
    · obtain rfl := Option.isNone_iff_eq_none.mp hasleep.1
      rw [if_pos hasleep, eq_one_of_tick (tick_of_asleep hs hlocked hpoll hasleep.2) h]
      rfl
    rw [if_neg hasleep]
    by_cases hanswers : pending.isSome ∧ s.cpu.registers.ime = .enabled
    · obtain ⟨i, rfl⟩ := Option.isSome_iff_exists.mp hanswers.1
      rw [if_pos hanswers, eq_five_of_attends ⟨hs, hlocked, hanswers.2⟩ hpoll h]
      rfl
    · rw [if_neg hanswers]
      have hbegins : s.Begins := by
        refine ⟨hs, hlocked, fun hhalted hnone => ?_, fun henabled j hsome => ?_⟩
        · obtain rfl := Except.ok.inj (hpoll.symm.trans hnone)
          exact hasleep ⟨rfl, hhalted⟩
        · obtain rfl := Except.ok.inj (hpoll.symm.trans hsome)
          exact hanswers ⟨rfl, henabled⟩
      obtain ⟨i, hfetched, rfl⟩ := exists_duration_of_begins hbegins h
      rw [hfetched]
      rfl

/-- A machine that is about to return if the last result was not zero, which it was. -/
def staying : Machine MemoryMap where
  cpu := { registers := { pc := 0xC000, flags := { zero := true } } }
  memory :=
    ⟨[.backed (.ram (.ofBytes "program" 0xC000 ⟨#[0xC0]⟩ .readWrite)),
      .backed (.ram (.ofBytes "if" 0xFF0F ⟨#[0x00]⟩ .readWrite)),
      .backed (.ram (.ofBytes "ie" 0xFFFF ⟨#[0x00]⟩ .readWrite))], {}⟩

/-- The return that is not taken costs three of the six cycles of one that is. -/
theorem staying_cost :
    staying.cpu.phase = .fetching ∧ staying.step = (.ok 3, staying.step.2) ∧
      staying.cost = .ok 3 ∧ staying.step.2.cpu.cycles = 3 ∧
      ∃ u, Runs 2 staying u ∧ u.tick = (.ok true, staying.step.2) := by
  have hstep : staying.step = (.ok 3, staying.step.2) := by
    refine Prod.ext ?_ rfl
    decide +kernel
  exact ⟨rfl, hstep, cost_of_step rfl hstep⟩

end Machine

end Handheld
