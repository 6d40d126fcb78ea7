/-
# Machines whose memory answers

On a memory that answers every access no cycle fails, and every instruction comes to its end: a
machine is at most a fetch and the longest program away from it
(`Machine.Sound.exists_step`).
-/
import Handheld.Proofs.Processor.Fetch
import Handheld.Proofs.Processor.Step

namespace Handheld

variable {M : Type}

/-- Whether memories of a kind answer every access, and stay of the kind. -/
structure Memory.Answers [Memory M] (kind : M → Prop) : Prop where
  read {m : M} (h : kind m) (a : Address) : ∃ v, Memory.read m a = .ok v
  write {m : M} (h : kind m) (a : Address) (v : UInt8) :
    ∃ m', Memory.write m a v = (.ok (), m') ∧ kind m'

/-- Whether a program in flight has come from a fetch or a dispatch: its cursor stands at one of
its micro-operations, and an instruction has one of the forms of the table. -/
structure Flight.Sound (x : Flight) : Prop where
  cursor : x.cursor < x.program.ops.length
  form : ∀ i, x.routine = .instruction i → ∃ bytes, i.Form bytes

/-- The number of micro-operations that are left of a program. -/
def Flight.left (x : Flight) : Nat :=
  x.program.ops.length - x.cursor

namespace Machine

/-- Whether a machine has a memory of a kind, and a sound program if one is in flight. -/
structure Sound (kind : M → Prop) (s : Machine M) : Prop where
  memory : kind s.memory
  flight : ∀ x, s.cpu.phase = .executing x → x.Sound

/-- The most cycles that the machine is away from the end of an instruction. -/
def left (s : Machine M) : Nat :=
  match s.cpu.phase with
  | .fetching => longestStep
  | .executing x => x.left

/-- What a cycle without a failure leaves: a machine between two instructions, or one with fewer
than `n` cycles left. -/
inductive Advances (kind : M → Prop) (n : Nat) : Except Fault Bool × Machine M → Prop
  | ends {s : Machine M} (hs : s.Sound kind) (hphase : s.cpu.phase = .fetching) :
      Advances kind n (.ok true, s)
  | goesOn {s : Machine M} (hs : s.Sound kind) (hleft : s.left < n) :
      Advances kind n (.ok false, s)

variable {kind : M → Prop} {cpu : Cpu} {m : M} {x : Flight} {s t u : Machine M} {n k : Nat}

lemma Advances.mono {n' : Nat} {r : Except Fault Bool × Machine M} (h : Advances kind n r)
    (hn : n ≤ n') : Advances kind n' r := by
  cases h with
  | ends hs hphase => exact .ends hs hphase
  | goesOn hs hleft => exact .goesOn hs (Nat.lt_of_lt_of_le hleft hn)

lemma advances_idle (hm : kind m) (hphase : cpu.phase = .fetching) :
    Advances kind n (.ok true, ⟨cpu, m⟩) := by
  refine .ends ⟨hm, ?_⟩ hphase
  intro x hx
  exact absurd (hphase.symm.trans hx) nofun

lemma fits_program (r : Routine) : r.program.Fits := by
  cases r with
  | instruction i => exact Program.fits_ofInstruction i
  | interrupt i => exact Program.fits_dispatch

lemma left_le (s : Machine M) : s.left ≤ longestStep := by
  unfold left
  split
  · exact Nat.le_refl _
  · rename_i x _
    have hlt := (fits_program x.routine).2
    change x.routine.program.ops.length - x.cursor ≤ longestStep
    omega

lemma Sound.left_pos (hs : s.Sound kind) : 0 < s.left := by
  unfold left
  split
  · exact Nat.zero_lt_succ _
  · rename_i x hphase
    exact Nat.sub_pos_of_lt (hs.flight x hphase).cursor

variable [Memory M]

/-! ## Accesses -/

/-- A micro-operation does not fail. -/
lemma exists_perform (h : Memory.Answers kind) (hm : kind m) (op : MicroOp) (d : Datapath) :
    ∃ d' m', op.perform d m = (.ok (), d', m') ∧ kind m' := by
  unfold MicroOp.perform
  split
  · exact ⟨_, m, rfl, hm⟩
  · rename_i d' a hissue
    obtain ⟨v, hv⟩ := h.read hm a
    rw [hv]
    exact ⟨_, m, rfl, hm⟩
  · rename_i d' a v hissue
    obtain ⟨m', hm', hkind⟩ := h.write hm a v
    rw [hm']
    exact ⟨_, m', rfl, hkind⟩

lemma exists_poll (h : Memory.Answers kind) (hm : kind m) :
    ∃ pending, Interrupt.poll m = .ok pending := by
  obtain ⟨requested, hrequested⟩ := h.read hm Interrupt.requestAddress
  obtain ⟨enabled, henabled⟩ := h.read hm Interrupt.enableAddress
  rw [Interrupt.poll, hrequested, henabled]
  exact ⟨_, rfl⟩

lemma exists_acknowledge (h : Memory.Answers kind) (hm : kind m) (i : Interrupt) :
    ∃ m', i.acknowledge m = (.ok (), m') ∧ kind m' := by
  obtain ⟨flags, hflags⟩ := h.read hm Interrupt.requestAddress
  unfold Interrupt.acknowledge
  rw [hflags]
  exact h.write hm _ _

/-- Where every byte can be read there is an instruction. -/
lemma exists_fetched (h : Memory.Answers kind) (hm : kind m) (cpu : Cpu) :
    ∃ i, cpu.fetched m = .ok i := by
  cases hdecode : Instruction.decodeStream (cpu.fetchStream m) with
  | ok result => exact ⟨result.1, Cpu.fetched_eq_ok_iff.mpr ⟨result.2, hdecode⟩⟩
  | error e =>
    -- decoding fails at a byte that cannot be read, and there is none
    obtain ⟨bytes, -, -, herror⟩ := Instruction.exists_error_of_decodeStream hdecode
    obtain ⟨v, hv⟩ := h.read hm
      (cpu.registers.pc + UInt16.ofNat (if cpu.haltBug then bytes.length - 1 else bytes.length))
    exact absurd (hv.symm.trans herror) nofun

/-! ## The end of an instruction -/

/-- The end of an instruction neither moves the memory nor takes time. -/
lemma exists_finish (h : Memory.Answers kind) (hm : kind m) (cpu : Cpu) (x : Flight) :
    ∃ cpu', finish cpu m x = (.ok true, ⟨cpu', m⟩) ∧ cpu'.phase = cpu.phase := by
  obtain ⟨r, bug, hfinish⟩ | ⟨e, r, herror, -⟩ := finish_cases cpu m x
  · exact ⟨_, hfinish, rfl⟩
  · obtain ⟨pending, hpoll⟩ := exists_poll h hm
    exact absurd (hpoll.symm.trans herror) nofun

/-! ## Cycles -/

/-- A micro-operation ends its program or leaves one fewer. -/
lemma advances_execute (h : Memory.Answers kind) (hm : kind m) (cpu : Cpu) (hx : x.Sound) :
    Advances kind x.left (execute cpu m x) := by
  obtain ⟨op, ops, hops⟩ : ∃ op ops, x.program.ops.drop x.cursor = op :: ops :=
    ⟨_, _, List.drop_eq_getElem_cons hx.cursor⟩
  obtain ⟨d, m', hperform, hm'⟩ := exists_perform h hm op ⟨cpu.registers, x.z, x.w⟩
  by_cases hend : ops = [] ∨
      x.program.takes x.cursor (x.routine.applyAt x.cursor d).registers.flags = false
  · rw [execute_ends cpu hops hperform rfl hend]
    obtain ⟨cpu', hfinish, hphase⟩ := exists_finish h hm' _ x
    rw [hfinish]
    rw [Cpu.lockIf_phase] at hphase
    refine .ends ⟨hm', ?_⟩ hphase
    intro y hy
    exact absurd (hphase.symm.trans hy) nofun
  · obtain ⟨hne, htakes⟩ := not_or.mp hend
    rw [Bool.not_eq_false] at htakes
    rw [execute_goesOn cpu hops hne hperform rfl htakes]
    have hlen := congrArg List.length hops
    have hpos := List.length_pos_iff.mpr hne
    rw [List.length_drop, List.length_cons] at hlen
    refine .goesOn ⟨hm', ?_⟩ ?_
    · intro y hy
      obtain rfl := Phase.executing.inj hy
      exact ⟨by change x.cursor + 1 < x.program.ops.length; omega, hx.form⟩
    · change x.program.ops.length - (x.cursor + 1) < x.left
      unfold Flight.left
      omega

/-- A fetch puts a program of the table in flight. -/
lemma advances_fetchInstruction (h : Memory.Answers kind) (hm : kind m) (cpu : Cpu) :
    Advances kind longestStep (fetchInstruction { cpu with cycles := cpu.cycles + 1 } m) := by
  obtain ⟨i, hfetched⟩ := exists_fetched h hm cpu
  obtain ⟨b, bytes, -, hform, hread, -⟩ := Cpu.exists_form_of_fetched hfetched
  obtain ⟨hpos, hlt⟩ := Program.fits_ofInstruction i
  rw [fetchInstruction_eq hread hfetched]
  refine .goesOn ⟨hm, ?_⟩ hlt
  intro y hy
  obtain rfl := Phase.executing.inj hy
  refine ⟨hpos, ?_⟩
  intro j hj
  obtain rfl := Routine.instruction.inj hj
  exact ⟨bytes, hform⟩

/-- A dispatch is its own first micro-operation. -/
lemma advances_dispatch (h : Memory.Answers kind) (hm : kind m) (cpu : Cpu) (i : Interrupt) :
    Advances kind longestStep (dispatch cpu m i) := by
  obtain ⟨m', hacknowledge, hm'⟩ := exists_acknowledge h hm i
  obtain ⟨hpos, hlt⟩ := Program.fits_dispatch
  unfold dispatch
  dsimp only
  rw [hacknowledge]
  refine (advances_execute h hm' _ ⟨hpos, ?_⟩).mono (Nat.le_of_lt hlt)
  intro j hj
  cases hj

/-- Between two instructions the processor idles, fetches, or answers an interrupt. -/
lemma advances_fetch (h : Memory.Answers kind) (hm : kind m) (hphase : cpu.phase = .fetching) :
    Advances kind longestStep (fetch { cpu with cycles := cpu.cycles + 1 } m) := by
  obtain ⟨pending, hpoll⟩ := exists_poll h hm
  unfold fetch
  rw [hpoll]
  split
  · exact advances_idle hm hphase
  · cases pending with
    | none =>
      dsimp only
      split
      · exact advances_idle hm hphase
      · exact advances_fetchInstruction h hm cpu
    | some i =>
      dsimp only
      split
      · exact advances_dispatch h hm _ i
      · exact advances_fetchInstruction h hm
          { cpu with registers := { cpu.registers with halted := false } }

/-- **No cycle fails on a memory that answers**, and each ends an instruction or brings the machine
closer to its end. -/
theorem advances_tick (h : Memory.Answers kind) (hs : s.Sound kind) :
    Advances kind s.left s.tick := by
  obtain ⟨cpu, m⟩ := s
  obtain ⟨hm, hflight⟩ := hs
  cases hphase : cpu.phase with
  | executing x =>
    have hleft : (⟨cpu, m⟩ : Machine M).left = x.left := by
      simp only [left, hphase]
    rw [tick_executing hphase, hleft]
    exact advances_execute h hm _ (hflight x hphase)
  | fetching =>
    have hleft : (⟨cpu, m⟩ : Machine M).left = longestStep := by
      simp only [left, hphase]
    rw [tick_fetching hphase, hleft]
    exact advances_fetch h hm hphase

/-! ## Time -/

lemma finish_cycles (cpu : Cpu) (m : M) (x : Flight) :
    (finish cpu m x).2.cpu.cycles = cpu.cycles := by
  obtain ⟨r, bug, hfinish⟩ | ⟨e, r, -, hfinish⟩ := finish_cases cpu m x
  all_goals rw [hfinish]

lemma execute_cycles (cpu : Cpu) (m : M) (x : Flight) :
    (execute cpu m x).2.cpu.cycles = cpu.cycles := by
  unfold execute
  dsimp only
  split
  · rfl
  · rw [applyEffect_eq]
    dsimp only
    split
    · rw [Cpu.lockIf_cycles]
    · rw [finish_cycles, Cpu.lockIf_cycles]

lemma fetchInstruction_cycles (cpu : Cpu) (m : M) :
    (fetchInstruction cpu m).2.cpu.cycles = cpu.cycles := by
  obtain ⟨e, pc, bug, -, h⟩ | ⟨pc, i, opcode, journal, h⟩ := fetchInstruction_cases cpu m
  all_goals rw [h]

lemma dispatch_cycles (cpu : Cpu) (m : M) (i : Interrupt) :
    (dispatch cpu m i).2.cpu.cycles = cpu.cycles := by
  unfold dispatch
  dsimp only
  split
  · rfl
  · rw [execute_cycles]
    rfl

lemma fetch_cycles (cpu : Cpu) (m : M) : (fetch cpu m).2.cpu.cycles = cpu.cycles := by
  obtain ⟨result, h⟩ | ⟨-, h⟩ | ⟨i, -, -, -, h⟩ := fetch_cases cpu m
  · rw [h]
  · rw [h, fetchInstruction_cycles]
  · rw [h, dispatch_cycles]

/-- Every tick counts one cycle, whether it fails or not. -/
lemma tick_cycles (s : Machine M) : s.tick.2.cpu.cycles = s.cpu.cycles + 1 := by
  obtain ⟨cpu, m⟩ := s
  cases hphase : cpu.phase with
  | executing x => rw [tick_executing hphase, execute_cycles]
  | fetching => rw [tick_fetching hphase, fetch_cycles]

lemma Runs.cycles_eq (h : Runs n s t) : t.cpu.cycles = s.cpu.cycles + n := by
  induction h with
  | zero => rfl
  | @succ n s t u h htick ih =>
    have hcycles := tick_cycles t
    rw [htick, ih] at hcycles
    exact hcycles

/-! ## Steps -/

/-- A step is the ticks up to the first that ends an instruction, and answers their number. -/
lemma step_of_runs (h : Runs k s t) (htick : t.tick = (.ok true, u)) (hk : k < longestStep) :
    s.step = (.ok (k + 1), u) := by
  have hcycles := tick_cycles t
  rw [htick, h.cycles_eq] at hcycles
  obtain ⟨n, hn⟩ : ∃ n, longestStep = k + (n + 1) := ⟨longestStep - k - 1, by omega⟩
  refine step_eq_ok_iff.mpr ⟨?_, ?_⟩
  · rw [hn, ticks_of_runs h, ticks, htick]
  · rw [hcycles]
    omega

/-- The ticks to the end of an instruction. -/
lemma Sound.exists_end (h : Memory.Answers kind) (hs : s.Sound kind) :
    ∃ k t u, k < s.left ∧ Runs k s t ∧ t.tick = (.ok true, u) ∧ u.cpu.phase = .fetching ∧
      u.Sound kind := by
  -- a cycle that does not end the instruction leaves fewer cycles
  induction hn : s.left using Nat.strongRecOn generalizing s with
  | ind n ih =>
    have hadvances := advances_tick h hs
    rcases htick : s.tick with ⟨result, t⟩
    rw [htick] at hadvances
    cases hadvances with
    | ends ht hphase => exact ⟨0, s, t, by rw [← hn]; exact hs.left_pos, .zero s, htick, hphase, ht⟩
    | goesOn ht hleft =>
      rw [hn] at hleft
      obtain ⟨k, t', u, hk, hruns, hend, hphase, hu⟩ := ih t.left hleft ht rfl
      exact ⟨k + 1, t', u, by omega, .cons htick hruns, hend, hphase, hu⟩

lemma Sound.tick (h : Memory.Answers kind) (hs : s.Sound kind) :
    ∃ b, s.tick.1 = .ok b ∧ s.tick.2.Sound kind := by
  have hadvances := advances_tick h hs
  rcases htick : s.tick with ⟨result, t⟩
  rw [htick] at hadvances
  cases hadvances with
  | ends ht hphase => exact ⟨true, rfl, ht⟩
  | goesOn ht hleft => exact ⟨false, rfl, ht⟩

/-- **A step comes to its end** on a memory that answers, after seven cycles at most. -/
theorem Sound.exists_step (h : Memory.Answers kind) (hs : s.Sound kind) :
    ∃ k t u, k < longestStep ∧ Runs k s t ∧ t.tick = (.ok true, u) ∧ u.cpu.phase = .fetching ∧
      s.step = (.ok (k + 1), u) ∧ u.Sound kind := by
  obtain ⟨k, t, u, hk, hruns, hend, hphase, hu⟩ := hs.exists_end h
  have hlt := Nat.lt_of_lt_of_le hk s.left_le
  exact ⟨k, t, u, hlt, hruns, hend, hphase, step_of_runs hruns hend hlt, hu⟩

end Machine

end Handheld
