/-
# Machines in step

Each cycle asks at most one thing of the bus (`Machine.busCycle`).  Two machines that agree in all
but the byte at one address therefore stay in agreement for as long as neither asks for that byte:
they answer alike, cycle by cycle, and ask for the same data (`Machine.InStep.endsIn`).  They may
have come from different places, which shows in what they tell their listeners and nowhere else.
-/
import Handheld.Proofs.Memory.RandomAccess
import Handheld.Proofs.Processor.Cost
import Handheld.Proofs.Processor.Operands

namespace Handheld

variable {M : Type} [Memory M]

/-! ## Bus cycles -/

namespace BusCycle

/-- The address that is put on the bus. -/
def address? : BusCycle → Option Address
  | idle => none
  | read a | write a _ => some a

/-- The byte that is written, with its address. -/
def write? : BusCycle → Option (Address × UInt8)
  | write a v => some (a, v)
  | _ => none

end BusCycle

namespace MicroOp

variable {op : MicroOp} {d d' : Datapath} {m m' n : M} {kind : M → Prop} {a : Address}

/-- What a micro-operation does to memory is the write that it asks for. -/
lemma putAll_perform (h : op.perform d m = (.ok (), d', n)) :
    Memory.putAll m (op.issue d).2.write?.toList = .ok n := by
  unfold perform at h
  rcases hissue : op.issue d with ⟨d₁, _ | b | ⟨b, v⟩⟩
  all_goals rw [hissue] at h
  · obtain rfl := congrArg (·.2.2) h
    rfl
  · dsimp only at h
    split at h
    · obtain rfl := congrArg (·.2.2) h
      rfl
    · cases h
  · dsimp only at h
    rcases hwrite : Memory.write m b v with ⟨e | u, m₁⟩
    · rw [hwrite] at h
      cases h
    · rw [hwrite] at h
      obtain rfl := congrArg (·.2.2) h
      simp [BusCycle.write?, Memory.putAll, Memory.put, hwrite]

/-- To a micro-operation that asks for another address memories that agree outside one are the
same. -/
lemma perform_agree (hkind : Memory.RandomAccess kind) (hm : kind m) (hm' : kind m')
    (hagree : Memory.AgreeOutside a m m') (ha : (op.issue d).2.address? ≠ some a)
    (h : op.perform d m = (.ok (), d', n)) :
    ∃ n', op.perform d m' = (.ok (), d', n') ∧ kind n ∧ kind n' ∧ Memory.AgreeOutside a n n' := by
  unfold perform at h ⊢
  rcases hissue : op.issue d with ⟨d₁, _ | b | ⟨b, v⟩⟩
  all_goals rw [hissue] at h ha
  · obtain ⟨-, rfl, rfl⟩ := Prod.mk.inj h |>.imp_right Prod.mk.inj
    exact ⟨m', rfl, hm, hm', hagree⟩
  · have hb : b ≠ a := fun heq => ha (congrArg some heq)
    dsimp only at h ⊢
    rw [hagree.read hb]
    cases hread : Memory.read m b with
    | error e =>
      rw [hread] at h
      cases h
    | ok v =>
      rw [hread] at h
      obtain ⟨-, rfl, rfl⟩ := Prod.mk.inj h |>.imp_right Prod.mk.inj
      exact ⟨m', rfl, hm, hm', hagree⟩
  · have hb : b ≠ a := fun heq => ha (congrArg some heq)
    dsimp only at h ⊢
    rcases hwrite : Memory.write m b v with ⟨result, m₁⟩
    rw [hwrite] at h
    obtain ⟨rfl, rfl, rfl⟩ := Prod.mk.inj h |>.imp_right Prod.mk.inj
    obtain ⟨n', hwrite', hn, hn', hagree'⟩ := hagree.write hkind hm hm' hb hwrite
    rw [hwrite']
    exact ⟨n', rfl, hn, hn', hagree'⟩

end MicroOp

/-- The phase with the program under way come from elsewhere. -/
def Phase.withOrigin (origin : Address) : Phase → Phase
  | fetching => fetching
  | executing x => executing { x with origin := origin }

namespace Machine

variable {s s' t : Machine M} {cpu : Cpu} {m m' : M} {x y : Flight} {n k : Nat} {result : Bool}

/-- What the next cycle of a program asks of the bus. -/
def busCycle (s : Machine M) : BusCycle :=
  match s.cpu.phase with
  | .fetching => .idle
  | .executing x => (x.op.issue ⟨s.cpu.registers, x.z, x.w⟩).2

/-- What the next cycle asks of the bus, apart from the bytes of the instruction. -/
def dataCycle (s : Machine M) : BusCycle :=
  match s.cpu.phase with
  | .fetching => .idle
  | .executing x => if x.op.readsOperand then .idle else s.busCycle

/-- What the next `n` cycles ask of the bus, apart from the bytes of instructions. -/
def dataCycles : Nat → Machine M → List BusCycle
  | 0, _ => []
  | n + 1, s => s.dataCycle :: dataCycles n s.tick.2

/-- The bytes that the next `n` cycles write, with their addresses. -/
def dataWrites (n : Nat) (s : Machine M) : List (Address × UInt8) :=
  (s.dataCycles n).filterMap BusCycle.write?

omit [Memory M] in
lemma busCycle_executing (h : s.cpu.phase = .executing x) :
    s.busCycle = (x.op.issue ⟨s.cpu.registers, x.z, x.w⟩).2 := by
  rw [busCycle, h]

omit [Memory M] in
lemma dataCycle_executing (h : s.cpu.phase = .executing x) :
    s.dataCycle = if x.op.readsOperand then .idle else s.busCycle := by
  rw [dataCycle, h]

omit [Memory M] in
/-- The bytes of an instruction are not written. -/
lemma write?_dataCycle (h : s.cpu.phase = .executing x) :
    s.dataCycle.write? = s.busCycle.write? := by
  rw [dataCycle_executing h]
  split
  · rename_i hread
    rw [busCycle_executing h, MicroOp.issue_of_readsOperand hread]
    rfl
  · rfl

omit [Memory M] in
/-- A cycle asks for an operand byte or for data. -/
lemma busCycle_ne {a : Address} (hs : s.cpu.phase = .executing x)
    (hdata : s.dataCycle.address? ≠ some a)
    (hoperand : x.op.readsOperand = true → s.cpu.registers.pc ≠ a) :
    s.busCycle.address? ≠ some a := by
  rw [dataCycle_executing hs] at hdata
  by_cases hread : x.op.readsOperand = true
  · rw [busCycle_executing hs, MicroOp.issue_of_readsOperand hread]
    exact fun heq => hoperand hread (Option.some.inj heq)
  · rwa [if_neg hread] at hdata

/-! ## Writes -/

/-- A cycle of a program that works carries out a micro-operation. -/
lemma perform_of_execute (h : execute cpu m x = (.ok result, t)) :
    ∃ d, x.op.perform ⟨cpu.registers, x.z, x.w⟩ m = (.ok (), d, t.memory) := by
  rw [execute_op] at h
  rcases hop : x.op.perform ⟨cpu.registers, x.z, x.w⟩ m with ⟨e | u, d, n⟩
  · rw [hop] at h
    cases h
  rw [hop] at h
  dsimp only at h
  split at h
  · cases h
    exact ⟨d, rfl⟩
  · obtain ⟨r, bug, hfinish⟩ | ⟨e, r, -, hfinish⟩ := finish_cases
      { (applyEffect cpu x d).1 with phase := .fetching } n (applyEffect cpu x d).2
    · cases h.symm.trans hfinish
      exact ⟨d, rfl⟩
    · cases h.symm.trans hfinish

/-- A fetch asks for no data. -/
lemma dataCycles_of_fetching {answer : Except Fault Bool} (hs : s.cpu.phase = .fetching)
    (h : s.tick = (answer, t)) (n : Nat) : s.dataCycles (n + 1) = .idle :: t.dataCycles n := by
  rw [dataCycles, dataCycle, hs, h]

lemma dataWrites_succ (n : Nat) (s : Machine M) :
    s.dataWrites (n + 1) = s.dataCycle.write?.toList ++ s.tick.2.dataWrites n := by
  unfold dataWrites
  rw [dataCycles, List.filterMap_cons]
  cases s.dataCycle.write? <;> rfl

/-- The memory after a cycle of a program is what its write makes of that before. -/
lemma putAll_dataCycle (hs : s.cpu.phase = .executing x) (h : s.tick = (.ok result, t)) :
    Memory.putAll s.memory s.dataCycle.write?.toList = .ok t.memory := by
  obtain ⟨cpu, m⟩ := s
  rw [tick_executing hs] at h
  obtain ⟨d, hperform⟩ := perform_of_execute h
  rw [write?_dataCycle hs, busCycle_executing hs]
  exact MicroOp.putAll_perform hperform

/-- **The memory at the end of a program** is what its writes make of that before. -/
theorem putAll_dataWrites (h : EndsIn n s t) (hs : s.cpu.phase = .executing x) :
    Memory.putAll s.memory (s.dataWrites n) = .ok t.memory := by
  induction h generalizing x with
  | last htick =>
    rw [dataWrites_succ, show dataWrites 0 _ = [] from rfl, List.append_nil]
    exact putAll_dataCycle hs htick
  | cons htick h ih =>
    obtain ⟨y, hy, -⟩ := exists_flight_of_tick hs htick
    rw [dataWrites_succ, Memory.putAll_append, putAll_dataCycle hs htick, htick]
    exact ih hy

/-- **The memory after a step that fetches** is what its writes make of that before. -/
theorem Begins.putAll_dataWrites (hs : s.Begins) (h : s.step = (.ok n, t)) :
    Memory.putAll s.memory (s.dataWrites n) = .ok t.memory := by
  obtain ⟨pending, i, b, hpoll, hread, hfetched⟩ := hs.exists_of_step h
  obtain ⟨k, rfl, hends⟩ := hs.exists_endsIn hpoll hread hfetched h
  have hcycles := dataCycles_of_fetching hs.boundary (hs.tick_eq hpoll hread hfetched) k
  rw [dataWrites, hcycles]
  exact Machine.putAll_dataWrites hends rfl

/-! ## Agreement -/

/-- Whether two machines have the same processor, but for where its program comes from and what it
has told, and memories of a kind that agree outside an address. -/
structure InStep (kind : M → Prop) (a : Address) (s t : Machine M) : Prop where
  cpu : ∃ origin journal, t.cpu =
    { s.cpu with phase := s.cpu.phase.withOrigin origin, journal := journal }
  first : kind s.memory
  second : kind t.memory
  agree : Memory.AgreeOutside a s.memory t.memory

section InStep

variable {kind : M → Prop} {a origin : Address}
  (hkind : Memory.RandomAccess kind) (hrequest : Interrupt.requestAddress ≠ a)
  (henable : Interrupt.enableAddress ≠ a)

include hrequest henable in
lemma finish_inStep (hphase : cpu.phase = .fetching) (hm : kind m) (hm' : kind m')
    (hagree : Memory.AgreeOutside a m m') (journal : Journal)
    (h : finish cpu m x = (.ok result, s)) (hy : y.routine = x.routine) :
    ∃ t, finish { cpu with journal := journal } m' y = (.ok result, t) ∧ InStep kind a s t := by
  have hsame (c : Cpu) (hc : c.phase = .fetching) :
      InStep kind a ⟨c, m⟩ ⟨{ c with journal := journal }, m'⟩ :=
    ⟨⟨0, journal, by rw [hc]; rfl⟩, hm, hm', hagree⟩
  cases hx : x.routine with
  | interrupt i =>
    have hfirst : finish cpu m x = (.ok true, ⟨cpu, m⟩) := by
      rw [finish, hx]
    have hsecond : finish { cpu with journal := journal } m' y =
        (.ok true, ⟨{ cpu with journal := journal }, m'⟩) := by
      rw [finish, hy, hx]
    cases hfirst.symm.trans h
    exact ⟨_, hsecond, hsame cpu hphase⟩
  | instruction i =>
    rw [finish_eq_conclude _ _ hx] at h
    rw [finish_eq_conclude _ _ (hy.trans hx)]
    dsimp only
    rw [Instruction.conclude_of_poll (hagree.poll hrequest henable)]
    cases hconclude : i.conclude cpu.registers m with
    | error e =>
      rw [hconclude] at h
      cases h
    | ok b =>
      rw [hconclude] at h
      cases h
      exact ⟨_, rfl, hsame _ hphase⟩

include hkind hrequest henable in
lemma execute_inStep (hm : kind m) (hm' : kind m') (hagree : Memory.AgreeOutside a m m')
    (hbus : (x.op.issue ⟨cpu.registers, x.z, x.w⟩).2.address? ≠ some a) (phase : Phase)
    (journal : Journal) (h : execute cpu m x = (.ok result, s)) :
    ∃ t, execute { cpu with phase := phase, journal := journal } m' { x with origin := origin } =
      (.ok result, t) ∧ InStep kind a s t := by
  rw [execute_op] at h ⊢
  rcases hop : x.op.perform ⟨cpu.registers, x.z, x.w⟩ m with ⟨e | u, d, n⟩
  · rw [hop] at h
    cases h
  obtain ⟨n', hop', hn, hn', hagree'⟩ := MicroOp.perform_agree hkind hm hm' hagree hbus hop
  rw [hop] at h
  rw [show Flight.op { x with origin := origin } = x.op from rfl]
  dsimp only at h ⊢
  rw [hop']
  obtain ⟨j, heffect⟩ := exists_applyEffect cpu x d
  obtain ⟨j', heffect'⟩ :=
    exists_applyEffect { cpu with phase := phase, journal := journal } { x with origin := origin } d
  rw [heffect] at h
  dsimp only
  rw [heffect']
  dsimp only at h ⊢
  -- where the program comes from does not tell whether it goes on
  split at h
  · rename_i hgo
    cases h
    exact ⟨_, (if_pos hgo).trans rfl, ⟨⟨origin, j', rfl⟩, hn, hn', hagree'⟩⟩
  · rename_i hends
    obtain ⟨t, hfinish, ht⟩ := finish_inStep hrequest henable
      (y := { x with origin := origin }) rfl hn hn' hagree' j' h rfl
    exact ⟨t, (if_neg hends).trans ((finish_congr rfl rfl rfl).trans hfinish), ht⟩

include hkind hrequest henable in
/-- **Machines in step answer alike**, where the cycle does not ask for the byte at the address that
their memories differ at, and stay in step. -/
theorem InStep.tick (h : InStep kind a s t) (hs : s.cpu.phase = .executing x)
    (hbus : s.busCycle.address? ≠ some a) (htick : s.tick = (.ok result, s')) :
    ∃ t', t.tick = (.ok result, t') ∧ InStep kind a s' t' := by
  obtain ⟨cpu, m⟩ := s
  obtain ⟨cpu', m'⟩ := t
  obtain ⟨⟨origin, journal, rfl⟩, hm, hm', hagree⟩ := h
  rw [busCycle_executing hs] at hbus
  rw [tick_executing hs] at htick
  have hphase : cpu.phase.withOrigin origin = .executing { x with origin := origin } := by
    rw [show cpu.phase = .executing x from hs]
    rfl
  rw [tick_executing hphase]
  refine execute_inStep hkind hrequest henable hm hm' hagree ?_ _ _ htick
  exact hbus

/-- Between two instructions the processors differ in what they have told alone. -/
lemma InStep.cpu_of_fetching (h : InStep kind a s t) (hs : s.cpu.phase = .fetching) :
    ∃ journal, t.cpu = { s.cpu with journal := journal } := by
  obtain ⟨⟨r, cycles, phase, bug, locked, j⟩, m⟩ := s
  obtain ⟨origin, journal, hcpu⟩ := h.cpu
  dsimp only at hs
  subst hs
  exact ⟨journal, hcpu⟩

/-- Machines in step ask for the same data. -/
lemma InStep.dataCycle_eq (h : InStep kind a s t) : t.dataCycle = s.dataCycle := by
  obtain ⟨origin, journal, hcpu⟩ := h.cpu
  have hphase : t.cpu.phase = s.cpu.phase.withOrigin origin := by rw [hcpu]
  have hregisters : t.cpu.registers = s.cpu.registers := by rw [hcpu]
  cases hs : s.cpu.phase with
  | fetching =>
    rw [hs] at hphase
    rw [dataCycle, hphase, dataCycle, hs]
    rfl
  | executing x =>
    rw [hs] at hphase
    rw [dataCycle_executing hs, dataCycle_executing hphase, busCycle_executing hs,
      busCycle_executing hphase, hregisters]
    rfl

include hkind hrequest henable in
/-- **Machines stay in step to the end of an instruction**, where neither its data nor its operand
bytes are at the address that their memories differ at. -/
theorem InStep.endsIn (h : InStep kind a s t) (hs : s.cpu.phase = .executing x)
    (hends : EndsIn n s s') (hdata : ∀ c ∈ s.dataCycles n, c.address? ≠ some a)
    (hoperands : ∀ k u y, Runs k s u → u.cpu.phase = .executing y → y.op.readsOperand = true →
      u.cpu.registers.pc ≠ a) :
    ∃ t', EndsIn n t t' ∧ InStep kind a s' t' ∧ t.dataCycles n = s.dataCycles n := by
  induction hends generalizing x t with
  | @last s s' htick =>
    have hfirst := busCycle_ne hs (hdata _ List.mem_cons_self) (hoperands 0 s x (.zero s) hs)
    obtain ⟨t', htick', hstep⟩ := h.tick hkind hrequest henable hs hfirst htick
    refine ⟨t', .last htick', hstep, ?_⟩
    unfold dataCycles dataCycles
    rw [h.dataCycle_eq]
  | @cons n s u s' htick hends ih =>
    have hfirst := busCycle_ne hs (hdata _ List.mem_cons_self) (hoperands 0 s x (.zero s) hs)
    obtain ⟨t₁, htick', hstep⟩ := h.tick hkind hrequest henable hs hfirst htick
    obtain ⟨y, hy, -⟩ := exists_flight_of_tick hs htick
    unfold dataCycles at hdata ⊢
    rw [htick] at hdata ⊢
    rw [htick']
    obtain ⟨t', hends', hstep', hcycles⟩ := ih hstep hy
      (fun c hc => hdata c (List.mem_cons_of_mem _ hc))
      (fun k v y hruns => hoperands (k + 1) v y (.cons htick hruns))
    exact ⟨t', .cons htick' hends', hstep', by rw [h.dataCycle_eq, hcycles]⟩

end InStep

end Machine

end Handheld
