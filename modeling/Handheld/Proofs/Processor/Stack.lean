/-
# Words on the stack

A word is pushed into the two cells below the top of the stack, its high byte first, and what is
popped next is this word.  So `POP` gives what `PUSH` has put there, a return goes back behind
`CALL` or `RST`, and `RETI` goes back to where an interrupt was answered.  The main statement,
`Machine.stack_restores`, says so for maps without faults.
-/
import Handheld.Proofs.MemoryMap.Console
import Handheld.Proofs.MemoryMap.StackCells
import Handheld.Proofs.Processor.Dispatch
import Handheld.Proofs.Registers.SavedForm

namespace Handheld

/-! ## Registers -/

/-- The master enable after an instruction that leaves it alone: an enable that was asked for takes
hold. -/
def MasterEnable.granted : MasterEnable → MasterEnable
  | .requested => .enabled
  | e => e

@[simp] lemma MasterEnable.granted_granted (e : MasterEnable) : e.granted.granted = e.granted := by
  cases e <;> rfl

namespace Registers

/-- The registers when control has gone elsewhere, and an enable that was asked for has been
granted. -/
def onward (r : Registers) (pc : Address) : Registers :=
  { r with pc := pc, ime := r.ime.granted }

/-- A pair reads as it has been set, but for the low four bits of the flag byte. -/
lemma getPair_setPair (r : Registers) (w : UInt16) (p : Pair) :
    (r.setPair w p).getPair p =
      if p = .af then Word.ofBytes (Word.high w) (Word.low w &&& 0xF0) else w := by
  cases p with
  | af =>
    rw [if_pos rfl, ← Flags.toByte_ofByte]
    rfl
  | sp => rfl
  | bc | de | hl => exact Word.ofBytes_high_low w

@[simp] lemma ime_setPair (r : Registers) (w : UInt16) (p : Pair) :
    (r.setPair w p).ime = r.ime := by
  cases p <;> rfl

lemma setPair_withIme (r : Registers) (w : UInt16) (p : Pair) (e : MasterEnable) :
    ({ r.setPair w p with ime := e } : Registers) =
      ({ r with ime := e } : Registers).setPair w p := by
  cases p <;> rfl

lemma sp_setPair {p : Pair} (hp : p ≠ .sp) (r : Registers) (w : UInt16) :
    (r.setPair w p).sp = r.sp := by
  cases p with
  | sp => exact absurd rfl hp
  | bc | de | hl | af => rfl

end Registers

/-! ## Instructions that work on the stack -/

namespace Kind

/-- The kinds that push the address behind them. -/
def calls : List Kind :=
  [call, rst]

/-- The kinds that pop a word. -/
def pops : List Kind :=
  [pop, ret, reti]

/-- The kinds that work on the stack. -/
def onStack : List Kind :=
  push :: (calls ++ pops)

variable {k : Kind}

lemma mem_onStack_of_calls (h : k ∈ calls) : k ∈ onStack :=
  List.mem_cons_of_mem _ (List.mem_append_left _ h)

lemma mem_onStack_of_pops (h : k ∈ pops) : k ∈ onStack :=
  List.mem_cons_of_mem _ (List.mem_append_right _ h)

/-- None of them ends in a way of its own. -/
lemma ne_of_onStack (h : k ∈ onStack) : k ≠ .halt ∧ k ≠ .invalid ∧ k ≠ .ei := by
  refine ⟨?_, ?_, ?_⟩
  all_goals
    rintro rfl
    revert h
    decide

end Kind

namespace Instruction

variable {M : Type} [Memory M] {i : Instruction} {r : Registers} {m m' : M} {w : UInt16}
  {pc next target : Address} {o : Outcome}

/-- What an instruction that works on the stack leaves in the end. -/
lemma carryOut_of_onStack (hi : i.kind ∈ Kind.onStack) (ho : i.outcome r m = .ok o)
    (hput : Memory.putAll m o.writes = .ok m') :
    i.carryOut r m =
      .ok ⟨{ o.registers with ime := o.registers.ime.granted }, m', false, false⟩ := by
  have hconclude : i.conclude o.registers m' =
      .ok ⟨{ o.registers with ime := o.registers.ime.granted }, m', false, false⟩ := by
    obtain ⟨hhalt, hinvalid, hei⟩ := Kind.ne_of_onStack hi
    have hgranted : i.enableAfter o.registers.ime = o.registers.ime.granted := by
      unfold enableAfter
      cases o.registers.ime <;> simp [MasterEnable.granted, hei]
    unfold conclude
    dsimp only
    rw [if_neg hhalt, hgranted, beq_eq_false_iff_ne.mpr hinvalid]
  rw [carryOut, run, ho, ok_bind, hput]
  exact hconclude

/-- A call or a restart pushes the address behind it. -/
lemma outcome_call (hi : i.kind ∈ Kind.calls) (htaken : i.isTaken r.flags = true)
    (htarget : i.branchTarget r.pc = some target) (m : M) :
    i.outcome r m =
      .ok { Outcome.push r r.pc with registers.pc := target } := by
  obtain ⟨kind, first, second⟩ := i
  have hdestination : destination ⟨kind, first, second⟩ r = target := by
    unfold destination
    split
    · rename_i hfirst
      obtain rfl : first = some (.pair .hl) := hfirst
      simp only [Kind.calls, List.mem_cons, List.not_mem_nil, or_false] at hi
      rcases hi with rfl | rfl <;> cases htarget
    · rw [htarget]
      rfl
  simp only [Kind.calls, List.mem_cons, List.not_mem_nil, or_false] at hi
  rcases hi with rfl | rfl
  all_goals
    unfold outcome
    dsimp only
    rw [if_pos htaken, hdestination]

lemma popWord_of_read (hw : Memory.read16 m r.sp = .ok w) :
    popWord r m = .ok (w, { r with sp := r.sp + 2 }) := by
  rw [popWord, hw]
  rfl

lemma outcome_pop (p : Pair) (hw : Memory.read16 m r.sp = .ok w) :
    outcome ⟨.pop, some (.pair p), none⟩ r m =
      .ok ⟨({ r with sp := r.sp + 2 } : Registers).setPair w p, []⟩ := by
  unfold outcome
  dsimp only
  rw [popWord_of_read hw]
  rfl

lemma outcome_ret (hi : i.kind = .ret) (htaken : i.isTaken r.flags = true)
    (hw : Memory.read16 m r.sp = .ok w) :
    i.outcome r m = .ok ⟨{ r with pc := w, sp := r.sp + 2 }, []⟩ := by
  unfold outcome
  rw [hi]
  dsimp only
  rw [if_pos htaken, popWord_of_read hw]
  rfl

lemma outcome_reti (hw : Memory.read16 m r.sp = .ok w) :
    outcome ⟨.reti, none, none⟩ r m =
      .ok ⟨{ r with pc := w, sp := r.sp + 2, ime := .enabled }, []⟩ := by
  unfold outcome
  dsimp only
  rw [popWord_of_read hw]
  rfl

/-- The stack pointer is not popped: there is no machine code for it. -/
lemma ne_sp_of_decode_pop {p : Pair} (h : decode m pc = .ok (⟨.pop, some (.pair p), none⟩, next)) :
    p ≠ .sp := by
  rintro rfl
  obtain ⟨bytes, hencode, -⟩ := exists_bytes_of_decode h
  have hnone : encode ⟨.pop, some (.pair .sp), none⟩ = none := by
    decide +kernel
  rw [hnone] at hencode
  cases hencode

/-- What pops is a byte long, so a memory with the same byte there is decoded alike. -/
lemma decode_of_read {N : Type} [Memory N] {n : N} (hi : i.kind ∈ Kind.pops)
    (h : decode m pc = .ok (i, next)) (hread : Memory.read n pc = Memory.read m pc) :
    decode n pc = .ok (i, next) := by
  have hlength : ∀ op ∈ Opcode.all, op.entry.kind ∈ Kind.pops →
      op.bytes.length + op.entry.width = 1 := by
    decide +kernel
  obtain ⟨k, hk, rfl⟩ := decode_eq_ok_iff.mp h
  obtain ⟨op, hop, bytes, hlen, -, rfl, rfl⟩ := decodeStream_eq_ok_iff.mp hk
  refine decode_eq_ok_iff.mpr ⟨_, decodeStream_congr hk ?_, rfl⟩
  intro k hk
  rw [List.length_append, hlen, hlength op hop hi, Nat.lt_one_iff] at hk
  subst hk
  simpa [Memory.stream] using hread

end Instruction

/-! ## One step -/

/-- Whether a processor stands between two instructions and is ready for the next one: it is neither
locked nor asleep, and no `HALT` has failed. -/
structure Cpu.Ready (cpu : Cpu) : Prop where
  fetching : cpu.phase = .fetching
  unlocked : cpu.locked = false
  awake : cpu.registers.halted = false
  moves : cpu.haltBug = false

/-- What is decoded is what the processor fetches, and it goes on behind it. -/
lemma Cpu.Ready.fetched {M : Type} [Memory M] {m : M} {cpu : Cpu} {i : Instruction}
    {next : Address} (h : cpu.Ready)
    (hdecode : Instruction.decode m cpu.registers.pc = .ok (i, next)) :
    cpu.fetched m = .ok i ∧
      ∀ bytes, i.encode = some bytes → cpu.nextAddress bytes.length = next := by
  refine ⟨?_, ?_⟩
  · rw [Cpu.fetched, if_neg (by simp [h.moves]), hdecode]
    rfl
  · intro bytes hbytes
    obtain ⟨bytes', hbytes', -, -, hlength, -⟩ := Instruction.exists_bytes_of_decode hdecode
    obtain rfl := Option.some.inj (hbytes.symm.trans hbytes')
    rw [Cpu.nextAddress, if_neg (by simp [h.moves]), ← hlength, UInt16.ofNat_toNat,
      UInt16.add_comm, UInt16.sub_add_cancel]

namespace Machine

section

variable {M : Type} [Memory M] {s : Machine M} {i : Instruction} {next : Address} {o : Outcome}
  {m' : M} {kind : M → Prop}

/-- Whether two steps, of which neither fails, lead from one machine to another. -/
def TwoSteps (s u : Machine M) : Prop :=
  ∃ n t n', s.step = (.ok n, t) ∧ t.step = (.ok n', u)

omit [Memory M] in
lemma sound_of_fetching (hm : kind s.memory) (hs : s.cpu.phase = .fetching) : s.Sound kind := by
  refine ⟨hm, fun x hx => ?_⟩
  rw [hs] at hx
  cases hx

/-- A machine whose memory answers carries out the instruction that is decoded. -/
lemma exists_step_of_outcome (hanswers : Memory.Answers kind) (hm : kind s.memory)
    (hs : s.cpu.Ready)
    (hquiet : s.cpu.registers.ime = .enabled → ∀ j, Interrupt.poll s.memory ≠ .ok (some j))
    (hdecode : Instruction.decode s.memory s.cpu.registers.pc = .ok (i, next))
    (hi : i.kind ∈ Kind.onStack)
    (ho : i.outcome { s.cpu.registers with pc := next } s.memory = .ok o)
    (hput : Memory.putAll s.memory o.writes = .ok m') (hawake : o.registers.halted = false) :
    ∃ n t, s.step = (.ok n, t) ∧ t.cpu.Ready ∧ kind t.memory ∧
      t.cpu.registers = { o.registers with ime := o.registers.ime.granted } ∧ t.memory = m' := by
  have hfetches : s.Fetches := ⟨hs.fetching, hs.unlocked, hs.awake, hquiet⟩
  obtain ⟨n, -, t, -, -, -, hphase, hstep, ht⟩ :=
    (sound_of_fetching hm hs.fetching).exists_step hanswers
  obtain ⟨i', b, bytes, hfetched, hencode, -, -, -, -, hcarry⟩ := step_of_fetches hfetches hstep
  obtain ⟨hfetched', hnext⟩ := hs.fetched hdecode
  obtain rfl := Except.ok.inj (hfetched'.symm.trans hfetched)
  rw [hnext _ hencode, Instruction.carryOut_of_onStack hi ho hput] at hcarry
  obtain ⟨hregisters, hmemory, hbug, hlocked⟩ := Aftermath.mk.inj (Except.ok.inj hcarry)
  refine ⟨_, t, hstep, ⟨hphase, hlocked.symm, ?_, hbug.symm⟩, ht.memory, hregisters.symm,
    hmemory.symm⟩
  rw [← hregisters]
  exact hawake

end

/-! ## There and back -/

variable {s : Machine MemoryMap} {i j : Instruction} {next target back : Address} {w : UInt16}
  {r : Registers}

open Instruction in
/-- Two instructions, of which the first pushes a word and the second pops it. -/
lemma exists_round_trip (h : s.cpu.Ready) (hfree : s.memory.FaultFree)
    (hpoll : Interrupt.poll s.memory = .ok none)
    (hroom : s.memory.StackRoom s.cpu.registers.sp
      [Interrupt.requestAddress, Interrupt.enableAddress, target])
    (hi : decode s.memory s.cpu.registers.pc = .ok (i, next)) (honStack : i.kind ∈ Kind.onStack)
    (hpush : i.outcome { s.cpu.registers with pc := next } s.memory =
      .ok { Outcome.push { s.cpu.registers with pc := next } w with registers.pc := target })
    (hj : decode s.memory target = .ok (j, back)) (hpops : j.kind ∈ Kind.pops)
    (hpop : ∀ m : MemoryMap, Memory.read16 m (s.cpu.registers.sp - 2) = .ok w →
      j.outcome { s.cpu.registers.onward back with sp := s.cpu.registers.sp - 2 } m =
        .ok ⟨r, []⟩)
    (hawake : r.halted = false) :
    ∃ u, s.TwoSteps u ∧ u.cpu.Ready ∧ u.cpu.registers = { r with ime := r.ime.granted } ∧
      s.memory.SameBut (MemoryMap.stackCells s.cpu.registers.sp) u.memory := by
  obtain ⟨m', hput, hpushed⟩ := hroom.exists_pushed hfree w
  obtain ⟨n, t, hstep, ht, hfree', hregisters, rfl⟩ := exists_step_of_outcome
    MemoryMap.answers_faultFree hfree h (by simp [hpoll]) hi honStack hpush hput h.awake
  have hkept {a : Address} (ha : a ∈ [Interrupt.requestAddress, Interrupt.enableAddress, target]) :
      Memory.read t.memory a = Memory.read s.memory a :=
    hpushed.other a (hroom.apart a ha)
  -- the push has raised no interrupt, and the second instruction is still there
  have hpoll' : Interrupt.poll t.memory = .ok none := by
    rw [← hpoll, Interrupt.poll, hkept (by simp), hkept (by simp)]
    rfl
  have hpc : t.cpu.registers.pc = target := by
    rw [hregisters]
  have hj' : decode t.memory t.cpu.registers.pc = .ok (j, back) := by
    rw [hpc]
    exact decode_of_read hpops hj (hkept (by simp))
  have hback : j.outcome { t.cpu.registers with pc := back } t.memory = .ok ⟨r, []⟩ := by
    rw [hregisters]
    exact hpop _ hpushed.word
  obtain ⟨n', u, hstep', hu, -, hregisters', hmemory⟩ := exists_step_of_outcome
    MemoryMap.answers_faultFree hfree' ht (by simp [hpoll']) hj' (Kind.mem_onStack_of_pops hpops)
    hback rfl hawake
  refine ⟨u, ⟨n, t, n', hstep, hstep'⟩, hu, hregisters', ?_⟩
  rw [hmemory]
  exact hpushed.other

/-- The answer to an interrupt pushes the program counter, and takes the request back. -/
lemma exists_answer {g : UInt8 → UInt8} {i : Interrupt} (h : s.Attends)
    (hfree : s.memory.FaultFree) (hpoll : Interrupt.poll s.memory = .ok (some i))
    (hrequest : s.memory.CellAt Interrupt.requestAddress g)
    (hroom : s.memory.StackRoom s.cpu.registers.sp [Interrupt.requestAddress, i.vector]) :
    ∃ f t, Memory.read s.memory Interrupt.requestAddress = .ok f ∧ s.step = (.ok 5, t) ∧
      t.cpu = answered s.cpu i ∧ t.memory.FaultFree ∧
      Memory.read16 t.memory (s.cpu.registers.sp - 2) = .ok s.cpu.registers.pc ∧
      Memory.read t.memory Interrupt.requestAddress = .ok (f &&& ~~~i.mask) ∧
      s.memory.SameBut
        (Interrupt.requestAddress :: MemoryMap.stackCells s.cpu.registers.sp) t.memory := by
  obtain ⟨f, hf⟩ := (hfree Interrupt.requestAddress).1
  obtain ⟨m₁, hwrite₁, hm₁⟩ := hrequest.write hfree (f &&& ~~~i.mask)
  rw [hrequest.apply_clear hf] at hm₁
  have hack : i.acknowledge s.memory = (.ok (), m₁) := by
    rw [Interrupt.acknowledge_of_read hf, hwrite₁]
  have hapart : ∀ c ∈ MemoryMap.stackCells s.cpu.registers.sp,
      s.memory.place c ≠ s.memory.place Interrupt.requestAddress :=
    fun c hc => (hroom.apart _ (by simp) c hc).symm
  obtain ⟨m', hstep, hlow, hhigh, hread, hother⟩ := step_of_changes h hpoll hack hm₁ hroom.high
    hroom.low (hapart _ (by simp [MemoryMap.stackCells]))
    (hapart _ (by simp [MemoryMap.stackCells]))
  obtain ⟨n, u, t, -, -, -, -, hstep', ht⟩ :=
    (sound_of_fetching hfree h.boundary).exists_step MemoryMap.answers_faultFree
  obtain rfl : t = ⟨answered s.cpu i, m'⟩ := congrArg Prod.snd (hstep'.symm.trans hstep)
  refine ⟨f, _, hf, hstep, rfl, ht.memory,
    MemoryMap.read16_of_reads hlow (hhigh hroom.separate), hread, ?_⟩
  intro a ha
  exact hother a (ha _ (by simp)) (ha _ (by simp [MemoryMap.stackCells]))
    (ha _ (by simp [MemoryMap.stackCells]))

open Instruction in
/-- **The stack gives back what it has been given.**  Let a machine stand between two instructions,
neither locked nor asleep and with no failed `HALT`, on a map without faults, and let there be room
below the top of its stack apart from the interrupt registers and from the instruction that pops.
On a map of memory without remaps, where every address is a cell and a place of its own, this says
that the addresses differ (`MemoryMap.StackRoom.of_distinct`).

* With no interrupt pending, `PUSH` and `POP` behind it put the first pair into the second one, but
  for the low four bits of the flag byte.
* With no interrupt pending, a call or a restart and a return at its target lead behind the call.
* If an interrupt is pending and taken, its answer and `RETI` at its vector lead back to where the
  machine has been, with interrupts enabled, and the one request is gone.

Neither step fails.  The other registers are as before, but for an enable that was asked for, and
so is memory outside of the two cells and the requests that were answered. -/
theorem stack_restores (h : s.cpu.Ready) (hfree : s.memory.FaultFree) :
    (∀ (p q : Pair) (next back : Address), Interrupt.poll s.memory = .ok none →
      decode s.memory s.cpu.registers.pc = .ok (⟨.push, some (.pair p), none⟩, next) →
      decode s.memory next = .ok (⟨.pop, some (.pair q), none⟩, back) →
      s.memory.StackRoom s.cpu.registers.sp
        [Interrupt.requestAddress, Interrupt.enableAddress, next] →
      ∃ u, s.TwoSteps u ∧ u.cpu.Ready ∧
        u.cpu.registers = (s.cpu.registers.onward back).setPair (s.cpu.registers.getPair p) q ∧
        u.cpu.registers.getPair q =
          (if q = .af then
            Word.ofBytes (Word.high (s.cpu.registers.getPair p))
              (Word.low (s.cpu.registers.getPair p) &&& 0xF0)
          else s.cpu.registers.getPair p) ∧
        u.cpu.registers.sp = s.cpu.registers.sp ∧
        s.memory.SameBut (MemoryMap.stackCells s.cpu.registers.sp) u.memory) ∧
    (∀ (i j : Instruction) (next target back : Address), Interrupt.poll s.memory = .ok none →
      decode s.memory s.cpu.registers.pc = .ok (i, next) → i.kind ∈ Kind.calls →
      i.isTaken s.cpu.registers.flags = true → i.branchTarget next = some target →
      decode s.memory target = .ok (j, back) → j.kind = .ret →
      j.isTaken s.cpu.registers.flags = true →
      s.memory.StackRoom s.cpu.registers.sp
        [Interrupt.requestAddress, Interrupt.enableAddress, target] →
      ∃ u, s.TwoSteps u ∧ u.cpu.Ready ∧ u.cpu.registers = s.cpu.registers.onward next ∧
        s.memory.SameBut (MemoryMap.stackCells s.cpu.registers.sp) u.memory) ∧
    (∀ (i : Interrupt) (back : Address) (g : UInt8 → UInt8), s.cpu.registers.ime = .enabled →
      Interrupt.poll s.memory = .ok (some i) →
      decode s.memory i.vector = .ok (⟨.reti, none, none⟩, back) →
      s.memory.CellAt Interrupt.requestAddress g →
      s.memory.place i.vector ≠ s.memory.place Interrupt.requestAddress →
      s.memory.StackRoom s.cpu.registers.sp [Interrupt.requestAddress, i.vector] →
      ∃ u f, s.TwoSteps u ∧ u.cpu.Ready ∧ u.cpu.registers = s.cpu.registers ∧
        Memory.read s.memory Interrupt.requestAddress = .ok f ∧
        Memory.read u.memory Interrupt.requestAddress = .ok (f &&& ~~~i.mask) ∧
        s.memory.SameBut
          (Interrupt.requestAddress :: MemoryMap.stackCells s.cpu.registers.sp) u.memory) := by
  refine ⟨?_, ?_, ?_⟩
  · intro p q next back hpoll hi hj hroom
    have hpush : outcome ⟨.push, some (.pair p), none⟩ { s.cpu.registers with pc := next }
        s.memory = .ok { Outcome.push { s.cpu.registers with pc := next }
          (s.cpu.registers.getPair p) with registers.pc := next } := by
      cases p <;> rfl
    obtain ⟨u, hsteps, hu, hregisters, hother⟩ := exists_round_trip h hfree hpoll hroom hi
      (by simp [Kind.onStack]) hpush hj (by simp [Kind.pops]) (fun m hm => outcome_pop q hm) (by
        cases q <;> exact h.awake)
    have hset : u.cpu.registers =
        (s.cpu.registers.onward back).setPair (s.cpu.registers.getPair p) q := by
      rw [hregisters, Registers.setPair_withIme]
      simp only [Registers.onward, Registers.ime_setPair, MasterEnable.granted_granted,
        UInt16.sub_add_cancel]
    refine ⟨u, hsteps, hu, hset, ?_, ?_, hother⟩
    · rw [hset, Registers.getPair_setPair]
    · rw [hset, Registers.sp_setPair (ne_sp_of_decode_pop hj)]
      rfl
  · intro i j next target back hpoll hi hcall htaken htarget hj hret hjtaken hroom
    have hpush : i.outcome { s.cpu.registers with pc := next } s.memory =
        .ok { Outcome.push { s.cpu.registers with pc := next } next with registers.pc := target } :=
      outcome_call (r := { s.cpu.registers with pc := next }) hcall htaken htarget s.memory
    obtain ⟨u, hsteps, hu, hregisters, hother⟩ := exists_round_trip h hfree hpoll hroom hi
      (Kind.mem_onStack_of_calls hcall) hpush hj (by simp [hret, Kind.pops])
      (fun m hm => outcome_ret hret hjtaken hm) h.awake
    refine ⟨u, hsteps, hu, hregisters.trans ?_, hother⟩
    simp only [Registers.onward, MasterEnable.granted_granted, UInt16.sub_add_cancel]
  · intro i back g henabled hpoll hj hrequest hvector hroom
    obtain ⟨f, t, hf, hstep, hcpu, hfree', hword, hread, hother⟩ :=
      exists_answer ⟨h.fetching, h.unlocked, henabled⟩ hfree hpoll hrequest hroom
    have ht : t.cpu.Ready := by
      rw [hcpu]
      exact ⟨rfl, h.unlocked, rfl, h.moves⟩
    have hpc : t.cpu.registers.pc = i.vector := by
      rw [hcpu]
      rfl
    have hj' : decode t.memory t.cpu.registers.pc = .ok (⟨.reti, none, none⟩, back) := by
      rw [hpc]
      refine decode_of_read (by simp [Kind.pops]) hj (hother _ ?_)
      simpa using ⟨hvector, hroom.apart _ (by simp)⟩
    have hback : outcome ⟨.reti, none, none⟩ { t.cpu.registers with pc := back } t.memory =
        .ok ⟨s.cpu.registers, []⟩ := by
      rw [hcpu]
      refine (outcome_reti hword).trans ?_
      simp only [answered, answeredRegisters, UInt16.sub_add_cancel, ← h.awake, ← henabled]
    obtain ⟨n', u, hstep', hu, -, hregisters, hmemory⟩ := exists_step_of_outcome
      MemoryMap.answers_faultFree hfree' ht (by simp [hcpu, answered, answeredRegisters]) hj'
      (by decide) hback rfl h.awake
    refine ⟨u, f, ⟨5, t, n', hstep, hstep'⟩, hu, ?_, hf, ?_, ?_⟩
    · rw [hregisters, henabled]
      simp [MasterEnable.granted, ← henabled]
    · rw [hmemory, hread]
    · rwa [hmemory]

/-- `PUSH BC`, `POP AF` and `RST 08`, with a return at the restart's target and at the vector of the
first interrupt. -/
def routines : ByteArray :=
  ⟨#[0xC5, 0xF1, 0xCF, 0x00, 0x00, 0x00, 0x00, 0x00, 0xC9] ++ Array.replicate 55 0x00 ++ #[0xD9]⟩

/-- A machine with the routines at the bottom of its memory.  Every interrupt is enabled. -/
def onRoutines (pc : Address) (ime : MasterEnable) (requests : UInt8) : Machine MemoryMap where
  cpu := { registers := { b := 0x12, c := 0xFF, sp := 0xFFFE, pc := pc, ime := ime } }
  memory :=
    ⟨[.backed (.ram (.ofBytes "routines" 0x0000 routines .readWrite)),
      .backed (.ram (filled "low" 0x0041 0xFECE 0x00)),
      .backed (.ram (.ofBytes "if" 0xFF0F ⟨#[requests]⟩ .readWrite)),
      .backed (.ram highRam)], {}⟩

section

variable {pc : Address} {ime : MasterEnable} {requests : UInt8}

lemma ram_onRoutines : ∀ r ∈ (onRoutines pc ime requests).memory.regions,
    ∃ bytes : Ram, r = .backed (.ram bytes) ∧ bytes.access = .readWrite := by
  intro r hr
  simp only [onRoutines, List.mem_cons, List.not_mem_nil, or_false] at hr
  rcases hr with rfl | rfl | rfl | rfl
  all_goals exact ⟨_, rfl, rfl⟩

lemma distinct_onRoutines : (onRoutines pc ime requests).memory.Distinct := by
  refine MemoryMap.distinct_of_ram fun r hr => ?_
  obtain ⟨bytes, hram, -⟩ := ram_onRoutines r hr
  exact ⟨bytes, hram⟩

lemma faultFree_onRoutines : (onRoutines pc ime requests).memory.FaultFree := by
  refine MemoryMap.faultFree_of_ram ram_onRoutines ?_
  have hroutines :
      (Section.ram (.ofBytes "routines" 0x0000 routines .readWrite)).stop = 0x0041 := by
    decide +kernel
  refine MemoryMap.gap_cons_backed rfl hroutines ?_
  refine MemoryMap.gap_cons_backed rfl (stop_filled "low" 0x0041 0xFECE 0x00 _) ?_
  refine MemoryMap.gap_cons_backed rfl rfl ?_
  exact MemoryMap.gap_cons_backed rfl (stop_filled "high" 0xFF10 0xF0 0xFF _) (if_pos rfl)

lemma read_onRoutines :
    Memory.read (onRoutines pc ime requests).memory Interrupt.requestAddress = .ok requests ∧
      Memory.read (onRoutines pc ime requests).memory Interrupt.enableAddress = .ok 0xFF := by
  have hlow {a : Address} (ha : 0xFF0F ≤ a.toNat) :
      ¬ (Region.backed (.ram (filled "low" 0x0041 0xFECE 0x00))).owns a = true := by
    rw [owns_filled]
    exact fun hin => absurd hin.2 (Nat.not_lt_of_le ha)
  have hrequest : (onRoutines pc ime requests).memory.resolve Interrupt.requestAddress =
      some (.ram (.ofBytes "if" 0xFF0F ⟨#[requests]⟩ .readWrite), Interrupt.requestAddress) := by
    refine MemoryMap.resolve_of_owner ?_
    refine Eq.trans (MemoryMap.owner?_cons_of_not_owns (by decide +kernel)) ?_
    refine Eq.trans (MemoryMap.owner?_cons_of_not_owns (hlow (by decide))) ?_
    exact MemoryMap.owner?_cons_of_owns rfl
  have henable : (onRoutines pc ime requests).memory.resolve Interrupt.enableAddress =
      some (.ram highRam, Interrupt.enableAddress) := by
    refine MemoryMap.resolve_of_owner ?_
    refine Eq.trans (MemoryMap.owner?_cons_of_not_owns (by decide +kernel)) ?_
    refine Eq.trans (MemoryMap.owner?_cons_of_not_owns (hlow (by decide))) ?_
    refine Eq.trans (MemoryMap.owner?_cons_of_not_owns nofun) ?_
    exact MemoryMap.owner?_cons_of_owns (owns_filled.mpr (by decide))
  rw [MemoryMap.read_of_resolve hrequest, MemoryMap.read_of_resolve henable]
  exact ⟨rfl, congrArg Except.ok get_highRam⟩

lemma stackRoom_onRoutines {kept : List Address}
    (hkept : kept.all (· ∉ MemoryMap.stackCells 0xFFFE) = true) :
    (onRoutines pc ime requests).memory.StackRoom 0xFFFE kept := by
  refine .of_distinct faultFree_onRoutines distinct_onRoutines fun a ha => ?_
  exact of_decide_eq_true (List.all_eq_true.mp hkept a ha)

lemma poll_onRoutines :
    Interrupt.poll (onRoutines pc ime requests).memory = .ok (Interrupt.pending requests 0xFF) :=
  Interrupt.poll_of_reads read_onRoutines.1 read_onRoutines.2

lemma ready_onRoutines : (onRoutines pc ime requests).cpu.Ready :=
  ⟨rfl, rfl, rfl, rfl⟩

end

/-- The pair `12FF` comes back as `12F0`, the restart returns behind itself, and the answer to the
first of two requests leaves the other one. -/
theorem onRoutines_stack_restores :
    (∃ u, (onRoutines 0x0000 .disabled 0x00).TwoSteps u ∧ u.cpu.registers.getPair .af = 0x12F0 ∧
      u.cpu.registers.sp = 0xFFFE) ∧
    (∃ u, (onRoutines 0x0002 .disabled 0x00).TwoSteps u ∧ u.cpu.registers.pc = 0x0003 ∧
      u.cpu.registers.sp = 0xFFFE) ∧
    (∃ u, (onRoutines 0x0123 .enabled 0x05).TwoSteps u ∧
      u.cpu.registers = (onRoutines 0x0123 .enabled 0x05).cpu.registers ∧
      Memory.read u.memory Interrupt.requestAddress = .ok 0x04) := by
  refine ⟨?_, ?_, ?_⟩
  · obtain ⟨hpush, -, -⟩ :=
      stack_restores (s := onRoutines 0x0000 .disabled 0x00) ready_onRoutines
        faultFree_onRoutines
    obtain ⟨u, hsteps, -, -, hpair, hsp, -⟩ := hpush .bc .af 0x0001 0x0002 poll_onRoutines
      (by decide +kernel) (by decide +kernel) (stackRoom_onRoutines (by decide))
    exact ⟨u, hsteps, hpair, hsp⟩
  · obtain ⟨-, hcall, -⟩ :=
      stack_restores (s := onRoutines 0x0002 .disabled 0x00) ready_onRoutines
        faultFree_onRoutines
    obtain ⟨u, hsteps, -, hregisters, -⟩ := hcall ⟨.rst, some (.vector 0x08), none⟩
      ⟨.ret, none, none⟩ 0x0003 0x0008 0x0009 poll_onRoutines (by decide +kernel) (by decide) rfl
      rfl (by decide +kernel) rfl rfl (stackRoom_onRoutines (by decide))
    exact ⟨u, hsteps, congrArg Registers.pc hregisters, congrArg Registers.sp hregisters⟩
  · obtain ⟨-, -, hanswer⟩ :=
      stack_restores (s := onRoutines 0x0123 .enabled 0x05) ready_onRoutines
        faultFree_onRoutines
    have hvector : (onRoutines 0x0123 .enabled 0x05).memory.place Interrupt.vblank.vector ≠
        (onRoutines 0x0123 .enabled 0x05).memory.place Interrupt.requestAddress := by
      rw [distinct_onRoutines.place faultFree_onRoutines,
        distinct_onRoutines.place faultFree_onRoutines]
      decide
    obtain ⟨u, f, hsteps, -, hregisters, hf, hread, -⟩ := hanswer .vblank 0x0041 id rfl
      poll_onRoutines (by decide +kernel) (distinct_onRoutines.cellAt faultFree_onRoutines _)
      hvector (stackRoom_onRoutines (by decide))
    obtain rfl := Except.ok.inj (read_onRoutines.1.symm.trans hf)
    exact ⟨u, hsteps, hregisters, hread⟩

end Machine

end Handheld
