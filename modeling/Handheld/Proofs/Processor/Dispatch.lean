/-
# Answering an interrupt

A machine between instructions that takes interrupts answers the first pending one in five cycles:
it takes the request back, pushes the program counter and jumps to the interrupt's routine.  The
main statement, `Machine.step_answers`, says so for machines on a map without faults, byte by byte.
-/
import Handheld.Proofs.MemoryMap.Cells
import Handheld.Proofs.Processor.Step

namespace Handheld

variable {M : Type} [Memory M]

/-! ## The dispatch on any memory -/

/-- What is left of a dispatch after its first cycle. -/
lemma Routine.pass_dispatch {i : Interrupt} {d : Datapath} {m m' m'' : M}
    (hhigh : Memory.write m (d.registers.sp - 1) (Word.high d.registers.pc) = (.ok (), m'))
    (hlow : Memory.write m' (d.registers.sp - 2) (Word.low d.registers.pc) = (.ok (), m'')) :
    (interrupt i).pass 1 d m (Program.dispatch.ops.drop 1) =
      ⟨.ok (), { d with registers := { d.registers with pc := i.vector, sp := d.registers.sp - 2 } },
        m'', 4, true⟩ := by
  have hpushHigh : (MicroOp.pushHigh .pc).perform d m = (.ok (), d.moveStack (-1), m') := by
    unfold MicroOp.perform MicroOp.issue Datapath.push
    simp only [Datapath.moveStack, add_neg_one, Datapath.word, hhigh]
  have hpushLow : (MicroOp.pushLow .pc).perform (d.moveStack (-1)) m' =
      (.ok (), { d with registers := { d.registers with sp := d.registers.sp - 2 } }, m'') := by
    unfold MicroOp.perform MicroOp.issue Datapath.push
    simp only [Datapath.moveStack, add_neg_one, sub_one_sub_one, Datapath.word, hlow]
  -- the effect comes with the last operation, and there is no condition
  have happly (k : Nat) (hk : k ≠ 4) (d : Datapath) : (interrupt i).applyAt k d = d :=
    if_neg fun heffect => hk (Option.some.inj heffect).symm
  change (interrupt i).pass 1 d m [.internal, .pushHigh .pc, .pushLow .pc, .internal] = _
  have hinternal (d : Datapath) (m : M) : MicroOp.internal.perform d m = (.ok (), d, m) := rfl
  rw [pass_of_takes (hinternal d m) rfl, happly 1 (by decide),
    pass_of_takes hpushHigh rfl, happly 2 (by decide),
    pass_of_takes hpushLow rfl, happly 3 (by decide), pass_of_ends (hinternal _ _) (.inl rfl)]
  rfl

namespace Machine

variable {s : Machine M} {i : Interrupt} {m m' m'' : M}

/-- Whether a machine takes interrupts in the next cycle. -/
structure Attends (s : Machine M) : Prop where
  boundary : s.cpu.phase = .fetching
  unlocked : s.cpu.locked = false
  enabled : s.cpu.registers.ime = .enabled

/-- The registers when an interrupt has been answered. -/
def answeredRegisters (r : Registers) (i : Interrupt) : Registers :=
  { r with pc := i.vector, sp := r.sp - 2, ime := .disabled, halted := false }

/-- The processor when it has answered an interrupt. -/
def answered (cpu : Cpu) (i : Interrupt) : Cpu :=
  { cpu with
    registers := answeredRegisters cpu.registers i
    cycles := cpu.cycles + 5
    phase := .fetching
    journal := cpu.journal.add (.dispatching i cpu.registers.pc) }

/-- The first cycle of a dispatch takes the request back. -/
lemma tick_of_attends (h : s.Attends) (hpoll : Interrupt.poll s.memory = .ok (some i))
    (hack : i.acknowledge s.memory = (.ok (), m)) :
    s.tick = (.ok false,
      ⟨{ s.cpu with
          registers := { s.cpu.registers with ime := .disabled, halted := false }
          cycles := s.cpu.cycles + 1
          phase := .executing { routine := .interrupt i, origin := s.cpu.registers.pc, cursor := 1 }
          journal := s.cpu.journal.add (.dispatching i s.cpu.registers.pc) }, m⟩) := by
  obtain ⟨cpu, m₀⟩ := s
  obtain ⟨hphase, hlocked, hime⟩ := h
  dsimp only at hphase hlocked hime hpoll hack
  rw [tick_fetching hphase]
  unfold fetch
  rw [if_neg (by simp [hlocked]), hpoll]
  dsimp only
  rw [if_pos hime]
  unfold dispatch
  dsimp only
  rw [hack]
  dsimp only
  refine (execute_goesOn _ (show _ = MicroOp.internal :: Program.dispatch.ops.drop 1 from rfl)
    nofun rfl rfl rfl).trans ?_
  rfl

/-- An interrupt is answered in five cycles. -/
lemma step_of_attends (h : s.Attends) (hpoll : Interrupt.poll s.memory = .ok (some i))
    (hack : i.acknowledge s.memory = (.ok (), m))
    (hhigh : Memory.write m (s.cpu.registers.sp - 1) (Word.high s.cpu.registers.pc) = (.ok (), m'))
    (hlow : Memory.write m' (s.cpu.registers.sp - 2) (Word.low s.cpu.registers.pc) =
      (.ok (), m'')) :
    s.step = (.ok 5, ⟨answered s.cpu i, m''⟩) := by
  have hticks : ticks longestStep s = (.ok (), ⟨answered s.cpu i, m''⟩) := by
    rw [longestStep, ticks, tick_of_attends h hpoll hack]
    dsimp only
    rw [ticks_executing rfl (show _ = Program.dispatch.ops.drop 1 from rfl)
      (List.cons_ne_nil _ _) (by decide)]
    dsimp only
    rw [Routine.pass_dispatch hhigh hlow]
    rfl
  refine step_eq_ok_iff.mpr ⟨hticks, ?_⟩
  change 5 = s.cpu.cycles + 5 - s.cpu.cycles
  omega

/-! ## The dispatch on a map -/

/-- The rest of the answer, when the request reads as `w` after it has been taken back: the two
bytes of the program counter are pushed. -/
lemma step_of_changes {s : Machine MemoryMap} {m₁ : MemoryMap} {w : UInt8} (h : s.Attends)
    (hpoll : Interrupt.poll s.memory = .ok (some i)) (hack : i.acknowledge s.memory = (.ok (), m₁))
    (hm₁ : s.memory.Changes Interrupt.requestAddress w m₁)
    (hhigh : s.memory.CellAt (s.cpu.registers.sp - 1) id)
    (hlow : s.memory.CellAt (s.cpu.registers.sp - 2) id)
    (hapart : s.memory.place (s.cpu.registers.sp - 1) ≠ s.memory.place Interrupt.requestAddress)
    (hapart' : s.memory.place (s.cpu.registers.sp - 2) ≠
      s.memory.place Interrupt.requestAddress) :
    ∃ m', s.step = (.ok 5, ⟨answered s.cpu i, m'⟩) ∧
      Memory.read m' (s.cpu.registers.sp - 2) = .ok (Word.low s.cpu.registers.pc) ∧
      (s.memory.place (s.cpu.registers.sp - 1) ≠ s.memory.place (s.cpu.registers.sp - 2) →
        Memory.read m' (s.cpu.registers.sp - 1) = .ok (Word.high s.cpu.registers.pc)) ∧
      Memory.read m' Interrupt.requestAddress = .ok w ∧
      ∀ a, s.memory.place a ≠ s.memory.place Interrupt.requestAddress →
        s.memory.place a ≠ s.memory.place (s.cpu.registers.sp - 1) →
        s.memory.place a ≠ s.memory.place (s.cpu.registers.sp - 2) →
        Memory.read m' a = Memory.read s.memory a := by
  obtain ⟨m₂, hwrite₂, hm₂⟩ := (hm₁.cell hhigh).write hm₁.free (Word.high s.cpu.registers.pc)
  obtain ⟨m₃, hwrite₃, hm₃⟩ :=
    (hm₂.cell (hm₁.cell hlow)).write hm₂.free (Word.low s.cpu.registers.pc)
  have hplace (a : Address) : m₂.place a = s.memory.place a := (hm₂.place a).trans (hm₁.place a)
  have hlast {a : Address} (hne : s.memory.place a ≠ s.memory.place (s.cpu.registers.sp - 2)) :
      Memory.read m₃ a = Memory.read m₂ a :=
    hm₃.other (by rwa [hplace, hplace])
  have hmiddle {a : Address} (hne : s.memory.place a ≠ s.memory.place (s.cpu.registers.sp - 1)) :
      Memory.read m₂ a = Memory.read m₁ a :=
    hm₂.other (by rwa [hm₁.place, hm₁.place])
  refine ⟨m₃, step_of_attends h hpoll hack hwrite₂ hwrite₃, hm₃.same rfl, ?_, ?_, ?_⟩
  · intro hne
    rw [hlast hne]
    exact hm₂.same rfl
  · rw [hlast hapart'.symm, hmiddle hapart.symm]
    exact hm₁.same rfl
  · intro a hne hne' hne''
    rw [hlast hne'', hmiddle hne', hm₁.other hne]

/-- **Answering an interrupt, byte by byte.**  On a map without faults, where the requests and the
two cells below the top of the stack are kept in three places, a machine that takes interrupts
answers the first one that is requested and enabled in five cycles.  Of the map it changes the
three places alone. -/
theorem step_answers {s : Machine MemoryMap} {f e : UInt8} {g : UInt8 → UInt8} (h : s.Attends)
    (hfree : s.memory.FaultFree) (hf : Memory.read s.memory Interrupt.requestAddress = .ok f)
    (he : Memory.read s.memory Interrupt.enableAddress = .ok e) (hpending : f &&& e &&& 0x1F ≠ 0)
    (hrequest : s.memory.CellAt Interrupt.requestAddress g)
    (hhigh : s.memory.CellAt (s.cpu.registers.sp - 1) id)
    (hlow : s.memory.CellAt (s.cpu.registers.sp - 2) id)
    (hapart : s.memory.place (s.cpu.registers.sp - 1) ≠ s.memory.place Interrupt.requestAddress)
    (hapart' : s.memory.place (s.cpu.registers.sp - 2) ≠
      s.memory.place Interrupt.requestAddress) :
    ∃ i m', (f &&& e &&& i.mask ≠ 0 ∧
        ∀ j : Interrupt, j.bit < i.bit → f &&& e &&& j.mask = 0) ∧
      s.step = (.ok 5, ⟨answered s.cpu i, m'⟩) ∧
      Memory.read m' (s.cpu.registers.sp - 2) = .ok (Word.low s.cpu.registers.pc) ∧
      (s.memory.place (s.cpu.registers.sp - 1) ≠ s.memory.place (s.cpu.registers.sp - 2) →
        Memory.read m' (s.cpu.registers.sp - 1) = .ok (Word.high s.cpu.registers.pc)) ∧
      Memory.read m' Interrupt.requestAddress = .ok (f &&& ~~~i.mask) ∧
      ∀ a, s.memory.place a ≠ s.memory.place Interrupt.requestAddress →
        s.memory.place a ≠ s.memory.place (s.cpu.registers.sp - 1) →
        s.memory.place a ≠ s.memory.place (s.cpu.registers.sp - 2) →
        Memory.read m' a = Memory.read s.memory a := by
  obtain ⟨i, hi⟩ := Interrupt.exists_pending hpending
  have hpoll : Interrupt.poll s.memory = .ok (some i) := by
    rw [Interrupt.poll_of_reads hf he, hi]
  obtain ⟨m₁, hwrite₁, hm₁⟩ := hrequest.write hfree (f &&& ~~~i.mask)
  rw [hrequest.apply_clear hf] at hm₁
  have hack : i.acknowledge s.memory = (.ok (), m₁) := by
    rw [Interrupt.acknowledge_of_read hf, hwrite₁]
  obtain ⟨m', hstep⟩ := step_of_changes h hpoll hack hm₁ hhigh hlow hapart hapart'
  exact ⟨i, m', Interrupt.pending_eq_some_iff.mp hi, hstep⟩

/-! ### Requests with memory behind them, and without -/

/-- Memory of `n` equal bytes. -/
def filled (name : String) (start : Address) (n : Nat) (v : UInt8)
    (h : n ≤ Ram.room start := by decide) : Ram where
  name
  start
  bytes := Bytes.fill n v
  access := .readWrite
  size_le := (Bytes.size_fill n v).trans_le h

lemma size_filled (name : String) (start : Address) (n : Nat) (v : UInt8)
    (h : n ≤ Ram.room start) : (filled name start n v h).bytes.size = n :=
  Bytes.size_fill n v

lemma stop_filled (name : String) (start : Address) (n : Nat) (v : UInt8)
    (h : n ≤ Ram.room start) :
    (Section.ram (filled name start n v h)).stop = start.toNat + n :=
  congrArg (start.toNat + ·) (size_filled name start n v h)

lemma owns_filled {name : String} {start a : Address} {n : Nat} {v : UInt8}
    {h : n ≤ Ram.room start} :
    (Region.backed (.ram (filled name start n v h))).owns a = true ↔
      start.toNat ≤ a.toNat ∧ a.toNat < start.toNat + n := by
  refine Region.owns_iff.trans ?_
  change _ ∧ a.toNat < start.toNat + (filled name start n v h).bytes.size ↔ _
  rw [size_filled]
  rfl

/-- The memory behind the requests, all of its bits set: every interrupt is enabled. -/
def highRam : Ram :=
  filled "high" 0xFF10 0xF0 0xFF

lemma get_highRam : highRam.get 0xFFFF = 0xFF := by
  decide +kernel

/-- The section of an address around a section of one byte for the requests.  Every interrupt is
enabled. -/
def around (requests : Section) (a : Address) : Section :=
  if a.toNat < 0xFF0F then .ram (filled "low" 0x0000 0xFF0F 0x00)
  else if a.toNat = 0xFF0F then requests
  else .ram highRam

/-- A machine that takes interrupts, with a section of one byte for the requests. -/
def attending (requests : Section) : Machine MemoryMap where
  cpu := { registers := { pc := 0x0100, sp := 0xFFFE, ime := .enabled } }
  memory :=
    ⟨[.backed (.ram (filled "low" 0x0000 0xFF0F 0x00)), .backed requests,
      .backed (.ram highRam)], {}⟩

lemma attends_attending (requests : Section) : (attending requests).Attends :=
  ⟨rfl, rfl, rfl⟩

section

variable {requests : Section} (hstart : requests.start = Interrupt.requestAddress)
  (hlength : requests.length = 1)
include hstart hlength

lemma resolve_attending (a : Address) :
    (attending requests).memory.resolve a = some (around requests a, a) := by
  have hrequests : (Region.backed requests).owns a = true ↔ a.toNat = 0xFF0F := by
    have haddress : Interrupt.requestAddress.toNat = 0xFF0F := rfl
    rw [Region.owns_iff]
    change requests.start.toNat ≤ a.toNat ∧ a.toNat < requests.start.toNat + requests.length ↔ _
    rw [hstart, hlength]
    omega
  have howner : MemoryMap.owner? (attending requests).memory.regions a =
      some (.backed (around requests a)) := by
    have hlast := a.toNat_lt
    unfold attending around
    dsimp only
    split_ifs with hlow hat
    · exact MemoryMap.owner?_cons_of_owns (owns_filled.mpr ⟨Nat.zero_le _, by simpa using hlow⟩)
    · rw [MemoryMap.owner?_cons_of_not_owns (by rw [owns_filled]; simpa using hlow)]
      exact MemoryMap.owner?_cons_of_owns (hrequests.mpr hat)
    · rw [MemoryMap.owner?_cons_of_not_owns (by rw [owns_filled]; simpa using hlow),
        MemoryMap.owner?_cons_of_not_owns (mt hrequests.mp hat)]
      refine MemoryMap.owner?_cons_of_owns (owns_filled.mpr ?_)
      simp only [UInt16.reduceToNat]
      omega
  exact MemoryMap.resolve_of_owner howner

lemma place_attending (a : Address) : (attending requests).memory.place a = some a :=
  MemoryMap.place_of_resolve (resolve_attending hstart hlength a)

lemma faultFree_attending (haccess : requests.accessAt Interrupt.requestAddress = .readWrite) :
    (attending requests).memory.FaultFree := by
  refine MemoryMap.faultFree_iff.mpr fun a => ⟨_, a, resolve_attending hstart hlength a, ?_⟩
  unfold around
  split_ifs with hlow hat
  · rfl
  · obtain rfl : a = Interrupt.requestAddress := UInt16.toNat.inj hat
    exact haccess
  · rfl

/-- The stack is in the memory above the requests. -/
lemma cellAt_attending {a : Address} (ha : 0xFF10 ≤ a.toNat) :
    (attending requests).memory.CellAt a id := by
  refine ⟨_, a, resolve_attending hstart hlength a, ?_⟩
  have hlast := a.toNat_lt
  rw [around, if_neg (by omega), if_neg (by omega)]
  refine .ram (Option.isSome_iff_exists.mpr ⟨_, Ram.offset_eq_some_iff.mpr ⟨ha, rfl, ?_⟩⟩)
  rw [highRam, size_filled]
  change a.toNat - 0xFF10 < 0xF0
  omega

lemma read_attending (haccess : requests.accessAt Interrupt.requestAddress = .readWrite) :
    Memory.read (attending requests).memory Interrupt.requestAddress =
        .ok (requests.read {} Interrupt.requestAddress) ∧
      Memory.read (attending requests).memory Interrupt.enableAddress = .ok 0xFF := by
  have hrequest : around requests Interrupt.requestAddress = requests := rfl
  have henable : around requests Interrupt.enableAddress = .ram highRam := rfl
  rw [MemoryMap.read_of_resolve (resolve_attending hstart hlength Interrupt.requestAddress),
    MemoryMap.read_of_resolve (resolve_attending hstart hlength Interrupt.enableAddress),
    hrequest, henable, haccess]
  exact ⟨rfl, congrArg Except.ok get_highRam⟩

end

/-- Memory for the requests, of which the first and the third are set. -/
def requestRam : Section :=
  .ram (.ofBytes "if" 0xFF0F ⟨#[0x05]⟩ .readWrite)

/-- The first of two requests is answered, and the other one stays. -/
theorem requestRam_step_answers :
    ∃ m', (attending requestRam).step = (.ok 5, ⟨answered (attending requestRam).cpu .vblank, m'⟩) ∧
      Memory.read m' 0xFFFC = .ok 0x00 ∧ Memory.read m' 0xFFFD = .ok 0x01 ∧
      Memory.read m' Interrupt.requestAddress = .ok 0x04 := by
  have hplace (a : Address) : (attending requestRam).memory.place a = some a :=
    place_attending rfl rfl a
  obtain ⟨hf, he⟩ := @read_attending requestRam rfl rfl rfl
  have hrequest : (attending requestRam).memory.CellAt Interrupt.requestAddress id :=
    ⟨_, _, resolve_attending rfl rfl _, .ram rfl⟩
  obtain ⟨i, m', ⟨hi, hlowest⟩, hstep, hlow, hhigh, hread, -⟩ :=
    step_answers (attends_attending requestRam) (faultFree_attending rfl rfl rfl) hf he
      (by decide) hrequest (cellAt_attending rfl rfl (by decide))
      (cellAt_attending rfl rfl (by decide)) (by rw [hplace, hplace]; decide)
      (by rw [hplace, hplace]; decide)
  obtain rfl : i = .vblank := by
    cases i with
    | vblank => rfl
    | _ => exact absurd (hlowest .vblank (by decide)) (by decide)
  exact ⟨m', hstep, hlow, hhigh (by rw [hplace, hplace]; decide), hread⟩

/-- Nothing behind the requests: all of them are set, and none can be taken back. -/
theorem openBus_keeps_request :
    ∃ m', (attending (.openBus "bus" 0xFF0F 1)).Attends ∧
      (attending (.openBus "bus" 0xFF0F 1)).memory.FaultFree ∧
      (attending (.openBus "bus" 0xFF0F 1)).memory.CellAt 0xFFFD id ∧
      (attending (.openBus "bus" 0xFF0F 1)).memory.CellAt 0xFFFC id ∧
      (attending (.openBus "bus" 0xFF0F 1)).step =
        (.ok 5, ⟨answered (attending (.openBus "bus" 0xFF0F 1)).cpu .vblank, m'⟩) ∧
      Memory.read (attending (.openBus "bus" 0xFF0F 1)).memory Interrupt.enableAddress =
        .ok 0xFF ∧
      Memory.read (attending (.openBus "bus" 0xFF0F 1)).memory Interrupt.requestAddress =
        .ok 0xFF ∧
      Memory.read m' Interrupt.requestAddress = .ok 0xFF := by
  generalize hs : attending (.openBus "bus" 0xFF0F 1) = s
  have hattends : s.Attends := hs ▸ attends_attending _
  have hfree : s.memory.FaultFree := hs ▸ faultFree_attending rfl rfl rfl
  have hhigh : s.memory.CellAt 0xFFFD id := hs ▸ cellAt_attending rfl rfl (by decide)
  have hlow : s.memory.CellAt 0xFFFC id := hs ▸ cellAt_attending rfl rfl (by decide)
  have hplace (a : Address) : s.memory.place a = some a := hs ▸ place_attending rfl rfl a
  obtain ⟨hf, he⟩ : Memory.read s.memory Interrupt.requestAddress = .ok 0xFF ∧
      Memory.read s.memory Interrupt.enableAddress = .ok 0xFF :=
    hs ▸ read_attending rfl rfl rfl
  have hsp : s.cpu.registers.sp = 0xFFFE := hs ▸ rfl
  have hresolve : s.memory.resolve Interrupt.requestAddress =
      some (.openBus "bus" 0xFF0F 1, Interrupt.requestAddress) :=
    hs ▸ resolve_attending rfl rfl _
  -- the bus gives `FF`, whatever is written
  have hkeeps : (Section.openBus "bus" 0xFF0F 1).Keeps s.memory.board Interrupt.requestAddress
      fun _ => 0xFF :=
    ⟨fun _ => rfl, fun _ => rfl, fun _ _ _ => rfl⟩
  obtain ⟨m₁, hwrite₁, hm₁⟩ := MemoryMap.changes_of_keeps hfree hresolve hkeeps
    (0xFF &&& ~~~Interrupt.vblank.mask)
  have hack : Interrupt.vblank.acknowledge s.memory = (.ok (), m₁) := by
    rw [Interrupt.acknowledge_of_read hf, hwrite₁]
  obtain ⟨m', hstep, -, -, hread, -⟩ := step_of_changes hattends (Interrupt.poll_of_reads hf he)
    hack hm₁ (by rwa [hsp]) (by rwa [hsp]) (by rw [hsp, hplace, hplace]; decide)
    (by rw [hsp, hplace, hplace]; decide)
  exact ⟨m', hattends, hfree, hhigh, hlow, hstep, he, hf, hread⟩

end Machine

end Handheld
