/-
# Requests of interrupts

Devices request interrupts between any two cycles of the processor, and the processor answers them
one after the other.  The main statement, `Machine.History.requests_kept`, says that nothing is
lost and nothing is answered twice on the console's map: as long as the program leaves the requests
alone, a source's bit is set if and only if it was set at the start or has been requested, and the
source has not been answered since.
-/
import Handheld.Proofs.MemoryMap.Reach
import Handheld.Proofs.Processor.Dispatch

namespace Handheld

/-! ## Occurrences -/

/-- What happens to the request of a source. -/
inductive Occurrence where
  | requested (i : Interrupt)
  | dispatched (i : Interrupt)

namespace Occurrence

variable {p : Prop} {i k : Interrupt} {events : List Occurrence}

/-- Whether a request is waiting for its answer, where the latest occurrence stands first: there
was one at the start that has never been answered, or there has been one that has not been
answered since. -/
def Outstanding (initially : Prop) (k : Interrupt) (events : List Occurrence) : Prop :=
  initially ∧ dispatched k ∉ events ∨
    ∃ later earlier, events = later ++ requested k :: earlier ∧ dispatched k ∉ later

lemma outstanding_nil : Outstanding p k [] ↔ p := by
  simp [Outstanding]

lemma outstanding_requested :
    Outstanding p k (requested i :: events) ↔ k = i ∨ Outstanding p k events := by
  constructor
  · rintro (⟨hp, hnot⟩ | ⟨later, earlier, heq, hnot⟩)
    · exact .inr (.inl ⟨hp, fun hmem => hnot (List.mem_cons_of_mem _ hmem)⟩)
    · cases later with
      | nil =>
        obtain ⟨heq, -⟩ := List.cons.inj heq
        exact .inl (requested.inj heq).symm
      | cons e later =>
        obtain ⟨-, rfl⟩ := List.cons.inj heq
        exact .inr (.inr ⟨later, earlier, rfl, fun hmem => hnot (List.mem_cons_of_mem _ hmem)⟩)
  · rintro (rfl | ⟨hp, hnot⟩ | ⟨later, earlier, rfl, hnot⟩)
    · exact .inr ⟨[], events, rfl, List.not_mem_nil⟩
    · exact .inl ⟨hp, by simpa using hnot⟩
    · exact .inr ⟨requested i :: later, earlier, rfl, by simpa using hnot⟩

lemma outstanding_dispatched :
    Outstanding p k (dispatched i :: events) ↔ k ≠ i ∧ Outstanding p k events := by
  constructor
  · rintro (⟨hp, hnot⟩ | ⟨later, earlier, heq, hnot⟩)
    · exact ⟨fun h => List.ne_of_not_mem_cons hnot (congrArg dispatched h),
        .inl ⟨hp, List.not_mem_of_not_mem_cons hnot⟩⟩
    · cases later with
      | nil => cases (List.cons.inj heq).1
      | cons e later =>
        obtain ⟨rfl, rfl⟩ := List.cons.inj heq
        exact ⟨fun h => List.ne_of_not_mem_cons hnot (congrArg dispatched h),
          .inr ⟨later, earlier, rfl, List.not_mem_of_not_mem_cons hnot⟩⟩
  · rintro ⟨hne, ⟨hp, hnot⟩ | ⟨later, earlier, rfl, hnot⟩⟩
    · exact .inl ⟨hp, by simpa [hne] using hnot⟩
    · exact .inr ⟨dispatched i :: later, earlier, rfl, by simpa [hne] using hnot⟩

/-- After an answer only a new request is outstanding. -/
lemma Outstanding.requested_mem {later earlier : List Occurrence}
    (h : Outstanding p k (later ++ dispatched k :: earlier)) : requested k ∈ later := by
  induction later with
  | nil => exact absurd rfl (outstanding_dispatched.mp h).1
  | cons e later ih =>
    cases e with
    | requested i =>
      rcases outstanding_requested.mp h with rfl | h
      · exact List.mem_cons_self
      · exact List.mem_cons_of_mem _ (ih h)
    | dispatched i => exact List.mem_cons_of_mem _ (ih (outstanding_dispatched.mp h).2)

end Occurrence

/-! ## The memory of one cycle -/

namespace Machine

variable {M : Type} [Memory M] {cpu : Cpu} {m : M} {x : Flight} {s : Machine M} {i : Interrupt}

/-- The byte that the program under way writes in the next cycle, with its address. -/
def store? (s : Machine M) : Option (Address × UInt8) :=
  match s.cpu.phase with
  | .fetching => none
  | .executing x =>
    match ((x.program.ops.getD x.cursor .internal).issue ⟨s.cpu.registers, x.z, x.w⟩).2 with
    | .write a v => some (a, v)
    | _ => none

/-- Whether the next cycle begins to answer an interrupt. -/
def Dispatches (s : Machine M) (i : Interrupt) : Prop :=
  s.cpu.phase = .fetching ∧
    ∃ x, s.tick.2.cpu.phase = .executing x ∧ x.routine = .interrupt i

lemma perform_memory (op : MicroOp) (d : Datapath) (m : M) :
    (op.perform d m).2.2 =
      match (op.issue d).2 with
      | .write a v => (Memory.write m a v).2
      | _ => m := by
  unfold MicroOp.perform
  rcases op.issue d with ⟨d', _ | a | ⟨a, v⟩⟩
  · rfl
  · dsimp only
    split <;> rfl
  · rfl

lemma finish_memory (cpu : Cpu) (m : M) (x : Flight) : (finish cpu m x).2.memory = m := by
  obtain ⟨r, bug, hfinish⟩ | ⟨e, r, -, hfinish⟩ := finish_cases cpu m x
  all_goals rw [hfinish]

lemma execute_memory (cpu : Cpu) (m : M) (x : Flight) :
    (execute cpu m x).2.memory =
      ((x.program.ops.getD x.cursor .internal).perform ⟨cpu.registers, x.z, x.w⟩ m).2.2 := by
  unfold execute
  dsimp only
  split
  · rename_i h
    rw [h]
  · rename_i h
    rw [h]
    dsimp only
    split
    · rfl
    · exact finish_memory _ _ _

/-- A cycle of a program changes the memory by its store alone. -/
lemma tick_memory_of_executing (hphase : s.cpu.phase = .executing x) :
    s.tick.2.memory =
      match s.store? with
      | some (a, v) => (Memory.write s.memory a v).2
      | none => s.memory := by
  obtain ⟨cpu, m⟩ := s
  rw [tick_executing hphase, execute_memory, perform_memory]
  unfold store?
  rw [hphase]
  dsimp only
  split <;> rfl

/-- Whether a cycle leaves the memory as it is and begins no answer to an interrupt. -/
def Quiet (m : M) (s : Machine M) : Prop :=
  s.memory = m ∧ ∀ x i, s.cpu.phase = .executing x → x.routine ≠ .interrupt i

omit [Memory M] in
lemma quiet_of_fetching (h : cpu.phase = .fetching) : Quiet m ⟨cpu, m⟩ :=
  ⟨rfl, fun _ _ hx => absurd (h.symm.trans hx) nofun⟩

lemma quiet_fetchInstruction (hphase : cpu.phase = .fetching) :
    Quiet m (fetchInstruction cpu m).2 := by
  obtain ⟨e, pc, bug, -, h⟩ | ⟨pc, j, opcode, journal, h⟩ := fetchInstruction_cases cpu m
  · rw [h]
    exact quiet_of_fetching hphase
  · rw [h]
    refine ⟨rfl, fun x i hx => ?_⟩
    obtain rfl := Phase.executing.inj hx
    nofun

/-- A processor that takes no interrupts begins no answer to one. -/
lemma quiet_fetch (hphase : cpu.phase = .fetching)
    (h : ∀ i, Interrupt.poll m = .ok (some i) → cpu.locked = false →
      cpu.registers.ime ≠ .enabled) :
    Quiet m (fetch cpu m).2 := by
  obtain ⟨result, hfetch⟩ | ⟨-, hfetch⟩ | ⟨i, hlocked, hpoll, hime, -⟩ := fetch_cases cpu m
  · rw [hfetch]
    exact quiet_of_fetching hphase
  · rw [hfetch]
    exact quiet_fetchInstruction hphase
  · exact absurd hime (h i hpoll hlocked)

/-- A machine that takes interrupts answers the one that is pending. -/
lemma dispatches_of_attends (h : s.Attends) (hpoll : Interrupt.poll s.memory = .ok (some i))
    (hack : i.acknowledge s.memory = (.ok (), m)) :
    s.Dispatches i ∧ s.tick.2.memory = m := by
  have htick := tick_of_attends h hpoll hack
  refine ⟨⟨h.boundary, ?_⟩, ?_⟩
  · rw [htick]
    exact ⟨_, rfl, rfl⟩
  · rw [htick]

/-- Between two instructions a pending interrupt is answered if the machine takes interrupts, and
otherwise the memory stays as it is. -/
lemma dispatches_or_quiet (hphase : s.cpu.phase = .fetching)
    (hack : ∀ i, ∃ m, Interrupt.acknowledge i s.memory = (.ok (), m)) :
    (∃ i, s.Attends ∧ Interrupt.poll s.memory = .ok (some i) ∧ s.Dispatches i ∧
        s.tick.2.memory = (i.acknowledge s.memory).2) ∨ Quiet s.memory s.tick.2 := by
  by_cases h : ∃ i, Interrupt.poll s.memory = .ok (some i) ∧ s.cpu.locked = false ∧
      s.cpu.registers.ime = .enabled
  · obtain ⟨i, hpoll, hlocked, hime⟩ := h
    obtain ⟨m, hm⟩ := hack i
    have hattends : s.Attends := ⟨hphase, hlocked, hime⟩
    obtain ⟨hdispatches, hmemory⟩ := dispatches_of_attends hattends hpoll hm
    exact .inl ⟨i, hattends, hpoll, hdispatches, by rw [hmemory, hm]⟩
  · obtain ⟨cpu, m⟩ := s
    rw [tick_fetching hphase]
    refine .inr (quiet_fetch hphase ?_)
    exact fun i hpoll hlocked hime => h ⟨i, hpoll, hlocked, hime⟩

/-- An answer begins with the request that was pending first, which it takes back. -/
lemma Dispatches.answers (h : s.Dispatches i)
    (hack : ∀ i, ∃ m, Interrupt.acknowledge i s.memory = (.ok (), m)) :
    s.Attends ∧ Interrupt.poll s.memory = .ok (some i) ∧
      s.tick.2.memory = (i.acknowledge s.memory).2 := by
  obtain ⟨hphase, x, hx, hroutine⟩ := h
  rcases dispatches_or_quiet hphase hack with ⟨j, hattends, hpoll, ⟨-, y, hy, hj⟩, hmemory⟩ | hquiet
  · obtain rfl := Phase.executing.inj (hx.symm.trans hy)
    obtain rfl := Routine.interrupt.inj (hroutine.symm.trans hj)
    exact ⟨hattends, hpoll, hmemory⟩
  · exact absurd hroutine (hquiet.2 x i hx)

/-- Any other cycle changes the memory by the program's store alone. -/
lemma tick_memory_of_not_dispatches (h : ∀ i, ¬ s.Dispatches i)
    (hack : ∀ i, ∃ m, Interrupt.acknowledge i s.memory = (.ok (), m)) :
    s.tick.2.memory =
      match s.store? with
      | some (a, v) => (Memory.write s.memory a v).2
      | none => s.memory := by
  cases hphase : s.cpu.phase with
  | executing x => exact tick_memory_of_executing hphase
  | fetching =>
    rcases dispatches_or_quiet hphase hack with ⟨i, -, -, hdispatches, -⟩ | hquiet
    · exact absurd hdispatches (h i)
    · rw [hquiet.1, store?, hphase]

end Machine

/-! ## The requests on the console's map -/

namespace MemoryMap

variable {m : MemoryMap} {a : Address} {f v : UInt8} {bootProgram : Option ByteArray}

/-- No write but one to the requests themselves reaches them. -/
lemma Reaches.eq_request (h : Reaches a Interrupt.requestAddress) :
    a = Interrupt.requestAddress := by
  have haddress : Interrupt.requestAddress.toNat = 0xFF0F := rfl
  cases h with
  | memory | work | register => rfl
  | banks ha hb => omega
  | echo h =>
    obtain ⟨n, hn, ⟨-, hb⟩ | ⟨-, hb⟩⟩ := h
    · omega
    · omega
  | display ha hb => exact absurd hb (by decide)
  | boot ha hb => omega

/-- A write to the requests reaches them alone. -/
lemma Reaches.eq_of_request (h : Reaches Interrupt.requestAddress a) :
    a = Interrupt.requestAddress := by
  have haddress : Interrupt.requestAddress.toNat = 0xFF0F := rfl
  cases h with
  | memory | work | register => rfl
  | banks ha hb => omega
  | echo h =>
    obtain ⟨n, hn, ⟨ha, -⟩ | ⟨ha, -⟩⟩ := h
    · omega
    · omega
  | display ha hb => exact absurd ha (by decide)
  | boot ha hb => exact absurd ha (by decide)

namespace Layout

variable (h : Layout bootProgram m)
include h

lemma faultFree : m.FaultFree := by
  refine faultFree_iff.mpr fun a => ?_
  obtain ⟨s, b, hresolve, hsound, -⟩ := h.sound.exists_section a
  exact ⟨s, b, hresolve, hsound.accessAt b⟩

lemma cellAt_request : m.CellAt Interrupt.requestAddress Section.requestByte := by
  obtain ⟨s, hresolve, hbehind⟩ := h.exists_behind Interrupt.requestAddress
  have hself : wired Interrupt.requestAddress = Interrupt.requestAddress := rfl
  have haddress : Interrupt.requestAddress.toNat = 0xFF0F := rfl
  rw [hself] at hresolve hbehind
  cases hbehind with
  | registers _ hs hsize =>
    subst hs
    exact ⟨_, _, hresolve, .request hsize⟩
  | program hin _ | cartridge hin _ | memory hin _ | nothing hin _ => omega

/-- Whatever is written elsewhere, the requests stay. -/
lemma read_request_write (ha : a ≠ Interrupt.requestAddress) (v : UInt8) :
    Memory.read (Memory.write m a v).2 Interrupt.requestAddress =
      Memory.read m Interrupt.requestAddress := by
  rw [(h.write a v).1]
  by_contra hne
  exact ha (h.reaches hne).eq_request

lemma exists_read_request : ∃ f, Memory.read m Interrupt.requestAddress = .ok f :=
  (h.faultFree Interrupt.requestAddress).1

lemma write_request (v : UInt8) :
    ∃ m', Memory.write m Interrupt.requestAddress v = (.ok (), m') ∧ Layout bootProgram m' ∧
      Memory.read m' Interrupt.requestAddress = .ok (Section.requestByte v) := by
  obtain ⟨m', hwrite, hm'⟩ := h.cellAt_request.write h.faultFree v
  obtain ⟨hstored, hlayout⟩ := h.write Interrupt.requestAddress v
  obtain rfl : m' = _ := congrArg Prod.snd (hwrite.symm.trans hstored)
  exact ⟨_, hwrite, hlayout, hm'.same rfl⟩

/-- A request sets its bit alone. -/
lemma request (hf : Memory.read m Interrupt.requestAddress = .ok f) (i : Interrupt) :
    Layout bootProgram (i.request m).2 ∧
      Memory.read (i.request m).2 Interrupt.requestAddress =
        .ok (Section.requestByte (f ||| i.mask)) := by
  obtain ⟨m', hwrite, hlayout, hread⟩ := h.write_request (f ||| i.mask)
  rw [Interrupt.request_of_read hf, hwrite]
  exact ⟨hlayout, hread⟩

/-- The answer to a request clears its bit alone. -/
lemma acknowledge (hf : Memory.read m Interrupt.requestAddress = .ok f) (i : Interrupt) :
    ∃ m', i.acknowledge m = (.ok (), m') ∧ Layout bootProgram m' ∧
      Memory.read m' Interrupt.requestAddress = .ok (f &&& ~~~i.mask) := by
  obtain ⟨m', hwrite, hlayout, hread⟩ := h.write_request (f &&& ~~~i.mask)
  rw [h.cellAt_request.apply_clear hf] at hread
  exact ⟨m', by rw [Interrupt.acknowledge_of_read hf, hwrite], hlayout, hread⟩

end Layout

end MemoryMap

/-! ## Histories -/

namespace Machine

/-- What a machine comes to from `start`, with what has happened to the requests, the latest first.
Devices request between any two cycles; the program does not write to the requests. -/
inductive History (start : Machine MemoryMap) : List Occurrence → Machine MemoryMap → Prop
  | start : History start [] start
  | request {events : List Occurrence} {s : Machine MemoryMap} (h : History start events s)
      (i : Interrupt) :
      History start (.requested i :: events) { s with memory := (i.request s.memory).2 }
  | dispatch {events : List Occurrence} {s : Machine MemoryMap} (h : History start events s)
      {i : Interrupt} (hdispatches : s.Dispatches i) :
      History start (.dispatched i :: events) s.tick.2
  | tick {events : List Occurrence} {s : Machine MemoryMap} (h : History start events s)
      (hquiet : ∀ i, ¬ s.Dispatches i)
      (hstore : ∀ v, s.store? ≠ some (Interrupt.requestAddress, v)) :
      History start events s.tick.2

variable {start s : Machine MemoryMap} {events later earlier : List Occurrence}
  {bootProgram : Option ByteArray} {f f₀ : UInt8} {k : Interrupt}

section

variable (hlayout : MemoryMap.Layout bootProgram s.memory)
  (hf : Memory.read s.memory Interrupt.requestAddress = .ok f)
include hlayout

lemma acknowledges (i : Interrupt) : ∃ m, i.acknowledge s.memory = (.ok (), m) := by
  obtain ⟨f, hf⟩ := hlayout.exists_read_request
  obtain ⟨m, hm, -⟩ := hlayout.acknowledge hf i
  exact ⟨m, hm⟩

include hf

/-- **An answer to an interrupt** comes while interrupts are enabled, to the first source that is
requested and enabled, and clears its request alone. -/
lemma Dispatches.clears (h : s.Dispatches k) :
    s.cpu.registers.ime = .enabled ∧
      (∃ e, Memory.read s.memory Interrupt.enableAddress = .ok e ∧ f &&& e &&& k.mask ≠ 0 ∧
        ∀ j : Interrupt, j.bit < k.bit → f &&& e &&& j.mask = 0) ∧
      MemoryMap.Layout bootProgram s.tick.2.memory ∧
      Memory.read s.tick.2.memory Interrupt.requestAddress = .ok (f &&& ~~~k.mask) := by
  obtain ⟨hattends, hpoll, hmemory⟩ := h.answers (acknowledges hlayout)
  obtain ⟨e, he⟩ := (hlayout.faultFree Interrupt.enableAddress).1
  obtain ⟨m, hm, hlayout', hread⟩ := hlayout.acknowledge hf k
  rw [Interrupt.poll_of_reads hf he] at hpoll
  rw [hmemory, hm]
  exact ⟨hattends.enabled, ⟨e, he, Interrupt.pending_eq_some_iff.mp (Except.ok.inj hpoll)⟩,
    hlayout', hread⟩

lemma quiet_tick_keeps (hquiet : ∀ i, ¬ s.Dispatches i)
    (hstore : ∀ v, s.store? ≠ some (Interrupt.requestAddress, v)) :
    MemoryMap.Layout bootProgram s.tick.2.memory ∧
      Memory.read s.tick.2.memory Interrupt.requestAddress = .ok f := by
  rw [tick_memory_of_not_dispatches hquiet (acknowledges hlayout)]
  cases h : s.store? with
  | none => exact ⟨hlayout, hf⟩
  | some target =>
    obtain ⟨a, v⟩ := target
    have ha : a ≠ Interrupt.requestAddress := by
      rintro rfl
      exact hstore v h
    dsimp only
    rw [hlayout.read_request_write ha, (hlayout.write a v).1]
    exact ⟨(hlayout.write a v).2, hf⟩

end

namespace History

/-- What is outstanding is what is set, by one case for each thing that can happen. -/
lemma outstanding (hstart : MemoryMap.Layout bootProgram start.memory)
    (hf₀ : Memory.read start.memory Interrupt.requestAddress = .ok f₀)
    (h : History start events s) :
    MemoryMap.Layout bootProgram s.memory ∧
      ∃ f, Memory.read s.memory Interrupt.requestAddress = .ok f ∧
        ∀ k : Interrupt, f &&& k.mask ≠ 0 ↔
          Occurrence.Outstanding (f₀ &&& k.mask ≠ 0) k events := by
  induction h with
  | start => exact ⟨hstart, f₀, hf₀, fun k => Occurrence.outstanding_nil.symm⟩
  | request h i ih =>
    obtain ⟨hlayout, f, hf, hbits⟩ := ih
    obtain ⟨hlayout', hread⟩ := hlayout.request hf i
    refine ⟨hlayout', _, hread, fun k => ?_⟩
    rw [Section.requestByte_and_mask, Interrupt.set_and_mask, hbits,
      Occurrence.outstanding_requested]
  | dispatch h hdispatches ih =>
    obtain ⟨hlayout, f, hf, hbits⟩ := ih
    obtain ⟨-, -, hlayout', hread⟩ := hdispatches.clears hlayout hf
    refine ⟨hlayout', _, hread, fun k => ?_⟩
    rw [Interrupt.clear_and_mask, hbits, Occurrence.outstanding_dispatched]
  | tick h hquiet hstore ih =>
    obtain ⟨hlayout, f, hf, hbits⟩ := ih
    obtain ⟨hlayout', hread⟩ := quiet_tick_keeps hlayout hf hquiet hstore
    exact ⟨hlayout', f, hread, hbits⟩

/-- Before an answer there was a machine that began it. -/
lemma exists_dispatches (h : History start (later ++ .dispatched k :: earlier) s) :
    ∃ t, History start earlier t ∧ t.Dispatches k := by
  generalize hevents : later ++ .dispatched k :: earlier = events at h
  induction h generalizing later with
  | start => exact absurd hevents (by simp)
  | tick h hquiet hstore ih => exact ih hevents
  | request h i ih =>
    cases later with
    | nil => cases (List.cons.inj hevents).1
    | cons e later => exact ih (List.cons.inj hevents).2
  | dispatch h hdispatches ih =>
    cases later with
    | nil =>
      obtain ⟨heq, rfl⟩ := List.cons.inj hevents
      obtain rfl := Occurrence.dispatched.inj heq
      exact ⟨_, h, hdispatches⟩
    | cons e later => exact ih (List.cons.inj hevents).2

/-- **No request is lost, and none is answered twice.**  On the console's map, whatever the
processor is at and whenever devices request, a source's bit is set exactly while its request is
outstanding.  An answer comes while interrupts are enabled, to the first source that is requested
and enabled, and clears its bit alone; between two answers to a source there is a request. -/
theorem requests_kept (hstart : MemoryMap.ConsoleState start.memory)
    (h : History start events s) :
    ∃ f₀ f, Memory.read start.memory Interrupt.requestAddress = .ok f₀ ∧
      Memory.read s.memory Interrupt.requestAddress = .ok f ∧
      (∀ k : Interrupt, f &&& k.mask ≠ 0 ↔
        Occurrence.Outstanding (f₀ &&& k.mask ≠ 0) k events) ∧
      (∀ k, s.Dispatches k → s.cpu.registers.ime = .enabled ∧
        (∃ e, Memory.read s.memory Interrupt.enableAddress = .ok e ∧ f &&& e &&& k.mask ≠ 0 ∧
          ∀ j : Interrupt, j.bit < k.bit → f &&& e &&& j.mask = 0) ∧
        Memory.read s.tick.2.memory Interrupt.requestAddress = .ok (f &&& ~~~k.mask)) ∧
      ∀ k later between earlier,
        events = later ++ .dispatched k :: (between ++ .dispatched k :: earlier) →
        .requested k ∈ between := by
  obtain ⟨bootProgram, hlayout₀⟩ := hstart.exists_layout
  obtain ⟨f₀, hf₀⟩ := hlayout₀.exists_read_request
  obtain ⟨hlayout, f, hf, hbits⟩ := h.outstanding hlayout₀ hf₀
  refine ⟨f₀, f, hf₀, hf, hbits, ?_, ?_⟩
  · intro k hdispatches
    obtain ⟨hime, hfirst, -, hread⟩ := hdispatches.clears hlayout hf
    exact ⟨hime, hfirst, hread⟩
  · rintro k later between earlier rfl
    -- the later answer found the bit set, so a request was outstanding
    obtain ⟨t, ht, hdispatches⟩ := h.exists_dispatches
    obtain ⟨hlayout', f', hf', hbits'⟩ := ht.outstanding hlayout₀ hf₀
    obtain ⟨-, ⟨e, -, hset, -⟩, -⟩ := hdispatches.clears hlayout' hf'
    refine ((hbits' k).mp ?_).requested_mem
    intro hclear
    refine hset ?_
    rw [UInt8.and_assoc, UInt8.and_comm e, ← UInt8.and_assoc, hclear, UInt8.zero_and]

/-- A processor that takes interrupts. -/
def listener : Cpu :=
  { registers := { pc := 0xC000, sp := 0xDFFE, ime := .enabled } }

lemma exists_enabled {m : MemoryMap} (hstate : MemoryMap.ConsoleState m) :
    ∃ m', MemoryMap.ConsoleState m' ∧ Memory.read m' Interrupt.enableAddress = .ok 0x01 := by
  obtain ⟨bootProgram, hlayout⟩ := hstate.exists_layout
  have hretains : m.Retains Interrupt.enableAddress := .inr (.inr (.inl (by decide)))
  refine ⟨_, hstate.write Interrupt.enableAddress 0x01, ?_⟩
  rw [(hlayout.write _ _).1]
  exact hlayout.retains hretains (.inl rfl) 0x01

/-- A request of the first source is answered where that source is enabled. -/
lemma exists_answered {m : MemoryMap} (hlayout : MemoryMap.Layout bootProgram m)
    (he : Memory.read m Interrupt.enableAddress = .ok 0x01) :
    ∃ s, History ⟨listener, m⟩ [.dispatched .vblank, .requested .vblank] s := by
  have hrequest : History ⟨listener, m⟩ [.requested .vblank]
      ⟨listener, (Interrupt.vblank.request m).2⟩ :=
    History.start.request .vblank
  obtain ⟨f₀, hf₀⟩ := hlayout.exists_read_request
  obtain ⟨hlayout', f, hf, hbits⟩ := hrequest.outstanding hlayout hf₀
  have hset : f &&& Interrupt.vblank.mask ≠ 0 :=
    (hbits .vblank).mpr (Occurrence.outstanding_requested.mpr (.inl rfl))
  have he' : Memory.read (Interrupt.vblank.request m).2 Interrupt.enableAddress = .ok 0x01 := by
    rw [Interrupt.request_of_read hf₀, (hlayout.write _ _).1, ← he]
    by_contra hne
    exact absurd (hlayout.reaches hne).eq_of_request (by decide)
  have hpending : Interrupt.pending f 0x01 = some .vblank := by
    refine Interrupt.pending_eq_some_iff.mpr ⟨?_, fun j hj => absurd hj (Nat.not_lt_zero _)⟩
    rwa [UInt8.and_assoc]
  obtain ⟨m', hm'⟩ := acknowledges hlayout' .vblank
  have hpoll := Interrupt.poll_of_reads hf he'
  rw [hpending] at hpoll
  exact ⟨_, hrequest.dispatch (dispatches_of_attends ⟨rfl, rfl, rfl⟩ hpoll hm').1⟩

/-- The first request is answered, and one that comes during the answer is kept. -/
theorem blank_requests_kept : ∃ cartridge notices,
    Cartridge.load (Bytes.fill 0x150 0) = .ok (cartridge, notices) ∧
      ∃ m s f, MemoryMap.ConsoleState m ∧
        History ⟨listener, m⟩ [.requested .timer, .dispatched .vblank, .requested .vblank] s ∧
        Memory.read s.memory Interrupt.requestAddress = .ok f ∧
        f &&& Interrupt.timer.mask ≠ 0 ∧ f &&& Interrupt.vblank.mask = 0 := by
  obtain ⟨⟨cartridge, notices⟩, hload⟩ := Console.exists_load_blank
  obtain ⟨m, hstate, he⟩ := exists_enabled (.start (Cartridge.stored_of_load hload) none)
  obtain ⟨bootProgram, hlayout⟩ := hstate.exists_layout
  obtain ⟨s, hs⟩ := exists_answered hlayout he
  have hhistory := hs.request .timer
  obtain ⟨f₀, f, -, hf, hbits, -⟩ := requests_kept hstate hhistory
  refine ⟨cartridge, notices, hload, m, _, f, hstate, hhistory, hf, ?_, ?_⟩
  · exact (hbits .timer).mpr (Occurrence.outstanding_requested.mpr (.inl rfl))
  · by_contra hset
    have houtstanding := (hbits .vblank).mp hset
    rw [Occurrence.outstanding_requested, Occurrence.outstanding_dispatched] at houtstanding
    simp at houtstanding

end History

end Machine

end Handheld
