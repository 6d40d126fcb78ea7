/-
# Faults

A fault names the instruction in whose cycles an access failed: by the address of its opcode, and by
the opcode itself if it had been read.  In the cycle that begins an instruction the two are found in
the machine; in a later one they are those that the instruction began with, whatever the program
counter and the byte at that address are by now.  `Cpu.Follows` goes through the history of a
processor and keeps what is under way.  The main statement is `Cpu.Follows.faults`.
-/
import Handheld.Proofs.MemoryMap.Cells
import Handheld.Proofs.Processor.Accesses

namespace Handheld

/-- The address and the opcode that a program began with. -/
def Flight.site (x : Flight) : Address × Option UInt8 :=
  (x.origin, x.opcode)

/-- A map is as before after a write that fails. -/
lemma MemoryMap.keptByFailures {m : MemoryMap} : Memory.KeptByFailures m := by
  intro a v e m' hwrite
  obtain ⟨s, c, -, heq⟩ | ⟨e', heq⟩ := write_cases m a v
  · cases hwrite.symm.trans heq
  · exact congrArg Prod.snd (hwrite.symm.trans heq)

namespace Machine

variable {M : Type} [Memory M] {s t : Machine M} {m : M} {e : MemoryError} {f : Fault} {n : Nat}

/-! ## Where a fault is reported -/

/-- The address and the opcode of the instruction that a machine begins.  The opcode is missing if
the interrupts cannot be polled, if one of them is answered instead, and if it cannot be read. -/
def heading (s : Machine M) : Address × Option UInt8 :=
  (s.cpu.registers.pc,
    match Interrupt.poll s.memory with
    | .error _ => none
    | .ok pending =>
      if pending.isSome ∧ s.cpu.registers.ime = .enabled then none
      else (Memory.read s.memory s.cpu.registers.pc).toOption)

/-- Where a fault of the next cycle is reported: at the program in flight, or at the one that
begins. -/
def site (s : Machine M) : Address × Option UInt8 :=
  (s.cpu.flight?.map Flight.site).getD s.heading

lemma site_fetching (h : s.cpu.phase = .fetching) : s.site = s.heading := by
  rw [site, Cpu.flight?, h]
  rfl

lemma site_executing {x : Flight} (h : s.cpu.phase = .executing x) : s.site = x.site := by
  rw [site, Cpu.flight?, h]
  rfl

lemma heading_of_poll_error (h : Interrupt.poll s.memory = .error e) :
    s.heading = (s.cpu.registers.pc, none) := by
  rw [heading, h]

lemma Attends.heading_eq (h : s.Attends) {i : Interrupt}
    (hpoll : Interrupt.poll s.memory = .ok (some i)) :
    s.heading = (s.cpu.registers.pc, none) := by
  rw [heading, hpoll]
  exact congrArg _ (if_pos ⟨rfl, h.enabled⟩)

lemma Begins.heading_eq (h : s.Begins) {pending : Option Interrupt}
    (hpoll : Interrupt.poll s.memory = .ok pending) :
    s.heading = (s.cpu.registers.pc, (Memory.read s.memory s.cpu.registers.pc).toOption) := by
  rw [heading, hpoll]
  refine congrArg _ (if_neg ?_)
  rintro ⟨hsome, henabled⟩
  obtain ⟨i, rfl⟩ := Option.isSome_iff_exists.mp hsome
  exact h.undisturbed henabled i hpoll

/-- Wherever a cycle fails, it says so at its site. -/
lemma Breaks.site_eq (h : s.Breaks f m) : (f.pc, f.opcode) = s.site := by
  cases h with
  | poll hphase hlocked hpoll => rw [site_fetching hphase, heading_of_poll_error hpoll]
  | acknowledge h hpoll => rw [site_fetching h.boundary, h.heading_eq hpoll]
  | fetch h hpoll => rw [site_fetching h.boundary, h.heading_eq hpoll]
  | operation h => rw [site_executing h, Flight.site]
  | halt h => rw [site_executing h, Flight.site]

/-- A cycle that puts a program in flight keeps in it where it began. -/
lemma exists_site_of_begun (hphase : s.cpu.phase = .fetching) (h : s.tick = (.ok false, t)) :
    ∃ y, t.cpu.phase = .executing y ∧ y.site = s.heading := by
  have hok : ∀ e, s.tick.1 ≠ .error e := by
    rw [h]
    exact nofun
  cases hlocked : s.cpu.locked with
  | true => cases (tick_of_locked hphase hlocked s.memory).symm.trans h
  | false =>
    obtain ⟨pending, hpoll⟩ := exists_poll_of_tick hphase hlocked hok
    obtain hasleep | ⟨i, rfl, hattends⟩ | hbegins := boundary_cases hphase hlocked hpoll
    · rw [tick_of_asleep hphase hlocked (hpoll.trans (congrArg _ hasleep.1)) hasleep.2] at h
      cases h
    · obtain ⟨m, hack⟩ := exists_acknowledge_of_tick hattends hpoll hok
      rw [tick_of_attends hattends hpoll hack] at h
      obtain rfl := congrArg Prod.snd h
      exact ⟨_, rfl, (hattends.heading_eq hpoll).symm⟩
    · cases hfetched : s.cpu.fetched s.memory with
      | error e => exact absurd (hbegins.tick_of_error hpoll hfetched).1 (hok _)
      | ok i =>
        obtain ⟨b, -, -, -, hread, -⟩ := Cpu.exists_form_of_fetched hfetched
        rw [hbegins.tick_eq hpoll hread hfetched] at h
        obtain rfl := congrArg Prod.snd h
        refine ⟨_, rfl, ?_⟩
        rw [hbegins.heading_eq hpoll, hread]
        rfl

/-- A cycle that does not end a program passes its site on. -/
lemma exists_site_of_tick (h : s.tick = (.ok false, t)) :
    ∃ y, t.cpu.phase = .executing y ∧ y.site = s.site := by
  cases hphase : s.cpu.phase with
  | executing x =>
    obtain ⟨z, w, hy⟩ := phase_of_tick hphase h
    exact ⟨_, hy, (site_executing hphase).symm⟩
  | fetching =>
    rw [site_fetching hphase]
    exact exists_site_of_begun hphase h

/-! ## Cycles and steps that fail -/

/-- What a cycle has done that fails with a fault, where `begun` is under way. -/
structure Faults (begun : Option (Address × Option UInt8)) (s : Machine M) (f : Fault)
    (t : Machine M) : Prop where
  /-- The fault is reported where the instruction began. -/
  site : (f.pc, f.opcode) = begun.getD s.heading
  /-- An access has been made that fails with the error of the fault. -/
  asked : ∃ b, s.Asks b ∧ b.Fails s.memory f.source
  /-- There is no access that fails with another one. -/
  only : ∀ b e, s.Asks b → b.Fails s.memory e → e = f.source
  cycles : t.cpu.cycles = s.cpu.cycles + 1
  boundary : t.cpu.atBoundary = true
  landed : t.cpu.flight? = none
  memory : Memory.KeptByFailures s.memory → t.memory = s.memory

lemma phase_of_tick_error (h : s.tick.1 = .error f) : s.tick.2.cpu.phase = .fetching := by
  have hnears := nears_tick s
  rcases htick : s.tick with ⟨result, t⟩
  rw [htick] at h hnears
  cases hnears with
  | ends hresult hphase => exact hphase
  | goesOn => cases h

lemma faults_of_tick (h : s.tick = (.error f, t)) :
    Faults (s.cpu.flight?.map Flight.site) s f t := by
  obtain rfl : s.tick.2 = t := congrArg Prod.snd h
  have herror : s.tick.1 = .error f := congrArg Prod.fst h
  have hbreaks := breaks_of_tick herror
  have hphase := phase_of_tick_error herror
  refine ⟨hbreaks.site_eq, hbreaks.exists_asks, ?_, tick_cycles s, ?_, ?_, hbreaks.memory_eq⟩
  · intro b e hasks hfails
    obtain ⟨g, m, hg, rfl⟩ := hasks.exists_breaks hfails
    rw [Except.error.inj (hg.tick.1.symm.trans herror)]
  · rw [Cpu.atBoundary, hphase]
  · rw [Cpu.flight?, hphase]

/-- Of ticks that fail it is the last one that fails. -/
lemma exists_runs_of_ticks_error (h : ticks n s = (.error f, t)) :
    ∃ k u, k < n ∧ Runs k s u ∧ u.tick = (.error f, t) := by
  induction n generalizing s with
  | zero => cases h
  | succ n ih =>
    rw [ticks] at h
    rcases htick : s.tick with ⟨e | _ | _, u⟩
    · rw [htick] at h
      cases h
      exact ⟨0, s, Nat.zero_lt_succ n, .zero s, htick⟩
    · rw [htick] at h
      obtain ⟨k, v, hk, hruns, hv⟩ := ih h
      exact ⟨k + 1, v, Nat.succ_lt_succ hk, .cons htick hruns, hv⟩
    · rw [htick] at h
      cases h

lemma exists_runs_of_step_error (h : s.step = (.error f, t)) :
    ∃ k u, k < longestStep ∧ Runs k s u ∧ u.tick = (.error f, t) := by
  refine exists_runs_of_ticks_error ?_
  unfold step at h
  dsimp only at h
  split at h
  · cases h
  · rename_i hticks
    cases h
    exact hticks

/-- A machine that is about to load from where nothing is mapped. -/
def lost : Machine MemoryMap where
  cpu := .ofRegisters { pc := 0x0100 }
  memory :=
    ⟨[.backed (.ram (.ofBytes "program" 0x0100 ⟨#[0xFA, 0x00, 0xC0]⟩ .readWrite)),
      .backed (.ram (.ofBytes "if" 0xFF0F ⟨#[0x00]⟩ .readWrite)),
      .backed (.ram (.ofBytes "ie" 0xFFFF ⟨#[0x00]⟩ .readWrite))], {}⟩

/-- The machine after the cycles that fetch and read the address. -/
def lostAfter : Nat → Machine MemoryMap
  | 0 => lost
  | n + 1 => (lostAfter n).tick.2

end Machine

/-! ## Histories -/

namespace Cpu

open Machine

/-- A processor in the course of its history, with the address and the opcode of what it has under
way.  The ticks may find a memory of another kind each time, and registers and cycle counter may be
set and a listener may be attached in between. -/
inductive Follows : Cpu → Option (Address × Option UInt8) → Prop
  | start (r : Registers) (journal : Journal) : Follows { ofRegisters r with journal } none
  | assign {cpu : Cpu} {begun : Option (Address × Option UInt8)} (h : Follows cpu begun)
      (r : Registers) (cycles : Nat) (journal : Journal) :
      Follows { cpu with registers := r, cycles, journal } begun
  /-- What was under way still is, or else this cycle has begun something. -/
  | goesOn {M : Type} [Memory M] {cpu : Cpu} {begun : Option (Address × Option UInt8)} {m : M}
      {t : Machine M} (h : Follows cpu begun) (htick : tick ⟨cpu, m⟩ = (.ok false, t)) :
      Follows t.cpu (some (begun.getD (heading ⟨cpu, m⟩)))
  /-- Nothing is under way when a cycle has ended an instruction or failed. -/
  | ends {M : Type} [Memory M] {cpu : Cpu} {begun : Option (Address × Option UInt8)} {m : M}
      {result : Except Fault Bool} {t : Machine M} (h : Follows cpu begun)
      (htick : tick ⟨cpu, m⟩ = (result, t)) (hresult : result ≠ .ok false) : Follows t.cpu none

namespace Follows

variable {M : Type} [Memory M] {cpu : Cpu} {begun : Option (Address × Option UInt8)} {m : M}
  {k : Nat} {s u : Machine M}

/-- A processor remembers what it has under way. -/
lemma site_eq (h : cpu.Follows begun) : cpu.flight?.map Flight.site = begun := by
  induction h with
  | start => rfl
  | assign _ _ _ _ ih => exact ih
  | @goesOn _ _ cpu begun m t h htick ih =>
    obtain ⟨y, hy, hsite⟩ := exists_site_of_tick htick
    rw [← ih, Cpu.flight?, hy]
    exact congrArg some hsite
  | @ends _ _ cpu begun m result t h htick hresult ih =>
    have hnears := nears_tick (⟨cpu, m⟩ : Machine _)
    rw [htick] at hnears
    cases hnears with
    | ends _ hphase => rw [Cpu.flight?, hphase, Option.map_none]
    | goesOn => exact absurd rfl hresult

lemma runs (h : s.cpu.Follows begun) (hruns : Runs k s u) : ∃ begun', u.cpu.Follows begun' := by
  induction hruns with
  | zero => exact ⟨begun, h⟩
  | succ _ htick ih =>
    obtain ⟨begun', h'⟩ := ih h
    exact ⟨_, h'.goesOn htick⟩

/-- **The faults of a processor.**  When a cycle fails, anywhere in the history, the fault has the
address and the opcode that what is under way began with, or else those at which the cycle begins,
and the error of the access that fails.  The cycle is counted, the processor is between instructions
with nothing in flight, and memory is as it was, provided that no write that fails changes it.  When
a step fails, its cycles before the last have worked, and the last one fails in this way: of the
step there remains what those cycles have written. -/
theorem faults (h : cpu.Follows begun) (m : M) :
    (∀ f t, tick ⟨cpu, m⟩ = (.error f, t) → Faults begun ⟨cpu, m⟩ f t) ∧
      ∀ f t, step ⟨cpu, m⟩ = (.error f, t) →
        ∃ k u begun', k < longestStep ∧ Runs k ⟨cpu, m⟩ u ∧ u.cpu.Follows begun' ∧
          u.tick = (.error f, t) ∧ Faults begun' u f t := by
  constructor
  · intro f t htick
    rw [← h.site_eq]
    exact faults_of_tick htick
  · intro f t hstep
    obtain ⟨k, u, hk, hruns, htick⟩ := exists_runs_of_step_error hstep
    obtain ⟨begun', h'⟩ := runs (s := ⟨cpu, m⟩) h hruns
    refine ⟨k, u, begun', hk, hruns, h', htick, ?_⟩
    rw [← h'.site_eq]
    exact faults_of_tick htick

/-- The load fails in its last cycle, behind its last byte, and the fault names its first. -/
theorem lost_faults :
    Runs 4 lost (lostAfter 4) ∧ (lostAfter 4).cpu.Follows (some (0x0100, some 0xFA)) ∧
      (lostAfter 4).tick = (.error ⟨0x0100, some 0xFA, .notMapped 0xC000⟩, lostAfter 5) ∧
      Faults (some (0x0100, some 0xFA)) (lostAfter 4) ⟨0x0100, some 0xFA, .notMapped 0xC000⟩
        (lostAfter 5) ∧
      (lostAfter 5).memory = (lostAfter 4).memory := by
  have hfetch : lost.tick = (.ok false, lostAfter 1) := Prod.ext (by decide +kernel) rfl
  have hopcode : (lostAfter 1).tick = (.ok false, lostAfter 2) := Prod.ext (by decide +kernel) rfl
  have hlow : (lostAfter 2).tick = (.ok false, lostAfter 3) := Prod.ext (by decide +kernel) rfl
  have hhigh : (lostAfter 3).tick = (.ok false, lostAfter 4) := Prod.ext (by decide +kernel) rfl
  have hload : (lostAfter 4).tick = (.error ⟨0x0100, some 0xFA, .notMapped 0xC000⟩, lostAfter 5) :=
    Prod.ext (by decide +kernel) rfl
  have hheading : lost.heading = (0x0100, some 0xFA) := by decide +kernel
  have hfollows : (lostAfter 4).cpu.Follows (some (0x0100, some 0xFA)) := by
    rw [← hheading]
    exact ((((start { pc := 0x0100 } {}).goesOn hfetch).goesOn hopcode).goesOn hlow).goesOn hhigh
  have hfaults := (faults hfollows (lostAfter 4).memory).1 _ _ hload
  exact ⟨.succ (.succ (.succ (.succ (.zero lost) hfetch) hopcode) hlow) hhigh,
    hfollows, hload, hfaults, hfaults.memory MemoryMap.keptByFailures⟩

end Follows

end Cpu

end Handheld
