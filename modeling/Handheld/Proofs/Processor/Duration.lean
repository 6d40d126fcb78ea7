/-
# The length of a step

A cycle ends an instruction, fails, or leaves fewer micro-operations to go (`Machine.nears_tick`).
So a step comes to its end on every machine, whatever its memory answers and also from the middle of
an instruction: it takes one cycle at least and seven at most, and leaves the processor between two
instructions (`Machine.length_of_step`, `Machine.phase_step`).
-/
import Handheld.Proofs.Processor.Answers

namespace Handheld

namespace Machine

variable {M : Type}

/-- What a cycle leaves: a processor between two instructions, or one with fewer than `n` cycles
left of an instruction. -/
inductive Nears (n : Nat) : Except Fault Bool × Machine M → Prop
  | ends {result : Except Fault Bool} {t : Machine M} (hresult : result ≠ .ok false)
      (hphase : t.cpu.phase = .fetching) : Nears n (result, t)
  | goesOn {t : Machine M} (hpos : 0 < t.left) (hleft : t.left < n) : Nears n (.ok false, t)

lemma Nears.mono {n n' : Nat} {r : Except Fault Bool × Machine M} (h : Nears n r) (hn : n ≤ n') :
    Nears n' r := by
  cases h with
  | ends hresult hphase => exact .ends hresult hphase
  | goesOn hpos hleft => exact .goesOn hpos (Nat.lt_of_lt_of_le hleft hn)

variable [Memory M] {cpu : Cpu} {m : M} {s t : Machine M} {n k : Nat}

/-! ## Cycles -/

lemma nears_finish (hphase : cpu.phase = .fetching) (m : M) (x : Flight) :
    Nears n (finish cpu m x) := by
  obtain ⟨r, bug, hfinish⟩ | ⟨e, r, -, hfinish⟩ := finish_cases cpu m x
  all_goals
    rw [hfinish]
    exact .ends nofun hphase

/-- A micro-operation ends its program or leaves one fewer, wherever the cursor stands. -/
lemma nears_execute (cpu : Cpu) (m : M) (x : Flight) : Nears x.left (execute cpu m x) := by
  unfold execute
  dsimp only
  split
  · exact .ends nofun rfl
  · rw [applyEffect_eq]
    dsimp only
    split
    · rename_i hgo
      have hlt : x.cursor + 1 < x.program.ops.length :=
        of_decide_eq_true (Bool.and_eq_true_iff.mp hgo).2
      refine .goesOn (Nat.sub_pos_of_lt hlt) ?_
      change x.program.ops.length - (x.cursor + 1) < x.program.ops.length - x.cursor
      omega
    · exact nears_finish rfl _ _

lemma nears_fetchInstruction (hphase : cpu.phase = .fetching) (m : M) :
    Nears longestStep (fetchInstruction cpu m) := by
  obtain ⟨e, pc, bug, -, h⟩ | ⟨pc, i, opcode, journal, h⟩ := fetchInstruction_cases cpu m
  · rw [h]
    exact .ends nofun hphase
  · rw [h]
    obtain ⟨hpos, hlt⟩ := Program.fits_ofInstruction i
    exact .goesOn hpos hlt

/-- A dispatch is its own first micro-operation. -/
lemma nears_dispatch (hphase : cpu.phase = .fetching) (m : M) (i : Interrupt) :
    Nears longestStep (dispatch cpu m i) := by
  unfold dispatch
  dsimp only
  split
  · exact .ends nofun hphase
  · exact (nears_execute _ _ _).mono (Nat.le_of_lt Program.fits_dispatch.2)

lemma nears_fetch (hphase : cpu.phase = .fetching) (m : M) : Nears longestStep (fetch cpu m) := by
  unfold fetch
  split
  · exact .ends nofun hphase
  · split
    · exact .ends nofun hphase
    · split
      · exact .ends nofun hphase
      · exact nears_fetchInstruction hphase m
    · dsimp only
      split
      · exact nears_dispatch (by exact hphase) m _
      · exact nears_fetchInstruction (by exact hphase) m

/-- **A cycle brings the end of an instruction nearer**, or it is the last. -/
theorem nears_tick (s : Machine M) : Nears s.left s.tick := by
  obtain ⟨cpu, m⟩ := s
  unfold left
  cases hphase : cpu.phase with
  | executing x =>
    rw [tick_executing hphase]
    exact nears_execute _ m x
  | fetching =>
    rw [tick_fetching hphase]
    exact nears_fetch (by exact hphase) m

/-! ## Steps -/

/-- Ticks that are as many as are left come to an end. -/
lemma ticks_end (hleft : s.left ≤ n) (hpos : 0 < n) :
    (ticks n s).2.cpu.phase = .fetching ∧ s.cpu.cycles < (ticks n s).2.cpu.cycles ∧
      (ticks n s).2.cpu.cycles ≤ s.cpu.cycles + n := by
  induction n generalizing s with
  | zero => exact absurd hpos (Nat.lt_irrefl 0)
  | succ n ih =>
    have hnears := nears_tick s
    have hcycles := tick_cycles s
    rw [ticks]
    rcases htick : s.tick with ⟨result, t⟩
    rw [htick] at hnears hcycles
    dsimp only at hcycles
    cases hnears with
    | goesOn hpos' hleft' =>
      obtain ⟨hphase, hlt, hle⟩ := ih (s := t) (by omega) (by omega)
      exact ⟨hphase, by dsimp only; omega, by dsimp only; omega⟩
    | ends hresult hphase =>
      have hends : s.cpu.cycles < t.cpu.cycles ∧ t.cpu.cycles ≤ s.cpu.cycles + (n + 1) := by omega
      rcases result with e | _ | _
      · exact ⟨hphase, hends⟩
      · exact absurd rfl hresult
      · exact ⟨hphase, hends⟩

lemma snd_step (s : Machine M) : s.step.2 = (ticks longestStep s).2 := by
  unfold step
  dsimp only
  split
  all_goals
    rename_i h
    rw [h]

/-- **A step ends between two instructions**, also where it fails. -/
theorem phase_step (s : Machine M) : s.step.2.cpu.phase = .fetching := by
  rw [snd_step]
  exact (ticks_end s.left_le (Nat.zero_lt_succ _)).1

/-- No step takes more than seven cycles, not even one that fails. -/
lemma cycles_step_le (s : Machine M) : s.step.2.cpu.cycles ≤ s.cpu.cycles + longestStep := by
  rw [snd_step]
  exact (ticks_end s.left_le (Nat.zero_lt_succ _)).2.2

/-- **A step takes one to seven cycles**, and answers how many. -/
theorem length_of_step (h : s.step = (.ok n, t)) :
    0 < n ∧ n ≤ longestStep ∧ t.cpu.cycles = s.cpu.cycles + n := by
  obtain ⟨hticks, rfl⟩ := step_eq_ok_iff.mp h
  obtain ⟨-, hlt, hle⟩ := ticks_end s.left_le (Nat.zero_lt_succ _)
  rw [hticks] at hlt hle
  dsimp only at hlt hle
  omega

end Machine

end Handheld
