/-
# The course of a run

A run is a list of steps, and stops at the first place where one of three reasons holds: it has been
cancelled, its cycles are used up, or its steps are.  `Run.Ends` says so of an outcome, in terms of
the steps taken and of what they cost, and a run has just the outcomes that end it
(`Run.observed_eq_some_iff`).  From this the main result, `Run.course`, reads off when a run has an
end, by how much it passes its limit and where it leaves the processor.
-/
import Handheld.Proofs.Processor.Duration
import Handheld.MemoryMap.Basic
import Handheld.Run.Basic

namespace Handheld

lemma Cpu.atBoundary_iff {c : Cpu} : c.atBoundary ↔ c.phase = .fetching := by
  unfold atBoundary
  cases c.phase with
  | fetching => simp
  | executing x => simp

namespace Run

/-! ## Steps one after the other -/

/-- A step of a run: the cycles it took and the processor after it. -/
structure Stride where
  cost : Nat
  cpu : Cpu

/-- The cycles that steps took. -/
def cost : List Stride → Nat
  | [] => 0
  | x :: log => x.cost + cost log

/-- What an observer makes of steps, told of them in order with their numbers from one on. -/
def Observer.follow {σ : Type} (o : Observer σ) (observation : σ) (log : List Stride) : σ :=
  (log.zipIdx 1).foldl (fun observation x => o.observe observation x.1.cpu x.2) observation

variable {σ M : Type} [Memory M]

/-- Steps of a machine, one after the other, none of which fails. -/
inductive Steps : Machine M → List Stride → Machine M → Prop
  | nil (s : Machine M) : Steps s [] s
  | cons {s t u : Machine M} {n : Nat} {log : List Stride} (hstep : s.step = (.ok n, t))
      (h : Steps t log u) : Steps s (⟨n, t.cpu⟩ :: log) u

variable {s t u : Machine M} {log log' : List Stride}

@[simp] lemma cost_nil : cost [] = 0 := rfl

@[simp] lemma cost_cons (x : Stride) (log : List Stride) :
    cost (x :: log) = x.cost + cost log :=
  rfl

@[simp] lemma cost_append (log log' : List Stride) :
    cost (log ++ log') = cost log + cost log' := by
  induction log with
  | nil => rw [List.nil_append, cost_nil, Nat.zero_add]
  | cons x log ih => rw [List.cons_append, cost_cons, cost_cons, ih, Nat.add_assoc]

lemma Observer.follow_concat (o : Observer σ) (observation : σ) (log : List Stride) (x : Stride) :
    o.follow observation (log ++ [x]) =
      o.observe (o.follow observation log) x.cpu (log.length + 1) := by
  simp [follow, List.zipIdx_append, Nat.add_comm]

lemma Steps.append (h : Steps s log t) (h' : Steps t log' u) : Steps s (log ++ log') u := by
  induction h with
  | nil => exact h'
  | cons hstep _ ih => exact .cons hstep (ih h')

/-- The cycle counter moves by what the steps cost. -/
lemma Steps.cycles_eq (h : Steps s log t) : t.cpu.cycles = s.cpu.cycles + cost log := by
  induction h with
  | nil => rfl
  | cons hstep _ ih =>
    rw [ih, (Machine.length_of_step hstep).2.2, cost_cons]
    exact Nat.add_assoc _ _ _

/-- Every step takes one cycle at least and seven at most. -/
lemma Steps.cost_mem (h : Steps s log t) :
    ∀ x ∈ log, 0 < x.cost ∧ x.cost ≤ Machine.longestStep := by
  induction h with
  | nil => exact List.forall_mem_nil _
  | cons hstep _ ih =>
    obtain ⟨hpos, hle, -⟩ := Machine.length_of_step hstep
    exact List.forall_mem_cons.mpr ⟨⟨hpos, hle⟩, ih⟩

lemma Steps.take (h : Steps s log t) (j : Nat) : ∃ u, Steps s (log.take j) u := by
  induction h generalizing j with
  | nil s => exact ⟨s, by rw [List.take_nil]; exact .nil s⟩
  | @cons s _ _ _ _ hstep _ ih =>
    cases j with
    | zero => exact ⟨s, .nil s⟩
    | succ j =>
      obtain ⟨u, hsteps⟩ := ih j
      exact ⟨u, .cons hstep hsteps⟩

lemma length_le_cost (h : ∀ x ∈ log, 0 < x.cost) : log.length ≤ cost log := by
  induction log with
  | nil => exact Nat.le_refl 0
  | cons x log ih =>
    obtain ⟨hx, hlog⟩ := List.forall_mem_cons.mp h
    have hle := ih hlog
    rw [List.length_cons, cost_cons]
    omega

lemma Steps.length_le_cost (h : Steps s log t) : log.length ≤ cost log :=
  Run.length_le_cost fun x hx => (h.cost_mem x hx).1

lemma Steps.cost_le (h : Steps s log t) : cost log ≤ Machine.longestStep * log.length := by
  induction h with
  | nil => exact Nat.le_refl 0
  | cons hstep _ ih =>
    obtain ⟨-, hle, -⟩ := Machine.length_of_step hstep
    rw [cost_cons, List.length_cons, Nat.mul_succ, Nat.add_comm]
    exact Nat.add_le_add ih hle

lemma Steps.cost_take_lt {j : Nat} (h : Steps s log t) (hj : j < log.length) :
    cost (log.take j) < cost log := by
  have hdrop : (log.drop j).length ≤ cost (log.drop j) :=
    Run.length_le_cost fun x hx => (h.cost_mem x (List.mem_of_mem_drop hx)).1
  have hcost : cost log = cost (log.take j) + cost (log.drop j) := by
    rw [← cost_append, List.take_append_drop]
  rw [List.length_drop] at hdrop
  omega

/-- Steps leave the processor between two instructions. -/
lemma Steps.phase_eq (h : Steps s log t) (hs : s.cpu.phase = .fetching ∨ log ≠ []) :
    t.cpu.phase = .fetching := by
  induction h with
  | nil => exact hs.resolve_right (fun hne => hne rfl)
  | @cons s t u n log hstep _ ih =>
    have hphase := Machine.phase_step s
    rw [hstep] at hphase
    exact ih (.inl hphase)

/-! ## Reasons to stop -/

/-- The first of the three reasons for which a run stops, with given cycles and steps behind it. -/
inductive Due (limits : Limits) (cancelled : Bool) (cycles instructions : Nat) : StopReason → Prop
  | cancelled (hcancelled : cancelled = true) : Due limits cancelled cycles instructions .cancelled
  | cycleLimit {bound : Nat} (hcancelled : cancelled = false) (hbound : limits.cycles = some bound)
      (hreached : bound ≤ cycles) : Due limits cancelled cycles instructions .cycleLimit
  | instructionLimit {bound : Nat} (hcancelled : cancelled = false)
      (hcycles : ∀ c, limits.cycles = some c → cycles < c)
      (hbound : limits.instructions = some bound) (hreached : bound ≤ instructions) :
      Due limits cancelled cycles instructions .instructionLimit

section Reasons

variable {limits : Limits} {cancelled : Bool} {cycles instructions : Nat} {stop : StopReason}

lemma stopReason?_eq_some_iff :
    stopReason? limits cancelled cycles instructions = some stop ↔
      Due limits cancelled cycles instructions stop := by
  have reached (limit : Option Nat) (n : Nat) :
      limit.any (· ≤ n) = true ↔ ∃ bound, limit = some bound ∧ bound ≤ n := by
    simp [Option.any_eq_true]
  unfold stopReason?
  constructor
  · intro h
    split at h
    · cases h
      exact .cancelled ‹_›
    · rename_i hcancelled
      rw [Bool.not_eq_true] at hcancelled
      split at h
      · rename_i hcycles
        cases h
        obtain ⟨bound, hbound, hreached⟩ := (reached _ _).mp hcycles
        exact .cycleLimit hcancelled hbound hreached
      · rename_i hcycles
        split at h
        · rename_i hinstructions
          cases h
          obtain ⟨bound, hbound, hreached⟩ := (reached _ _).mp hinstructions
          refine .instructionLimit hcancelled ?_ hbound hreached
          intro c hc
          by_contra hle
          exact hcycles ((reached _ _).mpr ⟨c, hc, Nat.le_of_not_lt hle⟩)
        · cases h
  · intro h
    cases h with
    | cancelled hcancelled => rw [if_pos hcancelled]
    | cycleLimit hcancelled hbound hreached =>
      rw [if_neg (by simp [hcancelled]), if_pos ((reached _ _).mpr ⟨_, hbound, hreached⟩)]
    | instructionLimit hcancelled hcycles hbound hreached =>
      have hcycles' : ¬ limits.cycles.any (fun bound => decide (bound ≤ cycles)) = true := by
        rw [reached]
        rintro ⟨c, hc, hle⟩
        exact absurd (hcycles c hc) (Nat.not_lt_of_le hle)
      rw [if_neg (by simp [hcancelled]), if_neg hcycles',
        if_pos ((reached _ _).mpr ⟨_, hbound, hreached⟩)]

lemma stopReason?_eq_none_iff :
    stopReason? limits cancelled cycles instructions = none ↔
      ∀ stop, ¬ Due limits cancelled cycles instructions stop := by
  rw [Option.eq_none_iff_forall_not_mem]
  exact forall_congr' fun stop => not_congr stopReason?_eq_some_iff

lemma exists_due_iff :
    (∃ stop, Due limits cancelled cycles instructions stop) ↔
      cancelled = true ∨ (∃ bound, limits.cycles = some bound ∧ bound ≤ cycles) ∨
        ∃ bound, limits.instructions = some bound ∧ bound ≤ instructions := by
  constructor
  · rintro ⟨stop, hdue⟩
    cases hdue with
    | cancelled hcancelled => exact .inl hcancelled
    | cycleLimit _ hbound hreached => exact .inr (.inl ⟨_, hbound, hreached⟩)
    | instructionLimit _ _ hbound hreached => exact .inr (.inr ⟨_, hbound, hreached⟩)
  · intro h
    by_cases hcancelled : cancelled = true
    · exact ⟨_, .cancelled hcancelled⟩
    · rw [Bool.not_eq_true] at hcancelled
      by_cases hcycles : ∃ bound, limits.cycles = some bound ∧ bound ≤ cycles
      · obtain ⟨bound, hbound, hreached⟩ := hcycles
        exact ⟨_, .cycleLimit hcancelled hbound hreached⟩
      · obtain h | h | ⟨bound, hbound, hreached⟩ := h
        · exact absurd h (by simp [hcancelled])
        · exact absurd h hcycles
        · refine ⟨_, .instructionLimit hcancelled (fun c hc => ?_) hbound hreached⟩
          exact Nat.lt_of_not_le fun hle => hcycles ⟨c, hc, hle⟩

end Reasons

/-- Whether a run stops for a reason after given steps. -/
def DueAfter (limits : Limits) (o : Observer σ) (observation : σ) (log : List Stride)
    (stop : StopReason) : Prop :=
  Due limits (o.cancelled (o.follow observation log)) (cost log) log.length stop

/-- Whether a run goes on to the end of given steps: nothing stops it after fewer. -/
def Proceeds (limits : Limits) (o : Observer σ) (observation : σ) (log : List Stride) : Prop :=
  ∀ j < log.length, ∀ stop, ¬ DueAfter limits o observation (log.take j) stop

/-- The end of a run, with the steps that it took: it stops for a reason, or the next step fails. -/
inductive Ends (limits : Limits) (o : Observer σ) (observation : σ) (s : Machine M) :
    List Stride → Outcome σ M → Prop
  | stops {log : List Stride} {last : Machine M} {stop : StopReason} (hsteps : Steps s log last)
      (hproceeds : Proceeds limits o observation log)
      (hdue : DueAfter limits o observation log stop) :
      Ends limits o observation s log
        ⟨.ok ⟨cost log, log.length, stop⟩, o.follow observation log, last⟩
  | fails {log : List Stride} {last after : Machine M} {e : Fault} (hsteps : Steps s log last)
      (hproceeds : Proceeds limits o observation log)
      (hundue : ∀ stop, ¬ DueAfter limits o observation log stop)
      (hstep : last.step = (.error e, after)) :
      Ends limits o observation s log ⟨.error e, o.follow observation log, after⟩

/-! ## The loop -/

variable {limits : Limits} {o : Observer σ} {observation : σ} {r : Outcome σ M}

lemma Proceeds.concat (h : Proceeds limits o observation log)
    (hundue : ∀ stop, ¬ DueAfter limits o observation log stop) (x : Stride) :
    Proceeds limits o observation (log ++ [x]) := by
  intro j hj
  rw [List.length_append, List.length_singleton] at hj
  rcases Nat.lt_succ_iff_lt_or_eq.mp hj with hlt | rfl
  · rw [List.take_append_of_le_length (Nat.le_of_lt hlt)]
    exact h j hlt
  · rw [List.take_left]
    exact hundue

lemma Steps.cycles_sub (h : Steps s log t) : t.cpu.cycles - s.cpu.cycles = cost log := by
  rw [h.cycles_eq, Nat.add_sub_cancel_left]

/-- The outcome of a loop that has come some steps far ends the run. -/
lemma exists_ends_of_loop {n : Nat} (hsteps : Steps s log t)
    (hproceeds : Proceeds limits o observation log)
    (h : loop limits o s.cpu.cycles n log.length (o.follow observation log) t = some r) :
    ∃ log', Ends limits o observation s log' r ∧ log'.length < log.length + n := by
  induction n generalizing log t with
  | zero => cases h
  | succ n ih =>
    rw [loop] at h
    dsimp only at h
    rw [hsteps.cycles_sub] at h
    split at h
    · rename_i stop hstop
      cases h
      exact ⟨log, .stops hsteps hproceeds (stopReason?_eq_some_iff.mp hstop), by omega⟩
    · rename_i hstop
      have hundue : ∀ stop, ¬ DueAfter limits o observation log stop :=
        stopReason?_eq_none_iff.mp hstop
      split at h
      · rename_i e after hstep
        cases h
        exact ⟨log, .fails hsteps hproceeds hundue hstep, by omega⟩
      · rename_i k after hstep
        have hlength : log.length + 1 = (log ++ [(⟨k, after.cpu⟩ : Stride)]).length := by
          rw [List.length_append, List.length_singleton]
        rw [← Observer.follow_concat o observation log ⟨k, after.cpu⟩, hlength] at h
        obtain ⟨log', hends, hlt⟩ :=
          ih (hsteps.append (.cons hstep (.nil after))) (hproceeds.concat hundue _) h
        exact ⟨log', hends, by omega⟩

/-- A run that nothing stops on given steps comes to where they lead. -/
lemma loop_eq_of_proceeds {n : Nat} (hsteps : Steps s log t) (hrest : Steps t log' u)
    (hproceeds : Proceeds limits o observation (log ++ log')) :
    loop limits o s.cpu.cycles (n + log'.length) log.length (o.follow observation log) t =
      loop limits o s.cpu.cycles n (log ++ log').length (o.follow observation (log ++ log')) u := by
  induction hrest generalizing log with
  | nil => rw [List.append_nil, List.length_nil, Nat.add_zero]
  | @cons t v u k log' hstep hrest ih =>
    have hundue : ∀ stop, ¬ DueAfter limits o observation log stop := by
      have h := hproceeds log.length (by simp)
      rwa [List.take_left] at h
    rw [List.append_cons] at hproceeds ⊢
    rw [← ih (hsteps.append (.cons hstep (.nil v))) hproceeds, List.length_cons, ← Nat.add_assoc,
      loop]
    dsimp only
    rw [hsteps.cycles_sub, stopReason?_eq_none_iff.mpr hundue]
    dsimp only
    rw [hstep, Observer.follow_concat, List.length_append, List.length_singleton]

/-- **A loop has the outcomes that end the run** within its fuel, and no others. -/
theorem loop_eq_some_iff {n : Nat} :
    loop limits o s.cpu.cycles n 0 observation s = some r ↔
      ∃ log, Ends limits o observation s log r ∧ log.length < n := by
  constructor
  · intro h
    obtain ⟨log, hends, hlt⟩ := exists_ends_of_loop (.nil s) nofun h
    exact ⟨log, hends, by simpa using hlt⟩
  · rintro ⟨log, hends, hlt⟩
    obtain ⟨k, rfl⟩ : ∃ k, n = k + 1 + log.length := ⟨n - log.length - 1, by omega⟩
    have reach {t : Machine M} (hsteps : Steps s log t)
        (hproceeds : Proceeds limits o observation log) :
        loop limits o s.cpu.cycles (k + 1 + log.length) 0 observation s =
          loop limits o s.cpu.cycles (k + 1) log.length (o.follow observation log) t :=
      loop_eq_of_proceeds (.nil s) hsteps hproceeds
    cases hends with
    | stops hsteps hproceeds hdue =>
      rw [reach hsteps hproceeds, loop]
      dsimp only
      rw [hsteps.cycles_sub, stopReason?_eq_some_iff.mpr hdue]
    | fails hsteps hproceeds hundue hstep =>
      rw [reach hsteps hproceeds, loop]
      dsimp only
      rw [hsteps.cycles_sub, stopReason?_eq_none_iff.mpr hundue]
      dsimp only
      rw [hstep]

/-! ## Where a run ends -/

/-- A run that cannot go on for more than a number of steps has an end. -/
lemma exists_ends_of_bounded {n k : Nat}
    (hbounded : ∀ log t, Steps s log t → n ≤ log.length →
      ∃ stop, DueAfter limits o observation log stop)
    (hsteps : Steps s log t) (hproceeds : Proceeds limits o observation log)
    (hn : n ≤ log.length + k) : ∃ log r, Ends limits o observation s log r := by
  -- `k` bounds the steps that are still to come
  induction k generalizing log t with
  | zero =>
    obtain ⟨stop, hdue⟩ := hbounded log t hsteps hn
    exact ⟨_, _, .stops hsteps hproceeds hdue⟩
  | succ k ih =>
    by_cases hdue : ∃ stop, DueAfter limits o observation log stop
    · obtain ⟨stop, hdue⟩ := hdue
      exact ⟨_, _, .stops hsteps hproceeds hdue⟩
    · rw [not_exists] at hdue
      rcases hstep : t.step with ⟨_ | n, after⟩
      · exact ⟨_, _, .fails hsteps hproceeds hdue hstep⟩
      · refine ih (hsteps.append (.cons hstep (.nil after))) (hproceeds.concat hdue _) ?_
        rw [List.length_append, List.length_singleton]
        omega

/-- A limit is reached after as many steps, since each of them takes a cycle at least. -/
lemma Steps.exists_due_of_le {bound : Nat} (hsteps : Steps s log t)
    (hbound : limits.cycles = some bound ∨ limits.instructions = some bound)
    (hle : bound ≤ log.length) : ∃ stop, DueAfter limits o observation log stop := by
  refine exists_due_iff.mpr (.inr ?_)
  exact hbound.imp (fun h => ⟨bound, h, Nat.le_trans hle hsteps.length_le_cost⟩)
    fun h => ⟨bound, h, hle⟩

/-- With a limit a run has an end. -/
lemma exists_ends_of_limit (hlimit : limits.cycles.isSome ∨ limits.instructions.isSome) :
    ∃ log r, Ends limits o observation s log r := by
  obtain ⟨bound, hbound⟩ :
      ∃ bound, limits.cycles = some bound ∨ limits.instructions = some bound := by
    rw [exists_or, ← Option.isSome_iff_exists, ← Option.isSome_iff_exists]
    exact hlimit
  exact exists_ends_of_bounded (n := bound) (k := bound)
    (fun log t hsteps hle => hsteps.exists_due_of_le hbound hle) (.nil s) nofun
    (Nat.le_add_left _ _)

lemma Ends.exists_steps (h : Ends limits o observation s log r) :
    ∃ t, Steps s log t ∧ Proceeds limits o observation log := by
  cases h with
  | stops hsteps hproceeds => exact ⟨_, hsteps, hproceeds⟩
  | fails hsteps hproceeds => exact ⟨_, hsteps, hproceeds⟩

/-- A run takes no more steps than its limits allow. -/
lemma Ends.length_le {bound : Nat} (h : Ends limits o observation s log r)
    (hbound : limits.cycles = some bound ∨ limits.instructions = some bound) :
    log.length ≤ bound := by
  obtain ⟨t, hsteps, hproceeds⟩ := h.exists_steps
  refine Nat.le_of_not_lt fun hlt => ?_
  obtain ⟨u, hsteps'⟩ := hsteps.take bound
  obtain ⟨stop, hdue⟩ := hsteps'.exists_due_of_le (o := o) (s := s) hbound
    (Nat.le_of_eq (List.length_take_of_le (Nat.le_of_lt hlt)).symm)
  exact hproceeds bound hlt stop hdue

/-- With a limit there is fuel for every run, and without one for as many steps as can be
counted. -/
lemma Ends.lt_fuel_iff (h : Ends limits o observation s log r) :
    log.length < fuel limits ↔ (limits = ⟨none, none⟩ → log.length < countBound) := by
  rcases limits with ⟨_ | c, _ | i⟩
  · exact ⟨fun hlt _ => hlt, fun hlt => hlt rfl⟩
  · have hi := h.length_le (.inr rfl)
    exact iff_of_true (Nat.lt_succ_of_le hi) nofun
  · have hc := h.length_le (.inl rfl)
    exact iff_of_true (Nat.lt_succ_of_le hc) nofun
  · have hc := h.length_le (.inl rfl)
    have hi := h.length_le (.inr rfl)
    exact iff_of_true (Nat.lt_succ_of_le (Nat.le_min.mpr ⟨hc, hi⟩)) nofun

/-- **A run has the outcomes that end it**, and no others.  Without a limit its steps must not be
too many to be counted. -/
theorem observed_eq_some_iff :
    observed limits o observation s = some r ↔ ∃ log, Ends limits o observation s log r ∧
      (limits = ⟨none, none⟩ → log.length < countBound) := by
  rw [observed, loop_eq_some_iff]
  exact exists_congr fun log => and_congr_right fun hends => hends.lt_fuel_iff

lemma observed_eq_some_iff_of_limit (hlimit : limits.cycles.isSome ∨ limits.instructions.isSome) :
    observed limits o observation s = some r ↔ ∃ log, Ends limits o observation s log r := by
  have hne : limits ≠ ⟨none, none⟩ := by
    rintro rfl
    exact absurd hlimit (by decide)
  rw [observed_eq_some_iff]
  exact exists_congr fun log => and_iff_left fun h => absurd h hne

/-- Only the last step of a run can pass its limit of cycles. -/
lemma Steps.cost_lt_of_proceeds {bound : Nat} (hsteps : Steps s log t) (hne : log ≠ [])
    (hproceeds : Proceeds limits o observation log) (hbound : limits.cycles = some bound) :
    cost log < bound + Machine.longestStep := by
  obtain ⟨init, x, rfl⟩ := log.eq_nil_or_concat'.resolve_left hne
  have hundue := hproceeds init.length (by simp)
  rw [List.take_left, ← not_exists] at hundue
  have hlt : cost init < bound :=
    Nat.lt_of_not_le fun hle => hundue (exists_due_iff.mpr (.inr (.inl ⟨bound, hbound, hle⟩)))
  have hx := (hsteps.cost_mem x (by simp)).2
  rw [cost_append, cost_cons, cost_nil]
  omega

lemma Ends.cycles_le (h : Ends limits o observation s log r) :
    r.machine.cpu.cycles ≤ s.cpu.cycles + cost log + Machine.longestStep := by
  cases h with
  | stops hsteps => exact Nat.le_add_right_of_le (Nat.le_of_eq hsteps.cycles_eq)
  | @fails last after e hsteps hproceeds hundue hstep =>
    have hle := last.cycles_step_le
    rwa [hstep, hsteps.cycles_eq] at hle

/-- **64 bits suffice for the counts of a run** if they have room for its limit: for the steps that
it allows, with seven cycles each, or for the cycles that it allows, and in either case for one step
more. -/
theorem Ends.counts_lt {bound : Nat} (h : Ends limits o observation s log r)
    (hroom : limits.instructions = some bound ∧
        s.cpu.cycles + Machine.longestStep * bound + Machine.longestStep < countBound ∨
      limits.cycles = some bound ∧
        s.cpu.cycles + (bound + Machine.longestStep) + Machine.longestStep < countBound) :
    r.machine.cpu.cycles < countBound ∧
      ∀ report, r.result = .ok report →
        report.cycles < countBound ∧ report.instructions < countBound := by
  obtain ⟨t, hsteps, hproceeds⟩ := h.exists_steps
  have hcost : s.cpu.cycles + cost log + Machine.longestStep < countBound := by
    rcases hroom with ⟨hbound, hroom⟩ | ⟨hbound, hroom⟩
    · have hmul := Nat.mul_le_mul_left Machine.longestStep (h.length_le (.inr hbound))
      have hle := hsteps.cost_le
      omega
    · rcases log.eq_nil_or_concat' with rfl | ⟨init, x, hlog⟩
      · rw [cost_nil]
        omega
      · have hlt := hsteps.cost_lt_of_proceeds (hlog ▸ List.concat_ne_nil x init) hproceeds hbound
        omega
  refine ⟨Nat.lt_of_le_of_lt h.cycles_le hcost, fun report hreport => ?_⟩
  have hle := hsteps.length_le_cost
  cases h with
  | fails => cases hreport
  | stops =>
    obtain rfl := Except.ok.inj hreport
    exact ⟨by dsimp only; omega, by dsimp only; omega⟩

lemma Ends.phase_eq (h : Ends limits o observation s log r)
    (hs : s.cpu.phase = .fetching ∨ log ≠ []) : r.machine.cpu.phase = .fetching := by
  cases h with
  | stops hsteps => exact hsteps.phase_eq hs
  | @fails last after e hsteps hproceeds hundue hstep =>
    have hphase := last.phase_step
    rwa [hstep] at hphase

lemma Ends.cycles_mem {n k : Nat} (h : Ends limits o observation s log r)
    (hresult : r.result = .ok ⟨n, k, .cycleLimit⟩) (hk : 0 < k) :
    ∃ bound, limits.cycles = some bound ∧ bound ≤ n ∧ n < bound + Machine.longestStep := by
  cases h with
  | fails => cases hresult
  | stops hsteps hproceeds hdue =>
    obtain ⟨rfl, rfl, rfl⟩ := Report.mk.inj (Except.ok.inj hresult)
    cases hdue with
    | cycleLimit _ hbound hreached =>
      have hlt := hsteps.cost_lt_of_proceeds (List.ne_nil_of_length_pos hk) hproceeds hbound
      exact ⟨_, hbound, hreached, hlt⟩

/-- **The course of a run.**  Going on for as long as it takes, it has the outcome that ends it, if
one does: after the fewest steps where it is cancelled, has used up its cycles or has used up its
steps, or with the failure of a step before that.  With a limit it has an end, and without one the
end is found if its steps can be counted.  Each step takes one cycle at least and seven at most, so
that a run passes its limit of cycles by less than seven; and it leaves the processor between two
instructions if it found it there or took a step. -/
theorem course (limits : Limits) (o : Observer σ) (observation : σ) (s : Machine M) :
    (∀ r, (∃ n, loop limits o s.cpu.cycles n 0 observation s = some r) ↔
      ∃ log, Ends limits o observation s log r) ∧
    (∀ r, observed limits o observation s = some r ↔
      ∃ log, Ends limits o observation s log r ∧
        (limits = ⟨none, none⟩ → log.length < countBound)) ∧
    (limits.cycles.isSome ∨ limits.instructions.isSome →
      ∃ r, observed limits o observation s = some r) ∧
    ∀ log r, Ends limits o observation s log r →
      (∀ x ∈ log, 0 < x.cost ∧ x.cost ≤ 7) ∧
      (∀ n k, r.result = .ok ⟨n, k, .cycleLimit⟩ → 0 < k →
        ∃ bound, limits.cycles = some bound ∧ bound ≤ n ∧ n < bound + 7) ∧
      (s.cpu.atBoundary ∨ log ≠ [] → r.machine.cpu.atBoundary) := by
  refine ⟨fun r => ?_, fun r => observed_eq_some_iff, fun hlimit => ?_,
    fun log r hends => ⟨?_, ?_, ?_⟩⟩
  · simp only [loop_eq_some_iff]
    constructor
    · rintro ⟨n, log, hends, -⟩
      exact ⟨log, hends⟩
    · rintro ⟨log, hends⟩
      exact ⟨log.length + 1, log, hends, Nat.lt_succ_self _⟩
  · obtain ⟨log, r, hends⟩ : ∃ log r, Ends limits o observation s log r :=
      exists_ends_of_limit hlimit
    exact ⟨r, (observed_eq_some_iff_of_limit hlimit).mpr ⟨log, hends⟩⟩
  · obtain ⟨t, hsteps, -⟩ := hends.exists_steps
    exact hsteps.cost_mem
  · exact fun n k hresult hk => hends.cycles_mem hresult hk
  · rw [Cpu.atBoundary_iff, Cpu.atBoundary_iff]
    exact hends.phase_eq

/-! ### A run with a limit -/

/-- Someone who keeps the numbers that they are told, the latest first. -/
def Observer.counting : Observer (List Nat) :=
  ⟨fun _ => false, fun told _ n => n :: told⟩

/-- A machine that jumps to where it stands. -/
def spinning : Machine MemoryMap where
  cpu := { registers := { pc := 0xC000 } }
  memory :=
    ⟨[.backed (.ram (.ofBytes "program" 0xC000 ⟨#[0x18, 0xFE]⟩ .readWrite)),
      .backed (.ram (.ofBytes "if" 0xFF0F ⟨#[0x00]⟩ .readWrite)),
      .backed (.ram (.ofBytes "ie" 0xFFFF ⟨#[0x00]⟩ .readWrite))], {}⟩

/-- The machine after a number of jumps. -/
def spun : Nat → Machine MemoryMap
  | 0 => spinning
  | n + 1 => (spun n).step.2

/-- Its first three jumps. -/
def jumps : List Stride :=
  [⟨4, (spun 1).cpu⟩, ⟨4, (spun 2).cpu⟩, ⟨4, (spun 3).cpu⟩]

/-- With a limit of ten cycles it jumps three times and is two cycles late. -/
theorem spinning_course :
    Ends ⟨some 10, none⟩ .counting [] spinning jumps
        ⟨.ok ⟨12, 3, .cycleLimit⟩, [3, 2, 1], spun 3⟩ ∧
      observed ⟨some 10, none⟩ .counting [] spinning =
        some ⟨.ok ⟨12, 3, .cycleLimit⟩, [3, 2, 1], spun 3⟩ ∧
      12 < 10 + 7 ∧ spinning.cpu.atBoundary ∧ (spun 3).cpu.atBoundary := by
  have hsteps : Steps spinning jumps (spun 3) := by
    refine .cons (Prod.ext ?_ rfl) (.cons (Prod.ext ?_ rfl) (.cons (Prod.ext ?_ rfl) (.nil _)))
    all_goals decide +kernel
  have hends : Ends ⟨some 10, none⟩ .counting [] spinning jumps
      ⟨.ok ⟨12, 3, .cycleLimit⟩, [3, 2, 1], spun 3⟩ := by
    refine .stops hsteps (fun j hj => ?_) (stopReason?_eq_some_iff.mp rfl)
    match j, hj with
    | 0, _ => exact stopReason?_eq_none_iff.mp rfl
    | 1, _ => exact stopReason?_eq_none_iff.mp rfl
    | 2, _ => exact stopReason?_eq_none_iff.mp rfl
  obtain ⟨-, hiff, -, hcourse⟩ := course ⟨some 10, none⟩ .counting [] spinning
  obtain ⟨-, hlate, hboundary⟩ := hcourse jumps _ hends
  obtain ⟨bound, hbound, -, hlt⟩ := hlate 12 3 rfl (by decide)
  obtain rfl := Option.some.inj hbound
  exact ⟨hends, (hiff _).mpr ⟨jumps, hends, nofun⟩, hlt, rfl, hboundary (.inl rfl)⟩

end Run

end Handheld
