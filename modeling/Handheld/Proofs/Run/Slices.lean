/-
# Runs in slices

Nothing passes from one step of a run to the next but the machine, so a run may be cut between any
two of its steps.  A run that goes on where another stopped ends as a single run ends whose limits
count from the start of the first (`Run.Ends.after`), and a run that fails fails under wider limits
too (`Run.Ends.widen`).  Together these make two runs one (`Run.exists_slices`); the main result,
`Run.slices_eq_whole`, says so of a limit of steps and of a limit of cycles.
-/
import Handheld.Proofs.Run.Course

namespace Handheld

namespace Run

variable {M : Type}

/-- Limits on what follows given cycles and steps, counted from the start of these. -/
def Limits.after (limits : Limits) (cycles instructions : Nat) : Limits :=
  ⟨limits.cycles.map (cycles + ·), limits.instructions.map (instructions + ·)⟩

/-- What two runs have done together, of which the second started where the first stopped. -/
def Report.andThen (first last : Report) : Report :=
  ⟨first.cycles + last.cycles, first.instructions + last.instructions, last.stop⟩

/-- The outcome of two runs together, for the report of the first and the outcome of the second. -/
def Outcome.after (last : Outcome Unit M) (first : Report) : Outcome Unit M :=
  { last with result := last.result.map first.andThen }

variable [Memory M]

/-- Run on from the end of a run under other limits, and report on both runs together.  A run that
failed stays as it is. -/
def Outcome.goOn (limits : Limits) (first : Outcome Unit M) : Option (Outcome Unit M) :=
  match first.result with
  | .error _ => some first
  | .ok report => (unobserved limits first.machine).map (·.after report)

variable {limits wide : Limits} {s t : Machine M} {log log' : List Stride} {r : Outcome Unit M}

/-! ## A run that goes on -/

lemma Limits.isSome_after {cycles instructions : Nat} :
    (limits.after cycles instructions).cycles.isSome ∨
        (limits.after cycles instructions).instructions.isSome ↔
      limits.cycles.isSome ∨ limits.instructions.isSome := by
  simp [Limits.after]

lemma due_after_iff {cancelled : Bool} {c k cycles instructions : Nat} {stop : StopReason} :
    Due (limits.after c k) cancelled (c + cycles) (k + instructions) stop ↔
      Due limits cancelled cycles instructions stop := by
  have shift (limit : Option Nat) (c n : Nat) :
      (limit.map (c + ·)).any (· ≤ c + n) = limit.any (· ≤ n) := by
    cases limit with
    | none => rfl
    | some bound => simp
  rw [← stopReason?_eq_some_iff, ← stopReason?_eq_some_iff]
  simp only [stopReason?, Limits.after, shift]

/-- Limits that count from the end of steps stop no run before it. -/
lemma Steps.not_due_after {j : Nat} (hsteps : Steps s log t) (hj : j < log.length) :
    ∀ stop, ¬ DueAfter (limits.after (cost log) log.length) .none () (log.take j) stop := by
  -- also a limit of no cycles is not reached before, since the steps left out took some
  have hcost := hsteps.cost_take_lt hj
  rw [← not_exists]
  intro hdue
  obtain h | ⟨bound, hbound, hle⟩ | ⟨bound, hbound, hle⟩ := exists_due_iff.mp hdue
  · cases h
  · obtain ⟨b, -, rfl⟩ := Option.map_eq_some_iff.mp hbound
    omega
  · obtain ⟨b, -, rfl⟩ := Option.map_eq_some_iff.mp hbound
    rw [List.length_take] at hle
    omega

/-- The place after steps that go on, in a run that goes on. -/
lemma dueAfter_append_iff {stop : StopReason} :
    DueAfter (limits.after (cost log) log.length) .none () (log ++ log') stop ↔
      DueAfter limits .none () log' stop := by
  unfold DueAfter
  rw [cost_append, List.length_append]
  exact due_after_iff

lemma Steps.proceeds_append (hsteps : Steps s log t) (hproceeds : Proceeds limits .none () log') :
    Proceeds (limits.after (cost log) log.length) .none () (log ++ log') := by
  intro j hj stop
  rw [List.length_append] at hj
  rcases Nat.lt_or_ge j log.length with hlt | hge
  · rw [List.take_append_of_le_length (Nat.le_of_lt hlt)]
    exact hsteps.not_due_after hlt stop
  · obtain ⟨i, rfl⟩ := Nat.exists_eq_add_of_le hge
    rw [List.take_length_add_append, dueAfter_append_iff]
    exact hproceeds i (by omega) stop

/-- **A run that goes on where steps have led** ends as the whole run does. -/
theorem Ends.after (h : Ends limits .none () t log' r) (hsteps : Steps s log t)
    (stop : StopReason) :
    Ends (limits.after (cost log) log.length) .none () s (log ++ log')
      (r.after ⟨cost log, log.length, stop⟩) := by
  cases h with
  | stops hsteps' hproceeds hdue =>
    have hends := Ends.stops (hsteps.append hsteps') (hsteps.proceeds_append hproceeds)
      (dueAfter_append_iff.mpr hdue)
    rwa [cost_append, List.length_append] at hends
  | fails hsteps' hproceeds hundue hstep =>
    refine .fails (hsteps.append hsteps') (hsteps.proceeds_append hproceeds) (fun stop hdue => ?_)
      hstep
    exact hundue stop (dueAfter_append_iff.mp hdue)

/-! ## A run that fails -/

/-- Limits that stop a run nowhere before other limits do. -/
structure Limits.Within (limits wide : Limits) : Prop where
  cycles : ∀ bound, wide.cycles = some bound → ∃ b ≤ bound, limits.cycles = some b
  instructions :
    ∀ bound, wide.instructions = some bound → ∃ b ≤ bound, limits.instructions = some b

lemma Limits.within_instructions (m n : Nat) :
    Limits.Within ⟨none, some m⟩ ⟨none, some (m + n)⟩ where
  cycles := nofun
  instructions := by
    rintro _ ⟨⟩
    exact ⟨m, Nat.le_add_right m n, rfl⟩

lemma Limits.within_cycles (a b : Nat) :
    Limits.Within ⟨some a, none⟩ ⟨some (a + b), none⟩ where
  cycles := by
    rintro _ ⟨⟩
    exact ⟨a, Nat.le_add_right a b, rfl⟩
  instructions := nofun

lemma Limits.Within.exists_due {cancelled : Bool} {cycles instructions : Nat}
    (h : limits.Within wide) (hdue : ∃ stop, Due wide cancelled cycles instructions stop) :
    ∃ stop, Due limits cancelled cycles instructions stop := by
  rw [exists_due_iff] at hdue ⊢
  obtain hcancelled | ⟨bound, hbound, hle⟩ | ⟨bound, hbound, hle⟩ := hdue
  · exact .inl hcancelled
  · obtain ⟨b, hb, hlimit⟩ := h.cycles bound hbound
    exact .inr (.inl ⟨b, hlimit, Nat.le_trans hb hle⟩)
  · obtain ⟨b, hb, hlimit⟩ := h.instructions bound hbound
    exact .inr (.inr ⟨b, hlimit, Nat.le_trans hb hle⟩)

/-- **A run that fails** fails in the same way under wider limits. -/
theorem Ends.widen {e : Fault} (h : Ends limits .none () s log r) (hfault : r.result = .error e)
    (hwithin : limits.Within wide) : Ends wide .none () s log r := by
  cases h with
  | stops => cases hfault
  | fails hsteps hproceeds hundue hstep =>
    have widen {log : List Stride} (h : ∀ stop, ¬ DueAfter limits .none () log stop) :
        ∀ stop, ¬ DueAfter wide .none () log stop := by
      rw [← not_exists] at h ⊢
      exact fun hdue => h (hwithin.exists_due hdue)
    exact .fails hsteps (fun j hj => widen (hproceeds j hj)) (widen hundue) hstep

/-! ## Two runs and one -/

/-- **Two runs with limits** have the outcome of one, in which the limits of the second count from
the start of the first.  If the first fails it fails under wider limits. -/
theorem exists_slices (limits later : Limits) (s : Machine M)
    (hlimit : limits.cycles.isSome ∨ limits.instructions.isSome)
    (hlater : later.cycles.isSome ∨ later.instructions.isSome) :
    ∃ first : Outcome Unit M, unobserved limits s = some first ∧
      match first.result with
      | .ok report => ∃ whole, first.goOn later = some whole ∧
          unobserved (later.after report.cycles report.instructions) s = some whole
      | .error _ => ∀ wide, limits.Within wide →
          wide.cycles.isSome ∨ wide.instructions.isSome → unobserved wide s = some first := by
  obtain ⟨log, first, hends⟩ : ∃ log r, Ends limits .none () s log r := exists_ends_of_limit hlimit
  refine ⟨first, (observed_eq_some_iff_of_limit hlimit).mpr ⟨log, hends⟩, ?_⟩
  cases hends with
  | fails hsteps hproceeds hundue hstep =>
    intro wide hwithin hwide
    have hends := Ends.fails hsteps hproceeds hundue hstep
    exact (observed_eq_some_iff_of_limit hwide).mpr ⟨log, hends.widen rfl hwithin⟩
  | @stops last stop hsteps hproceeds hdue =>
    obtain ⟨log', r, hnext⟩ : ∃ log' r, Ends later .none () last log' r :=
      exists_ends_of_limit hlater
    have hr : unobserved later last = some r :=
      (observed_eq_some_iff_of_limit hlater).mpr ⟨log', hnext⟩
    refine ⟨r.after ⟨cost log, log.length, stop⟩, ?_, ?_⟩
    · unfold Outcome.goOn
      dsimp only
      rw [hr, Option.map_some]
    · exact (observed_eq_some_iff_of_limit (Limits.isSome_after.mpr hlater)).mpr
        ⟨log ++ log', hnext.after hsteps stop⟩

/-- With a limit of steps alone a run that does not fail takes as many. -/
lemma instructions_eq {m : Nat} {report : Report} (h : unobserved ⟨none, some m⟩ s = some r)
    (hreport : r.result = .ok report) : report.instructions = m := by
  obtain ⟨log, hends⟩ := (observed_eq_some_iff_of_limit (.inr rfl)).mp h
  have hle := hends.length_le (.inr rfl)
  cases hends with
  | fails => cases hreport
  | stops hsteps hproceeds hdue =>
    obtain rfl := Except.ok.inj hreport
    cases hdue with
    | cancelled hcancelled => cases hcancelled
    | cycleLimit _ hbound => cases hbound
    | instructionLimit _ _ hbound hreached =>
      obtain rfl := Option.some.inj hbound
      exact Nat.le_antisymm hle hreached

/-- **A run in slices is one run.**  To run some steps and then some more, or cycles and then more
cycles after those that were taken, has the outcome of the run whose limit is the sum: it leaves
the same machine, and its report is of the cycles and steps of both together.  Where a step fails
they fail alike. -/
theorem slices_eq_whole (s : Machine M) (m n a b : Nat) :
    (∃ first whole, unobserved ⟨none, some m⟩ s = some first ∧
      first.goOn ⟨none, some n⟩ = some whole ∧
      unobserved ⟨none, some (m + n)⟩ s = some whole) ∧
    ∃ first, unobserved ⟨some a, none⟩ s = some first ∧
      match first.result with
      | .ok report => ∃ whole, first.goOn ⟨some b, none⟩ = some whole ∧
          unobserved ⟨some (report.cycles + b), none⟩ s = some whole
      | .error _ => unobserved ⟨some (a + b), none⟩ s = some first := by
  constructor
  · obtain ⟨first, hfirst, hslices⟩ :=
      exists_slices ⟨none, some m⟩ ⟨none, some n⟩ s (.inr rfl) (.inr rfl)
    rcases hresult : first.result with e | report
    · rw [hresult] at hslices
      refine ⟨first, first, hfirst, ?_, hslices _ (Limits.within_instructions m n) (.inr rfl)⟩
      rw [Outcome.goOn, hresult]
    · rw [hresult] at hslices
      obtain ⟨whole, hgoOn, hwhole⟩ := hslices
      rw [instructions_eq hfirst hresult] at hwhole
      exact ⟨first, whole, hfirst, hgoOn, hwhole⟩
  · obtain ⟨first, hfirst, hslices⟩ :=
      exists_slices ⟨some a, none⟩ ⟨some b, none⟩ s (.inl rfl) (.inl rfl)
    refine ⟨first, hfirst, ?_⟩
    rcases hresult : first.result with e | report
    · rw [hresult] at hslices
      exact hslices _ (Limits.within_cycles a b) (.inl rfl)
    · rw [hresult] at hslices
      exact hslices

end Run

end Handheld
