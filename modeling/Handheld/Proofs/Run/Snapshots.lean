/-
# Snapshots of a run

An observer that never cancels changes nothing about a run, so a run that leaves snapshots ends as
the unobserved run does.  Its queue holds what was offered first, as far as there is room: a
snapshot every so many steps, each of the machine that so many steps leave, and one at the end.  The
main statement is `Run.withSnapshots_follows`.  It is about any queue with a capacity from which
snapshots come in the order in which they went in (`SnapshotQueue.Fifo`).
-/
import Mathlib.Data.List.Induction
import Handheld.Proofs.Processor.Restored
import Handheld.Proofs.Run.Course
import Handheld.Run.Snapshots

namespace Handheld

/-! ## Snapshots by the number of steps -/

namespace Machine

open Run (Snapshot)

variable {M : Type} [Memory M]

/-- The snapshot of a machine after a number of steps, with their cycles. -/
def snapshotAfter (s : Machine M) (n : Nat) : Snapshot :=
  ⟨(s.afterSteps n).cpu.registers, (s.afterSteps n).cpu.cycles - s.cpu.cycles, n⟩

/-- The snapshots that are due within a number of steps, one every `interval` of them. -/
def snapshotsWithin (s : Machine M) (interval n : Nat) : List Snapshot :=
  ((List.range' 1 n).filter fun k => interval ≠ 0 ∧ interval ∣ k).map s.snapshotAfter

lemma snapshotsWithin_succ (s : Machine M) (interval n : Nat) :
    s.snapshotsWithin interval (n + 1) =
      s.snapshotsWithin interval n ++
        if interval ≠ 0 ∧ interval ∣ n + 1 then [s.snapshotAfter (n + 1)] else [] := by
  unfold snapshotsWithin
  rw [List.range'_1_concat, Nat.add_comm 1 n, List.filter_append, List.map_append,
    List.filter_singleton]
  by_cases hdue : interval ≠ 0 ∧ interval ∣ n + 1
  · rw [decide_eq_true hdue, if_pos hdue]
    rfl
  · rw [decide_eq_false hdue, if_neg hdue]
    rfl

end Machine

namespace Run

/-! ## Full queues -/

namespace SnapshotQueue

variable {Q : Type} [SnapshotQueue Q]

/-- Whether snapshots come out of queues in the order in which they went in, where `capacity` is the
number that a queue is for; one that is offered to a full queue is dropped. -/
structure Fifo (capacity : Q → Nat) : Prop where
  capacity_bounded (n : Nat) : capacity (bounded n) = n
  snapshots_bounded (n : Nat) : snapshots (bounded n : Q) = []
  capacity_offer (q : Q) (x : Snapshot) : capacity (offer q x) = capacity q
  snapshots_offer {q : Q} (x : Snapshot) (hroom : (snapshots q).length < capacity q) :
    snapshots (offer q x) = snapshots q ++ [x]
  snapshots_drop {q : Q} (x : Snapshot) (hfull : capacity q ≤ (snapshots q).length) :
    snapshots (offer q x) = snapshots q

/-- Whether the queue of a run holds the first of some snapshots, as many as there is room for. -/
structure Holds (capacity : Q → Nat) (q : Q) (offered : List Snapshot) : Prop where
  capacity_eq : capacity q = queueCapacity
  snapshots_eq : snapshots q = offered.take queueCapacity

variable {capacity : Q → Nat} {q : Q} {offered : List Snapshot}

lemma Fifo.holds_bounded (h : Fifo capacity) :
    Holds capacity (bounded queueCapacity) [] :=
  ⟨h.capacity_bounded _, h.snapshots_bounded _⟩

/-- What is offered to a full queue is not among the first. -/
lemma Holds.offer (hq : Holds capacity q offered) (h : Fifo capacity) (x : Snapshot) :
    Holds capacity (offer q x) (offered ++ [x]) := by
  refine ⟨(h.capacity_offer q x).trans hq.capacity_eq, ?_⟩
  have hlength : (snapshots q).length = min queueCapacity offered.length := by
    rw [hq.snapshots_eq, List.length_take]
  by_cases hroom : (snapshots q).length < capacity q
  · have hshort : offered.length < queueCapacity := by
      rw [hq.capacity_eq] at hroom
      omega
    rw [h.snapshots_offer x hroom, hq.snapshots_eq, List.take_of_length_le hshort.le,
      List.take_of_length_le]
    rw [List.length_append, List.length_singleton]
    exact hshort
  · have hfull : capacity q ≤ (snapshots q).length := Nat.le_of_not_lt hroom
    have hlong : queueCapacity ≤ offered.length := by
      rw [hq.capacity_eq] at hfull
      omega
    rw [h.snapshots_drop x hfull, hq.snapshots_eq, List.take_append_of_le_length hlong]

end SnapshotQueue

lemma SnapshotBuffer.fifo : SnapshotQueue.Fifo SnapshotBuffer.capacity where
  capacity_bounded _ := rfl
  snapshots_bounded _ := rfl
  capacity_offer q x := by
    simp only [SnapshotQueue.offer]
    split
    · rfl
    · rfl
  snapshots_offer x hroom := by
    simp only [SnapshotQueue.snapshots, Array.length_toList] at hroom
    simp only [SnapshotQueue.snapshots, SnapshotQueue.offer]
    rw [if_pos hroom, Array.toList_push]
  snapshots_drop x hfull := by
    simp only [SnapshotQueue.snapshots, Array.length_toList] at hfull
    simp only [SnapshotQueue.snapshots, SnapshotQueue.offer]
    rw [if_neg (Nat.not_lt.mpr hfull)]

/-! ## Observers that never cancel -/

variable {σ τ M : Type} [Memory M] {s t : Machine M} {log log' : List Stride} {limits : Limits}
  {o : Observer σ} {o' : Observer τ} {observation : σ} {observation' : τ} {r : Outcome σ M}

/-- An outcome with what another observer has made of the run. -/
def Outcome.observedAs (r : Outcome σ M) (observation : τ) : Outcome τ M :=
  ⟨r.result, observation, r.machine⟩

/-- Whoever follows a run without cancelling it, it ends the same. -/
lemma Ends.observedAs (h : Ends limits o observation s log r) (ho : ∀ x, o.cancelled x = false)
    (ho' : ∀ x, o'.cancelled x = false) :
    Ends limits o' observation' s log (r.observedAs (o'.follow observation' log)) := by
  have hdue (log : List Stride) (stop : StopReason) :
      DueAfter limits o' observation' log stop ↔ DueAfter limits o observation log stop := by
    rw [DueAfter, DueAfter, ho, ho']
  have hproceeds (hproceeds : Proceeds limits o observation log) :
      Proceeds limits o' observation' log :=
    fun j hj stop => mt (hdue _ stop).mp (hproceeds j hj stop)
  cases h with
  | stops hsteps hgo hstop => exact .stops hsteps (hproceeds hgo) ((hdue _ _).mpr hstop)
  | fails hsteps hgo hundue hstep =>
    exact .fails hsteps (hproceeds hgo) (fun stop => mt (hdue _ stop).mp (hundue stop)) hstep

lemma exists_observedAs (ho : ∀ x, o.cancelled x = false) (ho' : ∀ x, o'.cancelled x = false)
    (h : observed limits o observation s = some r) :
    ∃ log, Ends limits o observation s log r ∧
      observed limits o' observation' s =
        some (r.observedAs (o'.follow observation' log)) := by
  obtain ⟨log, hends, hcount⟩ := observed_eq_some_iff.mp h
  exact ⟨log, hends, observed_eq_some_iff.mpr ⟨log, hends.observedAs ho ho', hcount⟩⟩

lemma observed_eq_none_iff (ho : ∀ x, o.cancelled x = false) (ho' : ∀ x, o'.cancelled x = false) :
    observed limits o observation s = none ↔ observed limits o' observation' s = none := by
  rw [Option.eq_none_iff_forall_ne_some, Option.eq_none_iff_forall_ne_some]
  constructor
  · intro h r hr
    obtain ⟨log, -, hobserved⟩ := exists_observedAs ho' ho hr
    exact h _ hobserved
  · intro h r hr
    obtain ⟨log, -, hobserved⟩ := exists_observedAs ho ho' hr
    exact h _ hobserved

/-! ## Steps by their numbers -/

lemma Steps.append_inv (h : Steps s (log ++ log') t) : ∃ u, Steps s log u ∧ Steps u log' t := by
  induction log generalizing s with
  | nil => exact ⟨s, .nil s, h⟩
  | cons x log ih =>
    cases h with
    | cons hstep h =>
      obtain ⟨u, hfirst, hlast⟩ := ih h
      exact ⟨u, .cons hstep hfirst, hlast⟩

lemma Steps.concat_inv {x : Stride} (h : Steps s (log ++ [x]) t) :
    ∃ u, Steps s log u ∧ u.step = (.ok x.cost, t) ∧ x.cpu = t.cpu := by
  obtain ⟨u, hfirst, hlast⟩ := h.append_inv
  cases hlast with
  | cons hstep hnil =>
    cases hnil with
    | nil => exact ⟨u, hfirst, hstep, rfl⟩

/-- Steps lead to the machine after so many of them. -/
lemma Steps.eq_afterSteps (h : Steps s log t) : t = s.afterSteps log.length := by
  induction log using List.reverseRecOn generalizing t with
  | nil =>
    cases h
    rfl
  | append_singleton log x ih =>
    obtain ⟨u, hfirst, hstep, -⟩ := h.concat_inv
    rw [List.length_append, List.length_singleton, Machine.afterSteps, ← ih hfirst, hstep]

/-- None of the steps fails. -/
lemma Steps.step_eq_ok (h : Steps s log t) {k : Nat} (hk : k < log.length) :
    ∃ n, (s.afterSteps k).step.1 = .ok n := by
  induction log using List.reverseRecOn generalizing t with
  | nil => cases hk
  | append_singleton log x ih =>
    obtain ⟨u, hfirst, hstep, -⟩ := h.concat_inv
    rw [List.length_append, List.length_singleton] at hk
    rcases Nat.lt_succ_iff_lt_or_eq.mp hk with hlt | rfl
    · exact ih hfirst hlt
    · exact ⟨x.cost, by rw [← hfirst.eq_afterSteps, hstep]⟩

/-- Whether a run of a machine has come to its outcome in a number of steps: it has stopped after
them or failed at the next one. -/
structure Outcome.Reached (r : Outcome σ M) (s : Machine M) (n : Nat) : Prop where
  step_eq_ok : ∀ k < n, ∃ cost, (s.afterSteps k).step.1 = .ok cost
  of_ok : ∀ report, r.result = .ok report →
    report.instructions = n ∧ report.cycles = (s.afterSteps n).cpu.cycles - s.cpu.cycles ∧
      r.machine = s.afterSteps n
  of_error : ∀ e, r.result = .error e → (s.afterSteps n).step = (.error e, r.machine)

lemma Ends.reached (h : Ends limits o observation s log r) : r.Reached s log.length := by
  cases h with
  | stops hsteps =>
    have hlast := hsteps.eq_afterSteps
    refine ⟨fun k hk => hsteps.step_eq_ok hk, ?_, nofun⟩
    rintro report ⟨⟩
    exact ⟨rfl, hlast ▸ hsteps.cycles_sub.symm, hlast⟩
  | fails hsteps _ _ hstep =>
    refine ⟨fun k hk => hsteps.step_eq_ok hk, nofun, ?_⟩
    rintro e ⟨⟩
    rw [← hsteps.eq_afterSteps, hstep]

/-! ## What is left in the queue -/

variable {Q : Type} [SnapshotQueue Q] {capacity : Q → Nat} {interval : Nat}

open SnapshotQueue (Fifo Holds bounded)

/-- The observer has offered the snapshots that were due. -/
lemma Steps.holds (h : Steps s log t) (hfifo : Fifo capacity) :
    Holds capacity ((snapshotting interval s.cpu.cycles).follow (bounded queueCapacity) log)
      (s.snapshotsWithin interval log.length) := by
  induction log using List.reverseRecOn generalizing t with
  | nil => exact hfifo.holds_bounded
  | append_singleton log x ih =>
    obtain ⟨u, hfirst, -, hcpu⟩ := h.concat_inv
    have hlast := h.eq_afterSteps
    rw [List.length_append, List.length_singleton] at hlast ⊢
    rw [Observer.follow_concat, Machine.snapshotsWithin_succ]
    simp only [snapshotting, Nat.dvd_iff_mod_eq_zero]
    split_ifs
    · rw [hcpu, hlast]
      exact (ih hfirst).offer hfifo _
    · rw [List.append_nil]
      exact ih hfirst

/-- All snapshots of a run that has come to its outcome in a number of steps: those that were due,
and one of the end if it did not fail. -/
def Outcome.published (r : Outcome σ M) (s : Machine M) (interval n : Nat) : List Snapshot :=
  s.snapshotsWithin interval n ++
    match r.result with
    | .ok _ => [s.snapshotAfter n]
    | .error _ => []

lemma Ends.withSnapshots_eq {r : Outcome Unit M} (h : Ends limits .none () s log r)
    (hfifo : Fifo capacity)
    (hobserved :
      observed limits (snapshotting interval s.cpu.cycles) (bounded queueCapacity : Q) s =
        some (r.observedAs
          ((snapshotting interval s.cpu.cycles).follow (bounded queueCapacity) log))) :
    ∃ q, withSnapshots Q limits interval s = some (r.observedAs q) ∧
      Holds capacity q (r.published s interval log.length) := by
  rw [withSnapshots, hobserved]
  cases h with
  | @stops last _ hsteps =>
    have hfinal : s.snapshotAfter log.length = ⟨last.cpu.registers, cost log, log.length⟩ := by
      rw [Machine.snapshotAfter, ← hsteps.eq_afterSteps, hsteps.cycles_sub]
    refine ⟨_, rfl, ?_⟩
    rw [Outcome.published, hfinal]
    exact (hsteps.holds hfifo).offer hfifo _
  | fails hsteps =>
    refine ⟨_, rfl, ?_⟩
    rw [Outcome.published, List.append_nil]
    exact hsteps.holds hfifo

/-- **A run with snapshots ends as the run without.**  It leaves in its queue the first of its
snapshots, as many as there is room for: one every `interval` steps, of the machine that so many
steps leave, and one of the end if it did not fail. -/
theorem withSnapshots_follows (hfifo : Fifo capacity) (limits : Limits) (interval : Nat)
    (s : Machine M) :
    (withSnapshots Q limits interval s = none ↔ unobserved limits s = none) ∧
      ∀ r, unobserved limits s = some r →
        ∃ n q, r.Reached s n ∧ withSnapshots Q limits interval s = some (r.observedAs q) ∧
          SnapshotQueue.snapshots q = (r.published s interval n).take queueCapacity := by
  have hnever : ∀ q : Q, (snapshotting interval s.cpu.cycles).cancelled q = false := fun _ => rfl
  refine ⟨?_, fun r hr => ?_⟩
  · rw [withSnapshots, Option.map_eq_none_iff]
    exact observed_eq_none_iff hnever fun _ => rfl
  · obtain ⟨log, hends, hobserved⟩ := exists_observedAs (fun _ => rfl) hnever hr
    obtain ⟨q, hq, hholds⟩ := hends.withSnapshots_eq hfifo hobserved
    exact ⟨log.length, q, hends.reached, hq, hholds.snapshots_eq⟩

/-- The last snapshot that is due is of the end too, and is taken twice. -/
theorem spinning_withSnapshots_follows :
    ∃ r q, unobserved ⟨none, some 10⟩ spinning = some r ∧
      r.result = .ok ⟨40, 10, .instructionLimit⟩ ∧
      withSnapshots SnapshotBuffer ⟨none, some 10⟩ 5 spinning = some (r.observedAs q) ∧
      q.snapshots.toList =
        [spinning.snapshotAfter 5, spinning.snapshotAfter 10, spinning.snapshotAfter 10] := by
  have hrun : (unobserved ⟨none, some 10⟩ spinning).map (·.result) =
      some (.ok ⟨40, 10, .instructionLimit⟩) := by
    decide +kernel
  obtain ⟨r, hr, hresult⟩ := Option.map_eq_some_iff.mp hrun
  obtain ⟨n, q, hreached, hq, hqueue⟩ :=
    (withSnapshots_follows SnapshotBuffer.fifo ⟨none, some 10⟩ 5 spinning).2 r hr
  obtain ⟨rfl, -, -⟩ := hreached.of_ok _ hresult
  refine ⟨r, q, hr, hresult, hq, hqueue.trans ?_⟩
  rw [Outcome.published, hresult]
  rfl

end Run

end Handheld
