/-
# Snapshots

A run may leave snapshots of the registers in a queue, one every so many steps and one at its
end.  A queue that is full drops what comes later and does not hold the run up.
-/
import Handheld.Run.Basic

namespace Handheld.Run

/-- The registers between two steps of a run, with the run's cycles and steps so far. -/
structure Snapshot where
  registers : Registers
  cycles : Nat
  instructions : Nat
deriving DecidableEq

/-- What a run needs of a queue. -/
class SnapshotQueue (Q : Type) where
  /-- A new queue for a number of snapshots. -/
  bounded : Nat → Q
  /-- Put a snapshot in, or drop it if the queue is full. -/
  offer : Q → Snapshot → Q
  /-- The snapshots that wait in a queue, the first to come out first. -/
  snapshots : Q → List Snapshot

/-- The number of snapshots that the queue of a run is for. -/
def queueCapacity : Nat := 16

/-- The snapshots are taken unless this is given, every so many steps. -/
def standardInterval : Nat := 100000

section Queue

variable {Q : Type} [SnapshotQueue Q]

/-- An observer that takes a snapshot every `interval` steps, or none if that is zero. -/
def snapshotting (interval start : Nat) : Observer Q where
  cancelled _ := false
  observe q cpu n :=
    if interval ≠ 0 ∧ n % interval = 0 then
      SnapshotQueue.offer q ⟨cpu.registers, cpu.cycles - start, n⟩
    else q

variable (Q) {M : Type} [Memory M]

/-- Run a machine and leave snapshots in a new queue that nobody empties; the last is of the end of
a run that did not fail. -/
def withSnapshots (limits : Limits) (interval : Nat) (machine : Machine M) :
    Option (Outcome Q M) :=
  let queue : Q := SnapshotQueue.bounded queueCapacity
  (observed limits (snapshotting interval machine.cpu.cycles) queue machine).map fun r =>
    match r.result with
    | .ok report =>
      let last := ⟨r.machine.cpu.registers, report.cycles, report.instructions⟩
      { r with observation := SnapshotQueue.offer r.observation last }
    | .error _ => r

end Queue

/-- A queue held in memory. -/
structure SnapshotBuffer where
  capacity : Nat
  snapshots : Array Snapshot := #[]
deriving DecidableEq

instance : SnapshotQueue SnapshotBuffer where
  bounded n := { capacity := n }
  offer q s :=
    if q.snapshots.size < q.capacity then { q with snapshots := q.snapshots.push s } else q
  snapshots q := q.snapshots.toList

end Handheld.Run
