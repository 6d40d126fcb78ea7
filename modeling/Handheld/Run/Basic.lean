/-
# Runs

A run steps a machine until it is cancelled or a limit is reached.  Both are looked at between
steps only, so a run ends between instructions.  An observer follows the run from step to step,
and may cancel it.
-/
import Handheld.Processor.Tick

namespace Handheld

namespace Run

/-- Counts of cycles and of instructions are given in 64 bits: they are below this number. -/
def countBound : Nat := 0x10000000000000000

/-- Bounds on a run. -/
structure Limits where
  cycles : Option Nat := none
  instructions : Option Nat := none
deriving DecidableEq, Inhabited

/-- The reasons for which a run stops. -/
inductive StopReason where
  | cancelled
  | cycleLimit
  | instructionLimit
deriving DecidableEq, Inhabited

def StopReason.name : StopReason → String
  | cancelled => "Cancelled"
  | cycleLimit => "CycleLimit"
  | instructionLimit => "InstructionLimit"

/-- What a run has done: its machine cycles and its steps, both below `countBound`
(`Ends.counts_lt`), and why it stopped. -/
structure Report where
  cycles : Nat
  instructions : Nat
  stop : StopReason
deriving DecidableEq

/-- Someone who follows a run: told the processor and the number of steps after each step, and
asked before each whether to stop. -/
structure Observer (σ : Type) where
  cancelled : σ → Bool
  observe : σ → Cpu → Nat → σ

/-- The end of a run. -/
structure Outcome (σ M : Type) where
  result : Except Fault Report
  observation : σ
  machine : Machine M

/-- Why a run stops after given cycles and steps, if it does. -/
def stopReason? (limits : Limits) (cancelled : Bool) (cycles instructions : Nat) :
    Option StopReason :=
  if cancelled then some .cancelled
  else if limits.cycles.any (· ≤ cycles) then some .cycleLimit
  else if limits.instructions.any (· ≤ instructions) then some .instructionLimit
  else none

variable {σ M : Type} [Memory M]

/-- Go on with a run that started at cycle `start` and has done `done` steps, for at most `fuel`
looks at the limits; without a result, fuel was too little. -/
def loop (limits : Limits) (o : Observer σ) (start : Nat) :
    (fuel done : Nat) → σ → Machine M → Option (Outcome σ M)
  | 0, _, _, _ => none
  | fuel + 1, done, observation, machine =>
    let cycles := machine.cpu.cycles - start
    match stopReason? limits (o.cancelled observation) cycles done with
    | some stop => some ⟨.ok ⟨cycles, done, stop⟩, observation, machine⟩
    | none =>
      match machine.step with
      | (.error e, machine) => some ⟨.error e, observation, machine⟩
      | (.ok _, machine) =>
        let observation := o.observe observation machine.cpu (done + 1)
        loop limits o start fuel (done + 1) observation machine

/-- Enough fuel for every run with a limit, since each step takes a cycle at least; for a run
without one, enough for as many steps as can be counted. -/
def fuel (limits : Limits) : Nat :=
  match limits.cycles, limits.instructions with
  | some c, some i => min c i + 1
  | some c, none => c + 1
  | none, some i => i + 1
  | none, none => countBound

/-- Run a machine with an observer. -/
def observed (limits : Limits) (o : Observer σ) (observation : σ) (machine : Machine M) :
    Option (Outcome σ M) :=
  loop limits o machine.cpu.cycles (fuel limits) 0 observation machine

/-- Nobody. -/
def Observer.none : Observer Unit :=
  ⟨fun _ => false, fun _ _ _ => ()⟩

/-- Run a machine unobserved. -/
def unobserved (limits : Limits) (machine : Machine M) : Option (Outcome Unit M) :=
  observed limits .none () machine

end Run

end Handheld
