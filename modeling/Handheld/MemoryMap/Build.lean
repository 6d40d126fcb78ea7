/-
# Building maps

A map is built from regions in any order.  They are sorted by their first addresses and must not
overlap; a complete map must also cover every address.
-/
import Handheld.MemoryMap.Basic

namespace Handheld.MemoryMap

/-- The regions in the order of their first addresses; regions that start together keep their
order. -/
def sortRegions (regions : List Region) : List Region :=
  regions.mergeSort fun r s => r.start ≤ s.start

/-- The first region that starts before the one in front of it has ended, as an error. -/
def overlap? : List Region → Option MapError
  | r :: s :: regions =>
    if s.start.toNat < r.stop then some (.overlap s.start r.name s.name)
    else overlap? (s :: regions)
  | _ => none

/-- The first address from `expected` on that no region covers, if the space ends later. -/
def gap? (expected : Nat) : List Region → Option Nat
  | [] => if expected = 0x10000 then none else some expected
  | r :: regions => if r.start.toNat = expected then gap? r.stop regions else some expected

/-- A map that may leave addresses uncovered. -/
def buildSparse (regions : List Region) (board : Board := {}) : Except MapError MemoryMap :=
  let regions := sortRegions regions
  match overlap? regions with
  | some e => .error e
  | none => .ok { regions, board }

/-- A map that covers every address. -/
def build (regions : List Region) (board : Board := {}) : Except MapError MemoryMap := do
  let m ← buildSparse regions board
  match gap? 0 m.regions with
  | some a => .error (.gap a)
  | none => .ok m

end Handheld.MemoryMap
