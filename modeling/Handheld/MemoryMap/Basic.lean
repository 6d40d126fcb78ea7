/-
# Memory maps

A map divides the address space among regions: sections, and remaps, which answer at other
addresses of the same map.  A map is a memory: it sends each access to the section that owns the
address, after following remaps, and checks the section's access rule.
-/
import Handheld.Section.Basic

namespace Handheld

/-- A stretch of the address space that answers at other addresses of the same map. -/
structure Remap where
  name : String
  start : Address
  length : Nat
  target : Address
deriving DecidableEq

/-- The address that a remap sends an address to. -/
def Remap.translate (r : Remap) (a : Address) : Address :=
  r.target + (a - r.start)

/-- A stretch of the address space in a map. -/
inductive Region where
  | backed (s : Section)
  | remap (r : Remap)

namespace Region

def name : Region → String
  | backed s => s.name
  | remap r => r.name

def start : Region → Address
  | backed s => s.start
  | remap r => r.start

def length : Region → Nat
  | backed s => s.length
  | remap r => r.length

/-- One past the last address. -/
def stop (r : Region) : Nat :=
  r.start.toNat + r.length

/-- Whether an address is in the region. -/
def owns (r : Region) (a : Address) : Bool :=
  r.start ≤ a && a.toNat < r.stop

end Region

/-- Regions in the order of their addresses, with the board that their sections share. -/
structure MemoryMap where
  regions : List Region
  board : Board := {}

namespace MemoryMap

/-- The region that an address lies in. -/
def owner? (regions : List Region) (a : Address) : Option Region :=
  regions.find? (·.owns a)

/-- Follow remaps from an address, over at most `hops` regions, to a section. -/
def follow (regions : List Region) : (hops : Nat) → Address → Option (Section × Address)
  | 0, _ => none
  | hops + 1, a =>
    match owner? regions a with
    | none => none
    | some (.backed s) => some (s, a)
    | some (.remap r) => follow regions hops (r.translate a)

/-- The section that answers at an address, with the address it answers at.  A chain of remaps
longer than the list of regions would go round for ever. -/
def resolve (m : MemoryMap) (a : Address) : Option (Section × Address) :=
  follow m.regions (m.regions.length + 1) a

/-- The place of the region that an address lies in.  In the order of their first addresses it is
the last of the regions that start at the address or before it. -/
def indexOf (regions : List Region) (a : Address) : Option Nat :=
  match regions.findIdx (a < ·.start) with
  | 0 => none
  | i + 1 =>
    match regions[i]? with
    | some r => if a.toNat < r.stop then some i else none
    | none => none

/-- The name of the region that an address lies in, before any remap. -/
def regionName (m : MemoryMap) (a : Address) : Option String :=
  match indexOf m.regions a with
  | some i => m.regions[i]?.map Region.name
  | none => none

/-- Write to the section that an address lies in, whatever its access rule. -/
def put (board : Board) (a : Address) (v : UInt8) : List Region → Board × List Region
  | [] => (board, [])
  | r :: regions =>
    if r.owns a then
      match r with
      | .backed s =>
        let (board, s) := s.write board a v
        (board, .backed s :: regions)
      | .remap r => (board, .remap r :: regions)
    else
      let (board, regions) := put board a v regions
      (board, r :: regions)

/-- Where an access goes, or why it fails. -/
inductive Target where
  | refused (e : MemoryError)
  | granted (a : Address)

/-- Where a write goes. -/
def writeTarget (m : MemoryMap) (a : Address) : Target :=
  match m.resolve a with
  | none => .refused (.notMapped a)
  | some (s, a') =>
    if (s.accessAt a').writable then .granted a' else .refused (.violation a s.name .write)

instance : Memory MemoryMap where
  read m a :=
    match m.resolve a with
    | none => .error (.notMapped a)
    | some (s, a') =>
      if (s.accessAt a').readable then .ok (s.read m.board a')
      else .error (.violation a s.name .read)
  write m a v :=
    match m.writeTarget a with
    | .refused e => (.error e, m)
    | .granted a' =>
      match m with
      | ⟨regions, board⟩ =>
        let (board, regions) := put board a' v regions
        (.ok (), ⟨regions, board⟩)

end MemoryMap

end Handheld
