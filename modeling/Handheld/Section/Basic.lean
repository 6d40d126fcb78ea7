/-
# Sections

A section is a stretch of the address space with something behind it: memory, nothing, the device
registers, a window on the cartridge, two sections side by side, or the start-up program in front
of another section.  What several sections share stands on a board beside them.
-/
import Handheld.Section.Ram
import Handheld.Section.IoRegisters
import Handheld.Cartridge.Basic

namespace Handheld

/-- What the sections of one map share: the cartridge, and the latch that keeps the start-up
program in place. -/
structure Board where
  cartridge : Option Cartridge := none
  bootMapped : Bool := false

/-- The reasons for which sections make up no map. -/
inductive MapError where
  /-- The least address that no section covers. -/
  | gap (address : Nat)
  | overlap (address : Address) (first second : String)
  | notAdjacent (first second : String)
  | tooLong (name : String) (length : Nat)
deriving DecidableEq

def MapError.message : MapError → String
  | gap a => "no section covers $" ++ Text.hex 4 a
  | overlap a first second =>
    "sections '" ++ first ++ "' and '" ++ second ++ "' overlap at $" ++ Text.hex4 a
  | notAdjacent first second =>
    "section '" ++ second ++ "' does not start where '" ++ first ++ "' ends"
  | tooLong name length =>
    "section '" ++ name ++ "' spans 0x" ++ Text.hex 1 length ++
      " bytes, more than a section can describe"

/-- A stretch of the address space with what is behind it. -/
inductive Section where
  | ram (r : Ram)
  /-- Nothing: reads give `FF`, and writes are lost. -/
  | openBus (name : String) (start : Address) (length : Nat)
  | io (r : IoRegisters)
  /-- The program banks of the cartridge, and the control of its banks. -/
  | cartridgeRom
  /-- The memory of the cartridge. -/
  | cartridgeRam
  /-- Two sections, the second where the first ends. -/
  | stitched (name : String) (low high : Section)
  /-- The start-up program in front of a section, as long as the latch keeps it there. -/
  | boot (program : ByteArray) (inner : Section)

namespace Section

def name : Section → String
  | ram r => r.name
  | openBus n _ _ => n
  | io _ => "io"
  | cartridgeRom => "rom"
  | cartridgeRam => "sram"
  | stitched n _ _ => n
  | boot _ inner => inner.name

def start : Section → Address
  | ram r => r.start
  | openBus _ s _ => s
  | io _ => IoRegisters.start
  | cartridgeRom => 0x0000
  | cartridgeRam => 0xA000
  | stitched _ low _ => low.start
  | boot _ inner => inner.start

def length : Section → Nat
  | ram r => r.length
  | openBus _ _ n => n
  | io _ => IoRegisters.length
  | cartridgeRom => 0x8000
  | cartridgeRam => 0x2000
  | stitched _ low high => low.length + high.length
  | boot _ inner => inner.length

/-- One past the last address. -/
def stop (s : Section) : Nat :=
  s.start.toNat + s.length

/-- Whether an address is in the section. -/
def accepts (s : Section) (a : Address) : Bool :=
  s.start ≤ a && a.toNat < s.stop

/-- The access that a whole section admits.  Of two sections side by side it is the narrower
access; where neither is, it is every access, and only `accessAt` tells. -/
def access : Section → Access
  | ram r => r.access
  | stitched _ low high =>
    let (a, b) := (low.access, high.access)
    if a = b then a
    else if a = .readWrite then b
    else if b = .readWrite then a
    else .readWrite
  | boot _ inner => inner.access
  | _ => .readWrite

/-- The access that a section admits at an address. -/
def accessAt (a : Address) : Section → Access
  | stitched _ low high => if low.accepts a then low.accessAt a else high.accessAt a
  | boot _ inner => inner.accessAt a
  | s => s.access

/-- The byte of the start-up program that hides an address. -/
def shadow (board : Board) (program : ByteArray) (inner : Section) (a : Address) :
    Option UInt8 :=
  let i := a.toNat - inner.start.toNat
  if inner.start ≤ a ∧ board.bootMapped then program[i]? else none

/-- Read an address, whatever the access rule. -/
def read (board : Board) (a : Address) : Section → UInt8
  | ram r => r.get a
  | openBus .. => 0xFF
  | io r => r.read a
  | cartridgeRom | cartridgeRam =>
    match board.cartridge with
    | some c => c.read a
    | none => 0xFF
  | stitched _ low high => if low.accepts a then low.read board a else high.read board a
  | boot program inner =>
    match shadow board program inner a with
    | some v => v
    | none => inner.read board a

/-- Write an address, whatever the access rule.  Writes pass through the start-up program. -/
def write (board : Board) (a : Address) (v : UInt8) : Section → Board × Section
  | ram r => (board, ram (r.put a v))
  | openBus n s l => (board, openBus n s l)
  | io r =>
    let (r, latch) := r.write board.bootMapped a v
    ({ board with bootMapped := latch }, io r)
  | cartridgeRom => (writeCartridge board, cartridgeRom)
  | cartridgeRam => (writeCartridge board, cartridgeRam)
  | stitched n low high =>
    if low.accepts a then
      let (board, low) := low.write board a v
      (board, stitched n low high)
    else
      let (board, high) := high.write board a v
      (board, stitched n low high)
  | boot program inner =>
    let (board, inner) := inner.write board a v
    (board, boot program inner)
where
  /-- The board after a write to the cartridge. -/
  writeCartridge : Board → Board
    | ⟨some c, mapped⟩ => ⟨some (c.write a v), mapped⟩
    | ⟨none, mapped⟩ => ⟨none, mapped⟩

/-- Put two sections side by side, if the second starts where the first ends and a section can be
as long as both. -/
def stitch (n : String) (low high : Section) : Except MapError Section :=
  if low.stop ≠ high.start.toNat ∨ low.stop + high.length > 0x10000 then
    .error (.notAdjacent low.name high.name)
  else if low.length + high.length > 0xFFFF then
    .error (.tooLong n (low.length + high.length))
  else .ok (stitched n low high)

/-- The start-up program in front of a section.  It is at most 256 bytes long. -/
def withBoot (program : ByteArray) (inner : Section) : Section :=
  boot (program.extract 0 0x100) inner

end Section

end Handheld
