/-
# The register block

The registers of the devices at `FF00` to `FF7F`.  A register without a device behind it is plain
storage; those named below have bits of their own that a program can observe.
-/
import Handheld.Bytes
import Handheld.Interrupt

namespace Handheld

namespace IoRegisters

def start : Address := 0xFF00

def length : Nat := 0x80

/-- Joypad lines. -/
def joypad : Address := 0xFF00

/-- Divider. -/
def divider : Address := 0xFF04

/-- Display control. -/
def displayControl : Address := 0xFF40

/-- Display status. -/
def displayStatus : Address := 0xFF41

/-- Display line. -/
def displayLine : Address := 0xFF44

/-- Switch of the start-up program. -/
def bootSwitch : Address := 0xFF50

end IoRegisters

/-- The stored bytes of the register block. -/
structure IoRegisters where
  cells : ByteArray

namespace IoRegisters

def offset (a : Address) : Nat :=
  a.toNat - start.toNat

def cell (r : IoRegisters) (a : Address) : UInt8 :=
  Bytes.get r.cells (offset a) 0xFF

def setCell (r : IoRegisters) (a : Address) (v : UInt8) : IoRegisters :=
  { r with cells := Bytes.put r.cells (offset a) v }

/-- The registers at the start, with the start-up program in place or not. -/
def initial (bootMapped : Bool) : IoRegisters :=
  let r : IoRegisters := ⟨Bytes.fill length 0⟩
  (((r.setCell joypad 0xCF).setCell displayControl 0x91).setCell displayStatus 0x85).setCell
    bootSwitch (if bootMapped then 0 else 1)

/-- Read a register.  Bits without a meaning read as ones. -/
def read (r : IoRegisters) (a : Address) : UInt8 :=
  let v := r.cell a
  if a = joypad then v ||| 0xC0
  else if a = Interrupt.requestAddress then v ||| 0xE0
  else if a = displayStatus then v ||| 0x80
  else if a = bootSwitch then v ||| 0xFE
  else v

/-- Write a register, with the latch that keeps the start-up program in place.

Of the joypad only the two selection lines change.  The divider falls to zero.  Switching the
display off resets its line and its mode; the status keeps its mode and coincidence bits, and the
line cannot be written.  The first byte but zero that is written to the switch takes the start-up
program away for good. -/
def write (r : IoRegisters) (latch : Bool) (a : Address) (v : UInt8) : IoRegisters × Bool :=
  if a = joypad then (r.setCell a ((r.cell a &&& 0xCF) ||| (v &&& 0x30)), latch)
  else if a = divider then (r.setCell a 0, latch)
  else if a = Interrupt.requestAddress then (r.setCell a (v &&& 0x1F), latch)
  else if a = displayControl then
    let status := r.cell displayStatus
    let r := r.setCell a v
    if v &&& 0x80 = 0 then
      ((r.setCell displayLine 0).setCell displayStatus (status &&& 0xFC), latch)
    else (r, latch)
  else if a = displayStatus then (r.setCell a ((r.cell a &&& 0x07) ||| (v &&& 0x78)), latch)
  else if a = displayLine then (r, latch)
  else if a = bootSwitch then
    if v ≠ 0 ∧ latch then (r.setCell a 1, false) else (r, latch)
  else (r.setCell a v, latch)

end IoRegisters

end Handheld
