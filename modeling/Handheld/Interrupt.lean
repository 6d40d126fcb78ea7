/-
# Interrupts

Five sources can ask for the processor's attention.  A source is pending when its bit is set both
in the request register and in the enable register, and the lowest bit goes first.
-/
import Handheld.Memory.Basic

namespace Handheld

/-- The interrupt sources, in order of priority. -/
inductive Interrupt where
  | vblank | lcdStat | timer | serial | joypad
deriving DecidableEq, Inhabited

namespace Interrupt

/-- The register of requested interrupts. -/
def requestAddress : Address := 0xFF0F

/-- The register of enabled interrupts. -/
def enableAddress : Address := 0xFFFF

/-- All sources, in order of priority. -/
def all : List Interrupt :=
  [vblank, lcdStat, timer, serial, joypad]

def name : Interrupt → String
  | vblank => "VBlank"
  | lcdStat => "LcdStat"
  | timer => "Timer"
  | serial => "Serial"
  | joypad => "Joypad"

/-- The number of the source's bit in both registers. -/
def bit : Interrupt → Nat
  | vblank => 0
  | lcdStat => 1
  | timer => 2
  | serial => 3
  | joypad => 4

/-- The byte with the source's bit alone. -/
def mask (i : Interrupt) : UInt8 :=
  1 <<< UInt8.ofNat i.bit

/-- The address at which the source's routine starts. -/
def vector (i : Interrupt) : Address :=
  UInt16.ofNat (0x40 + 8 * i.bit)

/-- The first source that is both requested and enabled. -/
def pending (requested enabled : UInt8) : Option Interrupt :=
  all.find? fun i => requested &&& enabled &&& i.mask != 0

variable {M : Type} [Memory M]

/-- The first pending source according to the two registers; the request register is read
first. -/
def poll (m : M) : Except MemoryError (Option Interrupt) := do
  let requested ← Memory.read m requestAddress
  let enabled ← Memory.read m enableAddress
  return pending requested enabled

/-- Set the source's request, as a device does. -/
def request (i : Interrupt) (m : M) : Except MemoryError Unit × M :=
  match Memory.read m requestAddress with
  | .ok flags => Memory.write m requestAddress (flags ||| i.mask)
  | .error e => (.error e, m)

/-- Take the source's request back, as the processor does when it answers. -/
def acknowledge (i : Interrupt) (m : M) : Except MemoryError Unit × M :=
  match Memory.read m requestAddress with
  | .ok flags => Memory.write m requestAddress (flags &&& ~~~i.mask)
  | .error e => (.error e, m)

end Interrupt

end Handheld
