/-
# The console

A processor on the console's map around a cartridge.
-/
import Handheld.MemoryMap.Console
import Handheld.Processor.Tick

namespace Handheld

/-- A console in use. -/
structure Console where
  machine : Machine MemoryMap
  model : Model

namespace Console

/-- A console with a cartridge.  With a start-up program it starts at address zero, without one
as the start-up program of its model would leave it. -/
def start (cartridge : Cartridge) (model : Model) (bootProgram : Option ByteArray := none) :
    Console where
  machine :=
    { cpu := if bootProgram.isSome then .powerOn else .ofModel model
      memory := .console cartridge bootProgram }
  model

/-- The cartridge in the console. -/
def cartridge? (c : Console) : Option Cartridge :=
  c.machine.memory.board.cartridge

/-- Whether the start-up program is in front of the cartridge. -/
def bootMapped (c : Console) : Bool :=
  c.machine.memory.board.bootMapped

end Console

end Handheld
