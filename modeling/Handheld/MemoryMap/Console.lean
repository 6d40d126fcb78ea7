/-
# The console's map

The address space of the console around a cartridge.

    0000-7FFF  cartridge, with the start-up program in front of 0000-00FF
    8000-9FFF  video memory
    A000-BFFF  cartridge memory
    C000-DFFF  work memory in two halves
    E000-FDFF  the work memory again
    FE00-FE9F  object memory
    FEA0-FEFF  nothing
    FF00-FF7F  device registers
    FF80-FFFE  high memory
    FFFF       interrupt enable
-/
import Handheld.MemoryMap.Build

namespace Handheld.MemoryMap

private def zeroed (name : String) (start : Address) (length : Nat) : Section :=
  .ram (.zeroed name start length)

/-- The regions of the console's map in the order of their addresses. -/
def consoleRegions (bootProgram : Option ByteArray) : List Region :=
  let cartridge := match bootProgram with
    | some program => Section.withBoot program .cartridgeRom
    | none => .cartridgeRom
  [.backed cartridge,
   .backed (zeroed "vram" 0x8000 0x2000),
   .backed .cartridgeRam,
   .backed (.stitched "wram" (zeroed "wram0" 0xC000 0x1000) (zeroed "wram1" 0xD000 0x1000)),
   .remap ⟨"echo", 0xE000, 0x1E00, 0xC000⟩,
   .backed (zeroed "oam" 0xFE00 0xA0),
   .backed (.openBus "unusable" 0xFEA0 0x60),
   .backed (.io (.initial bootProgram.isSome)),
   .backed (zeroed "hram" 0xFF80 0x7F),
   .backed (zeroed "ie" 0xFFFF 1)]

/-- The console's map around a cartridge, with a start-up program or without one. -/
def console (cartridge : Cartridge) (bootProgram : Option ByteArray) : MemoryMap where
  regions := consoleRegions bootProgram
  board := { cartridge := some cartridge, bootMapped := bootProgram.isSome }

end Handheld.MemoryMap
