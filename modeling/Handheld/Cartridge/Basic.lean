/-
# Cartridges

A cartridge holds program banks and, maybe, memory banks, of which a controller shows some at a
time.  It answers at `0000` to `7FFF`, where writing controls the banks, and at `A000` to `BFFF`.
-/
import Handheld.Cartridge.Checksum
import Handheld.Event

namespace Handheld

/-- The reasons for which an image is no cartridge. -/
inductive CartridgeError where
  | tooSmall (size : Nat)
  | unsupportedMapper (code : UInt8)
  /-- The file cannot be read. -/
  | unreadable
deriving DecidableEq

def CartridgeError.message : CartridgeError → String
  | tooSmall n => "ROM image is " ++ toString n ++ " bytes, smaller than the 0x150-byte header"
  | unsupportedMapper b => "unsupported cartridge type $" ++ Text.hex2 b
  | unreadable => "the file cannot be read"

/-- Write both checksums into an image in place.  An image that is too short to hold them is refused
and stays as it is. -/
def Checksum.fix (image : ByteArray) : Except CartridgeError Unit × ByteArray :=
  match fix? image with
  | none => (.error (.tooSmall image.size), image)
  | some fixed => (.ok (), fixed)

/-- The registers of a bank controller. -/
structure BankRegisters where
  /-- The low five bits of the program bank; never zero. -/
  low : UInt8 := 1
  /-- Two bits more, for the program bank and for the memory bank. -/
  high : UInt8 := 0
  /-- Whether the two bits also pick the memory bank. -/
  mode : UInt8 := 0
  ramEnable : Bool := false
deriving DecidableEq

/-- The state of a bank controller. -/
inductive Controller where
  | romOnly
  | mbc1 (r : BankRegisters)
deriving DecidableEq

/-- A cartridge in use. -/
structure Cartridge where
  rom : ByteArray
  ram : ByteArray
  title : String
  typeCode : UInt8
  mapper : Mapper
  romBanks : Nat
  ramBanks : Nat
  battery : Bool
  checksums : Checksum.Report
  controller : Controller
  /-- The file that keeps the memory, for a cartridge that has one. -/
  savePath : Option String := none

namespace Cartridge

def romBankSize : Nat := 0x4000

def ramBankSize : Nat := 0x2000

/-- What loading a cartridge tells a listener. -/
inductive Notice where
  | unknownRomSize (code : UInt8) (banks : Nat)
  | unknownRamSize (code : UInt8)
  | headerMismatch (stored computed : UInt8)
  | romMismatch (stored computed : UInt16)
  | resized (size banks : Nat)
  | loaded (title : String) (mapper : Mapper) (romBanks ramBanks : Nat)
  | restored (path : String)

namespace Notice

def level : Notice → Event.Level
  | resized .. | restored .. => .debug
  | loaded .. => .info
  | _ => .warn

def message : Notice → String
  | unknownRomSize code banks =>
    "unknown ROM size code $" ++ Text.hex2 code ++ ", assuming " ++ toString banks ++ " banks"
  | unknownRamSize code => "unknown RAM size code $" ++ Text.hex2 code ++ ", no RAM mapped"
  | headerMismatch stored computed =>
    "header checksum mismatch: stored $" ++ Text.hex2 stored ++ ", computed $" ++
      Text.hex2 computed
  | romMismatch stored computed =>
    "ROM checksum mismatch: stored $" ++ Text.hex4 stored ++ ", computed $" ++ Text.hex4 computed
  | resized size banks =>
    "resizing " ++ toString size ++ " byte image to " ++ toString banks ++ " banks"
  | loaded title mapper romBanks ramBanks =>
    "loaded '" ++ title ++ "' (" ++ mapper.name ++ ", " ++ toString romBanks ++ " ROM banks, " ++
      toString ramBanks ++ " RAM banks)"
  | restored path => "restored RAM from " ++ path

def event (n : Notice) : Event :=
  ⟨n.level, "cartridge", n.message⟩

end Notice

/-- The least power of two that is at least two and holds `n`. -/
def bankCount (n : Nat) : Nat :=
  if n ≤ 2 then 2 else 2 <<< (n - 1).log2

/-- The number of program banks that an image of a given size needs. -/
def banksFor (size : Nat) : Nat :=
  bankCount ((size + romBankSize - 1) / romBankSize)

/-- The cartridge of an image, with what there is to tell about it.

The program banks are as many as the header says: a short image is filled up with `FF`, a long one
is cut.  Wrong checksums are told and kept, and do not refuse the image. -/
def load (image : ByteArray) : Except CartridgeError (Cartridge × List Notice) :=
  match Header.ofImage? image with
  | none => .error (.tooSmall image.size)
  | some h =>
    match h.mapper? with
    | none => .error (.unsupportedMapper h.typeCode)
    | some mapper =>
      let romBanks := h.romBanks?.getD (banksFor image.size)
      let ramBanks := h.ramBanks?.getD 0
      let checksums : Checksum.Report :=
        ⟨h.headerSum, Checksum.header image, h.romSum, Checksum.rom image⟩
      let size := romBanks * romBankSize
      let controller := match mapper with
        | .romOnly => .romOnly
        | .mbc1 => .mbc1 {}
      let note (b : Bool) (n : Notice) : List Notice := if b then [n] else []
      let notices :=
        note h.romBanks?.isNone (.unknownRomSize h.romCode romBanks) ++
        note h.ramBanks?.isNone (.unknownRamSize h.ramCode) ++
        note (!checksums.headerOk)
          (.headerMismatch checksums.headerStored checksums.headerComputed) ++
        note (!checksums.romOk) (.romMismatch checksums.romStored checksums.romComputed) ++
        note (image.size != size) (.resized image.size romBanks) ++
        [.loaded h.title mapper romBanks ramBanks]
      .ok ({ rom := Bytes.resize image size 0xFF
             ram := Bytes.fill (ramBanks * ramBankSize) 0
             title := h.title
             typeCode := h.typeCode
             battery := h.hasBattery
             mapper, romBanks, ramBanks, checksums, controller }, notices)

/-- The header as the cartridge holds it. -/
def header (c : Cartridge) : Header :=
  ⟨c.rom⟩

/-- The program bank that shows at `4000` to `7FFF`. -/
def romBank (c : Cartridge) : Nat :=
  match c.controller with
  | .romOnly => 1
  | .mbc1 r => (r.high.toNat * 32 + r.low.toNat) % c.romBanks

/-- The memory bank that shows at `A000` to `BFFF`. -/
def ramBank (c : Cartridge) : Nat :=
  match c.controller with
  | .romOnly => 0
  | .mbc1 r => if r.mode = 1 ∧ c.ramBanks > 0 then r.high.toNat % c.ramBanks else 0

/-- Whether the memory answers. -/
def ramEnabled (c : Cartridge) : Bool :=
  match c.controller with
  | .romOnly => !c.ram.isEmpty
  | .mbc1 r => r.ramEnable && !c.ram.isEmpty

/-- The place of an address from `A000` on in the memory. -/
def ramIndex (c : Cartridge) (a : Address) : Nat :=
  c.ramBank * ramBankSize + (a.toNat - 0xA000)

/-- Whether an address is in the window of the memory. -/
def inRamWindow (a : Address) : Bool :=
  0xA000 ≤ a && a ≤ 0xBFFF

/-- Read an address.  What does not answer reads as `FF`. -/
def read (c : Cartridge) (a : Address) : UInt8 :=
  if a < 0x4000 then Bytes.get c.rom a.toNat 0xFF
  else if a < 0x8000 then Bytes.get c.rom (c.romBank * romBankSize + (a.toNat - 0x4000)) 0xFF
  else if inRamWindow a && c.ramEnabled then Bytes.get c.ram (c.ramIndex a) 0xFF
  else 0xFF

/-- The controller after a write to its part of the address space. -/
def control (r : BankRegisters) (a : Address) (v : UInt8) : BankRegisters :=
  if a < 0x2000 then { r with ramEnable := v &&& 0x0F = 0x0A }
  else if a < 0x4000 then { r with low := if v &&& 0x1F = 0 then 1 else v &&& 0x1F }
  else if a < 0x6000 then { r with high := v &&& 0x03 }
  else if a < 0x8000 then { r with mode := v &&& 0x01 }
  else r

/-- Write an address: change the memory where it answers, or control the banks. -/
def write (c : Cartridge) (a : Address) (v : UInt8) : Cartridge :=
  if inRamWindow a then
    if c.ramEnabled then
      let i := c.ramIndex a
      { c with ram := Bytes.put c.ram i v }
    else c
  else
    match c.controller with
    | .romOnly => c
    | .mbc1 r => { c with controller := .mbc1 (control r a v) }

end Cartridge

end Handheld
