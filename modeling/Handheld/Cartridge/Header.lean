/-
# The cartridge header

The bytes `0100` to `014F` of a cartridge's image say what the cartridge holds: its title, its
kind of bank controller, and the sizes of its memories.
-/
import Handheld.Bytes
import Handheld.Word
import Handheld.Text.Quoted
import Handheld.Text.Utf8
import Handheld.Text.Hex

namespace Handheld

/-- The kinds of bank controllers that are understood. -/
inductive Mapper where
  /-- No controller. -/
  | romOnly
  | mbc1
deriving DecidableEq, Inhabited

def Mapper.name : Mapper → String
  | romOnly => "RomOnly"
  | mbc1 => "Mbc1"

/-- A view of an image that is long enough to hold a header. -/
structure Header where
  image : ByteArray

namespace Header

/-- The number of bytes up to the end of the header. -/
def size : Nat := 0x150

/-- The bytes that the start-up program compares with its own copy. -/
def logoBytes : List UInt8 :=
  [0xCE, 0xED, 0x66, 0x66, 0xCC, 0x0D, 0x00, 0x0B, 0x03, 0x73, 0x00, 0x83, 0x00, 0x0C, 0x00, 0x0D,
   0x00, 0x08, 0x11, 0x1F, 0x88, 0x89, 0x00, 0x0E, 0xDC, 0xCC, 0x6E, 0xE6, 0xDD, 0xDD, 0xD9, 0x99,
   0xBB, 0xBB, 0x67, 0x63, 0x6E, 0x0E, 0xEC, 0xCC, 0xDD, 0xDC, 0x99, 0x9F, 0xBB, 0xB9, 0x33, 0x3E]

/-- The header of an image that is long enough. -/
def ofImage? (image : ByteArray) : Option Header :=
  if size ≤ image.size then some ⟨image⟩ else none

def byte (h : Header) (i : Nat) : UInt8 :=
  Bytes.get h.image i 0

def entryPoint (h : Header) : List UInt8 :=
  Bytes.slice h.image 0x100 0x104

def logo (h : Header) : List UInt8 :=
  Bytes.slice h.image 0x104 0x134

def logoValid (h : Header) : Bool :=
  h.logo == logoBytes

/-- Bit 7 says that the cartridge is made for the colour model. -/
def colourFlag (h : Header) : UInt8 :=
  h.byte 0x143

/-- The title up to its first zero, without blanks at its ends.  The colour flag takes the last
byte of the field away from it. -/
def title (h : Header) : String :=
  let stop := if h.colourFlag &&& 0x80 = 0 then 0x144 else 0x143
  let bytes := (Bytes.slice h.image 0x134 stop).takeWhile (· != 0)
  String.ofList (Text.trim (Text.decodeLossy bytes))

def manufacturer (h : Header) : List UInt8 :=
  Bytes.slice h.image 0x13F 0x143

def newLicensee (h : Header) : List UInt8 :=
  Bytes.slice h.image 0x144 0x146

/-- The flag of the model for the television set. -/
def superFlag (h : Header) : UInt8 :=
  h.byte 0x146

def typeCode (h : Header) : UInt8 :=
  h.byte 0x147

def mapper? (h : Header) : Option Mapper :=
  if h.typeCode ∈ [0x00, 0x08, 0x09] then some .romOnly
  else if h.typeCode ∈ [0x01, 0x02, 0x03] then some .mbc1
  else none

/-- Whether a battery keeps the memory alive. -/
def hasBattery (h : Header) : Bool :=
  h.typeCode = 0x03 ∨ h.typeCode = 0x09

def romCode (h : Header) : UInt8 :=
  h.byte 0x148

/-- The number of program banks: two, doubled as often as the code says. -/
def romBanks? (h : Header) : Option Nat :=
  if h.romCode ≤ 8 then some (2 <<< h.romCode.toNat) else none

def ramCode (h : Header) : UInt8 :=
  h.byte 0x149

/-- The number of memory banks.  Code 1 stands for a size that was never used, and gives no
banks. -/
def ramBanks? (h : Header) : Option Nat :=
  match h.ramCode.toNat with
  | 0 | 1 => some 0
  | 2 => some 1
  | 3 => some 4
  | 4 => some 16
  | 5 => some 8
  | _ => none

def destination (h : Header) : UInt8 :=
  h.byte 0x14A

def oldLicensee (h : Header) : UInt8 :=
  h.byte 0x14B

def version (h : Header) : UInt8 :=
  h.byte 0x14C

/-- The stored checksum of the header. -/
def headerSum (h : Header) : UInt8 :=
  h.byte 0x14D

/-- The stored checksum of the image, high byte first. -/
def romSum (h : Header) : UInt16 :=
  Word.ofBytes (h.byte 0x14E) (h.byte 0x14F)

/-- The header's main fields on one line. -/
def summary (h : Header) : String :=
  let count : Option Nat → String
    | some n => "Some(" ++ toString n ++ ")"
    | none => "None"
  "Header \x7b title: " ++ Text.quoted h.title ++ ", cart_type: 0x" ++ Text.hex2 h.typeCode ++
    ", rom_banks: " ++ count h.romBanks? ++ ", ram_banks: " ++ count h.ramBanks? ++
    ", version: " ++ toString h.version.toNat ++ " \x7d"

end Header

end Handheld
