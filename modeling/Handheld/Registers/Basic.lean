/-
# The register file

Seven byte registers, four flags, stack pointer, program counter, the interrupt master enable and
the halted mark.  The flags are four truth values and not a byte, so the low half of the flag byte
is zero by construction.
-/
import Handheld.Instruction.Basic
import Handheld.Instruction.Text
import Handheld.Model

namespace Handheld

/-- The flags: zero, subtraction, half carry and carry. -/
structure Flags where
  zero : Bool := false
  subtract : Bool := false
  halfCarry : Bool := false
  carry : Bool := false
deriving DecidableEq, Inhabited

namespace Flags

/-- The flags in the high half of a byte; its low half is ignored. -/
def ofByte (b : UInt8) : Flags where
  zero := b.toNat.testBit 7
  subtract := b.toNat.testBit 6
  halfCarry := b.toNat.testBit 5
  carry := b.toNat.testBit 4

/-- The flag byte. -/
def toByte (f : Flags) : UInt8 :=
  (bif f.zero then 0x80 else 0) + (bif f.subtract then 0x40 else 0) +
    (bif f.halfCarry then 0x20 else 0) + (bif f.carry then 0x10 else 0)

@[simp] theorem ofByte_toByte (f : Flags) : ofByte f.toByte = f := by
  obtain ⟨z, n, h, c⟩ := f
  revert z n h c
  decide

/-- The low half of the flag byte is clear. -/
theorem toByte_and_low (f : Flags) : f.toByte &&& 0x0F = 0 := by
  obtain ⟨z, n, h, c⟩ := f
  revert z n h c
  decide

end Flags

/-- Whether a condition holds of the flags. -/
def Condition.holds : Condition → Flags → Bool
  | nz, f => !f.zero
  | z, f => f.zero
  | nc, f => !f.carry
  | c, f => f.carry

/-- The interrupt master enable. -/
inductive MasterEnable where
  | disabled
  /-- Asked for by `EI`; becomes `enabled` when the next instruction ends. -/
  | requested
  | enabled
deriving DecidableEq, Inhabited

def MasterEnable.name : MasterEnable → String
  | disabled => "Disabled"
  | requested => "RequestEnabled"
  | enabled => "Enabled"

/-- The registers that a program can observe. -/
structure Registers where
  a : UInt8 := 0
  flags : Flags := {}
  b : UInt8 := 0
  c : UInt8 := 0
  d : UInt8 := 0
  e : UInt8 := 0
  h : UInt8 := 0
  l : UInt8 := 0
  sp : UInt16 := 0
  pc : Address := 0
  ime : MasterEnable := .disabled
  halted : Bool := false
deriving DecidableEq, Inhabited

namespace Registers

/-- The flag byte. -/
def f (r : Registers) : UInt8 :=
  r.flags.toByte

/-- Set the flags from a byte. -/
def setF (r : Registers) (b : UInt8) : Registers :=
  { r with flags := Flags.ofByte b }

/-- Whether one of the flags in a mask is set. -/
def anyFlag (r : Registers) (mask : UInt8) : Bool :=
  r.f &&& mask != 0

/-- Set or clear the flags in a mask. -/
def setFlag (r : Registers) (mask : UInt8) (on : Bool) : Registers :=
  r.setF (if on then r.f ||| mask else r.f &&& ~~~mask)

def get (r : Registers) : Register → UInt8
  | .a => r.a
  | .b => r.b
  | .c => r.c
  | .d => r.d
  | .e => r.e
  | .h => r.h
  | .l => r.l

def set (r : Registers) (v : UInt8) : Register → Registers
  | .a => { r with a := v }
  | .b => { r with b := v }
  | .c => { r with c := v }
  | .d => { r with d := v }
  | .e => { r with e := v }
  | .h => { r with h := v }
  | .l => { r with l := v }

def getPair (r : Registers) : Pair → UInt16
  | .af => Word.ofBytes r.a r.f
  | .bc => Word.ofBytes r.b r.c
  | .de => Word.ofBytes r.d r.e
  | .hl => Word.ofBytes r.h r.l
  | .sp => r.sp

/-- Set a pair.  Of a word for `AF` the low four bits are lost. -/
def setPair (r : Registers) (w : UInt16) : Pair → Registers
  | .af => { r with a := Word.high w, flags := Flags.ofByte (Word.low w) }
  | .bc => { r with b := Word.high w, c := Word.low w }
  | .de => { r with d := Word.high w, e := Word.low w }
  | .hl => { r with h := Word.high w, l := Word.low w }
  | .sp => { r with sp := w }

def hl (r : Registers) : UInt16 :=
  r.getPair .hl

/-- The registers when the power comes on: all zero. -/
def powerOn : Registers := {}

/-- The registers that the start-up program of a model hands to the cartridge. -/
def postBoot (model : Model) : Registers :=
  let r : Registers := match model with
    | .dmg0 => { a := 0x01, flags := Flags.ofByte 0x00, b := 0xFF, c := 0x13, d := 0x00, e := 0xC1,
                 h := 0x84, l := 0x03 }
    | .dmg => { a := 0x01, flags := Flags.ofByte 0xB0, b := 0x00, c := 0x13, d := 0x00, e := 0xD8,
                h := 0x01, l := 0x4D }
    | .cgb => { a := 0x11, flags := Flags.ofByte 0x80, b := 0x00, c := 0x00, d := 0x00, e := 0x08,
                h := 0x00, l := 0x7C }
  { r with sp := 0xFFFE, pc := 0x0100 }

/-- The registers on one line, for a reader. -/
def summary (r : Registers) : String :=
  let pair (p : Pair) := p.text ++ ":" ++ Text.hex4 (r.getPair p) ++ " "
  pair .af ++ pair .bc ++ pair .de ++ pair .hl ++ "PC:" ++ Text.hex4 r.pc ++ " " ++ pair .sp ++
    "IME:" ++ r.ime.name ++ (if r.halted then " HALT" else "")

end Registers

end Handheld
