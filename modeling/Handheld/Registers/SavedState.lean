/-
# Saved registers

The register file as fourteen bytes: `A F B C D E H L`, stack pointer and program counter with
the low byte first, the master enable as a number, and the halted mark.
-/
import Handheld.Registers.Basic

namespace Handheld

/-- The reasons for which bytes are no saved state. -/
inductive SavedStateError where
  | length (n : Nat)
  | masterEnable (b : UInt8)
deriving DecidableEq

def SavedStateError.message : SavedStateError → String
  | length n => "register state must be 14 bytes, got " ++ toString n
  | masterEnable b => "invalid IME encoding " ++ toString b.toNat

namespace MasterEnable

def toByte : MasterEnable → UInt8
  | disabled => 0
  | requested => 1
  | enabled => 2

def ofByte (b : UInt8) : Except SavedStateError MasterEnable :=
  if b = 0 then .ok disabled
  else if b = 1 then .ok requested
  else if b = 2 then .ok enabled
  else .error (.masterEnable b)

end MasterEnable

namespace Registers

/-- The saved form of the registers. -/
def toBytes (r : Registers) : List UInt8 :=
  [r.a, r.f, r.b, r.c, r.d, r.e, r.h, r.l] ++ Word.littleEndian r.sp ++ Word.littleEndian r.pc ++
    [r.ime.toByte, if r.halted then 1 else 0]

/-- The registers with a given saved form.  The low half of the flag byte is ignored, and any
halted mark but zero stands for halted. -/
def ofBytes : List UInt8 → Except SavedStateError Registers
  | [a, f, b, c, d, e, h, l, spLow, spHigh, pcLow, pcHigh, ime, halted] => do
    let ime ← MasterEnable.ofByte ime
    return { a, flags := Flags.ofByte f, b, c, d, e, h, l, ime,
             sp := Word.ofBytes spHigh spLow, pc := Word.ofBytes pcHigh pcLow,
             halted := halted != 0 }
  | bytes => .error (.length bytes.length)

end Registers

end Handheld
