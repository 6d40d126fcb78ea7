/-
# Arithmetic on bytes and words

The operations of the processor with the flags that they set.  Sums and differences are taken in
the natural numbers, so that carries are comparisons there and not bit tricks.
-/
import Handheld.Registers.Basic

namespace Handheld

/-- A byte with the flags of the operation that gave it. -/
structure Arithmetic.Result where
  value : UInt8
  flags : Flags
deriving DecidableEq

namespace Arithmetic

/-- `a + v`, and one more with a carry in. -/
def add (a v : UInt8) (carry : Bool) : Result :=
  let sum := a.toNat + v.toNat + carry.toNat
  let value := UInt8.ofNat sum
  ⟨value, value == 0, false, decide (a.toNat % 16 + v.toNat % 16 + carry.toNat > 15),
    decide (sum > 255)⟩

/-- `a - v`, and one less with a borrow in.  The carry flags are the borrows. -/
def sub (a v : UInt8) (borrow : Bool) : Result :=
  let value := UInt8.ofNat (a.toNat + 256 - (v.toNat + borrow.toNat))
  ⟨value, value == 0, true, decide (a.toNat % 16 < v.toNat % 16 + borrow.toNat),
    decide (a.toNat < v.toNat + borrow.toNat)⟩

def and (a v : UInt8) : Result :=
  ⟨a &&& v, a &&& v == 0, false, true, false⟩

def xor (a v : UInt8) : Result :=
  ⟨a ^^^ v, a ^^^ v == 0, false, false, false⟩

def or (a v : UInt8) : Result :=
  ⟨a ||| v, a ||| v == 0, false, false, false⟩

/-- `v + 1`; the carry is left alone. -/
def inc (v : UInt8) (f : Flags) : Result :=
  ⟨v + 1, v + 1 == 0, false, v.toNat % 16 == 15, f.carry⟩

/-- `v - 1`; the carry is left alone. -/
def dec (v : UInt8) (f : Flags) : Result :=
  ⟨v - 1, v - 1 == 0, true, v.toNat % 16 == 0, f.carry⟩

/-- The sum of two words.  The carries come from bits 11 and 15, and zero is left alone. -/
def addWords (x y : UInt16) (f : Flags) : UInt16 × Flags :=
  (x + y, ⟨f.zero, false, decide (x.toNat % 4096 + y.toNat % 4096 > 4095),
    decide (x.toNat + y.toNat > 65535)⟩)

/-- A word plus a signed offset.  The carries are those of adding the offset's byte to the low
byte. -/
def addOffset (x : UInt16) (e : UInt8) : UInt16 × Flags :=
  (x + Word.ofSigned e, ⟨false, false, decide (x.toNat % 16 + e.toNat % 16 > 15),
    decide (x.toNat % 256 + e.toNat > 255)⟩)

/-- Turn the sum or difference of two packed decimal bytes into a packed decimal byte.  After an
addition a digit that ran over is corrected by six; after a subtraction one that borrowed. -/
def decimalAdjust (a : UInt8) (f : Flags) : Result :=
  let high := f.carry || (!f.subtract && decide (a.toNat > 0x99))
  let shifted := if high then (if f.subtract then a - 0x60 else a + 0x60) else a
  let lowNibble := f.halfCarry || (!f.subtract && decide (shifted.toNat % 16 > 9))
  let value := if lowNibble then (if f.subtract then shifted - 6 else shifted + 6) else shifted
  ⟨value, value == 0, f.subtract, false, high⟩

/-- A shifted or rotated byte with the bit that left it. -/
def shifted (value : UInt8) (out : Bool) : Result :=
  ⟨value, value == 0, false, false, out⟩

/-- The highest bit. -/
def topBit (v : UInt8) : Bool :=
  v.toNat.testBit 7

/-- The lowest bit. -/
def bottomBit (v : UInt8) : Bool :=
  v.toNat.testBit 0

/-- Shift left by one, with a given bit coming in. -/
def shiftLeft (v : UInt8) (bitIn : Bool) : Result :=
  shifted (UInt8.ofNat (v.toNat * 2 + bitIn.toNat)) (topBit v)

/-- Shift right by one, with a given bit coming in. -/
def shiftRight (v : UInt8) (bitIn : Bool) : Result :=
  shifted (UInt8.ofNat (v.toNat / 2 + 128 * bitIn.toNat)) (bottomBit v)

/-- Exchange the two halves of a byte. -/
def swap (v : UInt8) : Result :=
  shifted (UInt8.ofNat (v.toNat % 16 * 16 + v.toNat / 16)) false

/-- The flags of a bit test; the carry is left alone. -/
def testBit (n : Nat) (v : UInt8) (f : Flags) : Flags :=
  ⟨!v.toNat.testBit n, false, true, f.carry⟩

end Arithmetic

open Arithmetic in
/-- The rotation, shift or exchange of halves that a kind stands for, with the carry coming in.
The accumulator forms are those of the same name. -/
def Kind.shift? (v : UInt8) (carry : Bool) : Kind → Option Arithmetic.Result
  | rlc | rlca => some (shiftLeft v (topBit v))
  | rrc | rrca => some (shiftRight v (bottomBit v))
  | rl | rla => some (shiftLeft v carry)
  | rr | rra => some (shiftRight v carry)
  | sla => some (shiftLeft v false)
  | sra => some (shiftRight v (topBit v))
  | srl => some (shiftRight v false)
  | swap => some (Arithmetic.swap v)
  | _ => none

end Handheld
