/-
# Listings

A listing shows consecutive instructions of a memory, each with its address and its bytes.
-/
import Handheld.Instruction.Decode
import Handheld.Instruction.Text

namespace Handheld

/-- One instruction of a listing, with its address and its bytes. -/
structure Listing.Line where
  address : Address
  instruction : Instruction
  bytes : List UInt8
deriving DecidableEq

namespace Listing

namespace Line

/-- The address after the instruction. -/
def next (l : Line) : Address :=
  l.address + UInt16.ofNat l.bytes.length

/-- The address, the bytes in a field of eight characters, and the instruction with the target
of a relative jump in place of its offset. -/
def text (l : Line) : String :=
  let bytes := " ".intercalate (l.bytes.map Text.hex2)
  Text.hex4 l.address ++ "  " ++ Text.padRight 8 bytes ++ "  " ++
    l.instruction.textWith (l.instruction.branchTarget l.next)

end Line

variable {M : Type} [Memory M]

/-- The `n` bytes from an address on, wrapping at the top of the space. -/
def readBytes (m : M) (a : Address) : Nat → Except MemoryError (List UInt8)
  | 0 => .ok []
  | n + 1 => do
    let b ← Memory.read m a
    let bytes ← readBytes m (a + 1) n
    return b :: bytes

/-- The most bytes that a line can show. -/
def maxBytes : Nat := 3

/-- The line for the instruction at an address, and the address at which decoding goes on. -/
def line (m : M) (a : Address) : Except MemoryError (Line × Address) := do
  let (i, next) ← Instruction.decode m a
  let bytes ← readBytes m a (min (next - a).toNat maxBytes)
  return (⟨a, i, bytes⟩, next)

/-- The next `count` instructions from an address on. -/
def lines (m : M) (a : Address) : Nat → Except MemoryError (List Line)
  | 0 => .ok []
  | count + 1 => do
    let (l, next) ← line m a
    let rest ← lines m next count
    return l :: rest

end Listing

end Handheld
