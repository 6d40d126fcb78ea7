/-
# Byte-addressed memory

What the processor and the instruction codec need of memory: reading a byte, writing a byte, and
the ways in which either may fail.  `Memory M` makes a type of stores available to them; words
and blocks of bytes are read and written in terms of single bytes.
-/
import Handheld.Word
import Handheld.Text.Hex

namespace Handheld

/-- The accesses that a region of memory admits. -/
inductive Access where
  | read
  | write
  | readWrite
deriving DecidableEq, Inhabited

namespace Access

def all : List Access :=
  [read, write, readWrite]

/-- The word for an access in messages. -/
def name : Access → String
  | read => "Read"
  | write => "Write"
  | readWrite => "ReadWrite"

def readable : Access → Bool
  | read | readWrite => true
  | write => false

def writable : Access → Bool
  | write | readWrite => true
  | read => false

end Access

/-- The reasons for which an access to memory fails. -/
inductive MemoryError where
  /-- Nothing answers at the address. -/
  | notMapped (address : Address)
  /-- The section that answers does not admit the access. -/
  | violation (address : Address) (section_ : String) (access : Access)
deriving DecidableEq, Inhabited

namespace MemoryError

def message : MemoryError → String
  | notMapped a => "address $" ++ Text.hex4 a ++ " is not mapped"
  | violation a s access =>
    access.name ++ " access to $" ++ Text.hex4 a ++ " violates section '" ++ s ++ "'"

end MemoryError

/-- A type of byte stores.  Reading leaves a store as it is; writing answers whether it worked
and gives the store afterwards. -/
class Memory (M : Type) where
  read : M → Address → Except MemoryError UInt8
  write : M → Address → UInt8 → Except MemoryError Unit × M

namespace Memory

variable {M : Type} [Memory M]

/-- A little-endian word; the address of its high byte wraps at the top of the space. -/
def read16 (m : M) (a : Address) : Except MemoryError UInt16 := do
  let lo ← read m a
  let hi ← read m (a + 1)
  return Word.ofBytes hi lo

/-- Write bytes to consecutive addresses, wrapping at the top of the space, up to the first
that fails.  What was written before a failure stays written. -/
def load (m : M) (a : Address) : List UInt8 → Except MemoryError Unit × M
  | [] => (.ok (), m)
  | b :: bytes =>
    match write m a b with
    | (.ok _, m) => load m (a + 1) bytes
    | (.error e, m) => (.error e, m)

end Memory

end Handheld
