/-
# Random-access memory

A named array of bytes at a fixed place in the address space, with a rule for the accesses that it
admits.  It serves as a section of a map, and on its own as a memory.
-/
import Handheld.Bytes
import Handheld.Memory.Basic

namespace Handheld

/-- The most bytes that memory can have from an address on: none lies past the end of the address
space, and none past the longest length that a section can have. -/
def Ram.room (start : Address) : Nat :=
  min (0x10000 - start.toNat) 0xFFFF

/-- Bytes at consecutive addresses from `start` on. -/
structure Ram where
  name : String
  start : Address
  bytes : ByteArray
  access : Access
  size_le : bytes.size ≤ Ram.room start

namespace Ram

/-- Memory with given contents, as far as there is room for them; the rest is dropped. -/
def ofBytes (name : String) (start : Address) (bytes : ByteArray) (access : Access) : Ram where
  name
  start
  bytes := bytes.extract 0 (room start)
  access
  size_le := by
    rw [ByteArray.size_extract]
    omega

theorem bytes_ofBytes (name : String) (start : Address) (bytes : ByteArray) (access : Access) :
    (ofBytes name start bytes access).bytes = bytes.extract 0 (room start) :=
  rfl

/-- Zeroed memory that admits every access. -/
def zeroed (name : String) (start : Address) (length : Nat) : Ram :=
  ofBytes name start (Bytes.fill length 0) .readWrite

def length (r : Ram) : Nat :=
  r.bytes.size

/-- Memory does not go past the end of the address space. -/
theorem stop_le (r : Ram) : r.start.toNat + r.length ≤ 0x10000 := by
  have hsize := r.size_le
  have hstart := r.start.toNat_lt
  unfold room at hsize
  unfold length
  omega

/-- The place of an address among the bytes, if it has one. -/
def offset (r : Ram) (a : Address) : Option Nat :=
  if r.start ≤ a ∧ a.toNat - r.start.toNat < r.bytes.size then some (a.toNat - r.start.toNat)
  else none

/-- The byte at an address, whatever the access rule. -/
def get (r : Ram) (a : Address) : UInt8 :=
  match r.offset a with
  | some i => Bytes.get r.bytes i 0xFF
  | none => 0xFF

/-- Change the byte at an address, whatever the access rule. -/
def put (r : Ram) (a : Address) (v : UInt8) : Ram :=
  match r.offset a with
  | some i =>
    { r with
      bytes := Bytes.put r.bytes i v
      size_le := Nat.le_trans (Nat.le_of_eq (Bytes.size_put _ _ _)) r.size_le }
  | none => r

/-- The error of an access, if it fails. -/
def refusal (r : Ram) (a : Address) (access : Access) (admitted : Bool) : Option MemoryError :=
  match r.offset a with
  | none => some (.notMapped a)
  | some _ => if admitted then none else some (.violation a r.name access)

instance : Memory Ram where
  read r a :=
    match r.refusal a .read r.access.readable with
    | some e => .error e
    | none => .ok (r.get a)
  write r a v :=
    match r.refusal a .write r.access.writable with
    | some e => (.error e, r)
    | none => (.ok (), r.put a v)

end Ram

end Handheld
