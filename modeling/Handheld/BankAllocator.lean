/-
# Allocating space in banks

For laying out data in a cartridge that is being made: an allocator keeps the free spans of every
bank and hands out blocks of them.  A block is taken from the smallest span that it fits in; of
equal spans the one in the lowest bank, at the lowest place, is taken.

A place and a size that a caller gives are added up.  What becomes of a sum that has no room is a
parameter of the calls, and a call has no result if the program stops at the sum.
-/
import Handheld.Cartridge.Basic
import Handheld.Overflow

namespace Handheld

/-- What banks are banks of: program or memory. -/
inductive BankSpace where
  | rom
  | ram
deriving DecidableEq, Inhabited

namespace BankSpace

def name : BankSpace → String
  | rom => "Rom"
  | ram => "Ram"

def bankSize : BankSpace → Nat
  | rom => Cartridge.romBankSize
  | ram => Cartridge.ramBankSize

/-- The address at which the first byte of a bank shows. -/
def window : BankSpace → (bank : Nat) → Address
  | rom, 0 => 0x0000
  | rom, _ => 0x4000
  | ram, _ => 0xA000

end BankSpace

/-- Consecutive places of a bank, from `start` up to `stop`. -/
structure Span where
  start : Nat
  stop : Nat
deriving DecidableEq, Inhabited

def Span.length (s : Span) : Nat :=
  s.stop - s.start

/-- A block handed out; `address` is where it shows while its bank is selected. -/
structure Block where
  bank : Nat
  address : Address
  size : Nat
deriving DecidableEq, Inhabited

/-- The place in its bank of a block that does not show before it. -/
def Block.offset (space : BankSpace) (b : Block) : Nat :=
  b.address.toNat - (space.window b.bank).toNat

/-- The reasons for which the allocator refuses. -/
inductive AllocationError where
  | outOfMemory (size : Nat)
  | invalidBank (bank : Nat)
  | notAllocated (b : Block)
deriving DecidableEq

def AllocationError.message : AllocationError → String
  | outOfMemory n => "no free range of " ++ toString n ++ " bytes"
  | invalidBank b => "bank " ++ toString b ++ " does not exist"
  | notAllocated b =>
    "range $" ++ Text.hex4 b.address ++ "+" ++ toString b.size ++ " in bank " ++
      toString b.bank ++ " is not allocated"

/-- The free spans of every bank, in order and apart from each other. -/
structure BankAllocator where
  space : BankSpace
  free : List (List Span)
deriving DecidableEq

namespace BankAllocator

/-- An allocator with all of its banks free. -/
def ofBanks (space : BankSpace) (banks : Nat) : BankAllocator where
  space
  free := List.replicate banks [⟨0, space.bankSize⟩]

def banks (a : BankAllocator) : Nat :=
  a.free.length

/-- The number of free bytes in a bank. -/
def available (a : BankAllocator) (o : Overflow) (bank : Nat) : Option Nat :=
  o.sum? ((a.free.getD bank []).map Span.length)

/-- The block at a place of a bank. -/
def block (a : BankAllocator) (bank offset size : Nat) : Block :=
  ⟨bank, a.space.window bank + UInt16.ofNat offset, size⟩

/-- A free span with its bank. -/
structure Candidate where
  bank : Nat
  span : Span

namespace Candidate

/-- Whether a candidate is to be taken before another: the shorter first, then the lower bank,
then the lower place. -/
def before (x y : Candidate) : Bool :=
  if x.span.length ≠ y.span.length then x.span.length < y.span.length
  else if x.bank ≠ y.bank then x.bank < y.bank
  else x.span.start < y.span.start

/-- The one of two candidates to take; of two alike the first. -/
def better (x y : Candidate) : Candidate :=
  if y.before x then y else x

end Candidate

/-- The free spans of at least a size, in one bank or in all. -/
def candidates (a : BankAllocator) (size : Nat) (bank : Option Nat) : List Candidate :=
  a.free.zipIdx.flatMap fun (spans, b) =>
    if bank.all (· = b) then
      (spans.filter (size ≤ ·.length)).map fun s => ⟨b, s⟩
    else []

/-- The candidate to take. -/
def best? : List Candidate → Option Candidate
  | [] => none
  | c :: cs => some (cs.foldl Candidate.better c)

/-- Take bytes away from the start of a span in a list. -/
def takeFrom (s : Span) (size : Nat) : List Span → List Span
  | [] => []
  | t :: spans =>
    if t = s then
      if s.start + size = s.stop then spans else ⟨s.start + size, s.stop⟩ :: spans
    else t :: takeFrom s size spans

/-- Hand out a block of a size, from a given bank or from any. -/
def allocate (a : BankAllocator) (size : Nat) (bank : Option Nat) :
    Except AllocationError Block × BankAllocator :=
  match bank.filter (a.banks ≤ ·) with
  | some b => (.error (.invalidBank b), a)
  | none =>
    if size = 0 then (.error (.outOfMemory size), a)
    else
      match best? (a.candidates size bank) with
      | none => (.error (.outOfMemory size), a)
      | some c =>
        (.ok (a.block c.bank c.span.start size),
          { a with free := a.free.modify c.bank (takeFrom c.span size) })

/-- Cut the places from `start` up to `stop` out of the first span that holds them all. -/
def cut? (start stop : Nat) : List Span → Option (List Span)
  | [] => none
  | s :: spans =>
    if s.start ≤ start ∧ stop ≤ s.stop then
      some ((if s.start < start then [⟨s.start, start⟩] else []) ++
        (if stop < s.stop then [⟨stop, s.stop⟩] else []) ++ spans)
    else (cut? start stop spans).map (s :: ·)

/-- Take a fixed block of a bank. -/
def reserve (a : BankAllocator) (o : Overflow) (bank offset size : Nat) :
    Option (Except AllocationError Block × BankAllocator) :=
  match a.free[bank]? with
  | none => some (.error (.invalidBank bank), a)
  | some spans =>
    (o.add? offset size).map fun stop =>
      match cut? offset stop spans with
      | none => (.error (.outOfMemory size), a)
      | some spans =>
        (.ok (a.block bank offset size), { a with free := a.free.set bank spans })

/-- Join a span with the first of a list that starts where it ends. -/
def join (s : Span) : List Span → List Span
  | [] => [s]
  | t :: spans => if s.stop = t.start then ⟨s.start, t.stop⟩ :: spans else s :: t :: spans

/-- Whether every span of a list starts at `place` or after it. -/
def startsFrom (place : Nat) : List Span → Bool
  | [] => true
  | t :: _ => place ≤ t.start

/-- Put a span back among spans in order, joining it with its two neighbours; nothing if it meets
one of them. -/
def insert? (s : Span) : List Span → Option (List Span)
  | [] => some [s]
  | t :: spans =>
    if t.start < s.start then
      if startsFrom s.start spans then
        if s.start < t.stop then none else (insert? s spans).map (join t)
      else (insert? s spans).map (t :: ·)
    else if t.start < s.stop then none
    else some (join s (t :: spans))

/-- Take a block back. -/
def release (a : BankAllocator) (o : Overflow) (b : Block) :
    Option (Except AllocationError Unit × BankAllocator) :=
  match a.free[b.bank]? with
  | none => some (.error (.invalidBank b.bank), a)
  | some spans =>
    if b.address.toNat < (a.space.window b.bank).toNat then some (.error (.notAllocated b), a)
    else
      let start := b.offset a.space
      (o.add? start b.size).map fun stop =>
        if b.size = 0 ∨ a.space.bankSize < stop then (.error (.notAllocated b), a)
        else
          match insert? ⟨start, stop⟩ spans with
          | none => (.error (.notAllocated b), a)
          | some spans => (.ok (), { a with free := a.free.set b.bank spans })

end BankAllocator

end Handheld
