/-
# Assembly

Writing the machine code of instructions into a memory, one after the other.  An instruction
without machine code is an error, or is left out, as the policy says; a memory that refuses a
byte is an error under either.
-/
import Handheld.Instruction.Encode
import Handheld.Instruction.Text
import Handheld.Memory.Basic

namespace Handheld

/-- The reasons for which an instruction is not written. -/
inductive AssemblyError where
  /-- No opcode stands for the instruction. -/
  | noEncoding (i : Instruction)
  | memory (e : MemoryError)
deriving DecidableEq

def AssemblyError.message : AssemblyError → String
  | noEncoding i => "no encoding for `" ++ i.text ++ "`"
  | memory e => e.message

/-- What to do with an instruction that has no machine code. -/
inductive AssemblyPolicy where
  | strict
  /-- Leave it out, for a program that is still being written. -/
  | bestEffort
deriving DecidableEq, Inhabited

def AssemblyPolicy.name : AssemblyPolicy → String
  | strict => "Strict"
  | bestEffort => "BestEffort"

namespace Assembly

variable {M : Type} [Memory M]

/-- Write an instruction at `pc`; gives the address after it. -/
def write (m : M) (pc : Address) (i : Instruction) : Except AssemblyError Address × M :=
  match i.encode with
  | none => (.error (.noEncoding i), m)
  | some bytes =>
    match Memory.load m pc bytes with
    | (.ok _, m) => (.ok (pc + UInt16.ofNat bytes.length), m)
    | (.error e, m) => (.error (.memory e), m)

/-- Write an instruction as the policy says.  One that is left out does not move `pc`. -/
def emit (policy : AssemblyPolicy) (m : M) (pc : Address) (i : Instruction) :
    Except AssemblyError Address × M :=
  match policy, write m pc i with
  | .bestEffort, (.error (.noEncoding _), m) => (.ok pc, m)
  | _, r => r

/-- Write instructions one after the other up to the first that fails; gives the address after
the last. -/
def emitAll (policy : AssemblyPolicy) (m : M) (pc : Address) :
    List Instruction → Except AssemblyError Address × M
  | [] => (.ok pc, m)
  | i :: program =>
    match emit policy m pc i with
    | (.ok pc, m) => emitAll policy m pc program
    | (.error e, m) => (.error e, m)

end Assembly

end Handheld
