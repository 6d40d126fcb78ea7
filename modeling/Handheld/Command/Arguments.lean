/-
# Command lines

Reading the arguments of the program.  Options may stand before or after the other arguments;
`--` ends them.  Two options belong to every command and may stand before its name too; where one
of them stands on both sides, the later counts.
-/
import Handheld.Model
import Handheld.Memory.Basic
import Handheld.Run.Basic
import Handheld.Text.Hex

namespace Handheld

/-- What the program can be asked to do. -/
inductive Command where
  /-- Run a cartridge and print the state of the processor at the end. -/
  | run (rom : String) (limits : Run.Limits) (bootProgram : Option String)
      (model : Option Model)
  /-- Print a listing. -/
  | disasm (rom : String) (start : Address) (count : Nat)
  /-- Print the header of a cartridge. -/
  | header (rom : String)

/-- The arguments of the program. -/
structure Arguments where
  debug : Bool := false
  config : Option String := none
  command : Command

namespace Arguments

/-! ## Values -/

/-- The reasons for which digits are no address. -/
inductive NumeralError where
  | empty
  | invalidDigit
  | tooLarge
deriving DecidableEq

def NumeralError.message : NumeralError → String
  | empty => "cannot parse integer from empty string"
  | invalidDigit => "invalid digit found in string"
  | tooLarge => "number too large to fit in target type"

/-- Read the digits of a word after a value read so far, up to the first that is none or that
makes the value too large. -/
def readWord (n : Nat) : List Char → Except NumeralError Nat
  | [] => .ok n
  | c :: s =>
    match Text.digitValue? c with
    | none => .error .invalidDigit
    | some d => if n * 16 + d < 0x10000 then readWord (n * 16 + d) s else .error .tooLarge

/-- A word in hexadecimal digits, with or without a plus sign. -/
def word : List Char → Except NumeralError Nat
  | [] => .error .empty
  | ['+'] => .error .invalidDigit
  | '+' :: s => readWord 0 s
  | s => readWord 0 s

/-- An address in hexadecimal digits, which `0x` or `$` may precede; otherwise a message. -/
def address (s : String) : Except String Address :=
  let digits := match s.toList with
    | '0' :: 'x' :: digits => digits
    | '$' :: digits => digits
    | digits => digits
  match word digits with
  | .ok n => .ok (UInt16.ofNat n)
  | .error e => .error ("bad address '" ++ s ++ "': " ++ e.message)

/-- A model by its name; otherwise a message. -/
def model (s : String) : Except String Model :=
  match Model.ofName? s with
  | some m => .ok m
  | none => .error ("unknown model '" ++ s ++ "'")

/-- A count in decimal digits, with or without a plus sign, that is not too large. -/
def count? (s : String) : Option Nat :=
  let digits := match s.toList with
    | '+' :: digits => digits
    | digits => digits
  if digits.isEmpty || !digits.all Char.isDigit then none
  else
    let n := digits.foldl (fun n c => n * 10 + (c.toNat - 48)) 0
    if n < Run.countBound then some n else none

/-- A path; the empty text is none. -/
def path? (s : String) : Option String :=
  if s.isEmpty then none else some s

/-! ## Options and words -/

/-- What stands on a command line: options with their values, and words. -/
structure Parts where
  options : List (String × String) := []
  words : List String := []

/-- Add an option, which must not be there already. -/
def Parts.addOption (p : Parts) (name value : String) : Option Parts :=
  if (p.options.lookup name).isSome then none
  else some { p with options := (name, value) :: p.options }

/-- The options that stand alone. -/
def flags : List String := ["--debug"]

/-- The options with a value that belong to every command. -/
def commonOptions : List String := ["--config"]

/-- Whether an argument is an option or looks like one. -/
def isOption (a : String) : Bool :=
  a.startsWith "-" && a ≠ "-"

/-- An argument at its first `=`. -/
def splitValue (a : String) : String × Option String :=
  match a.splitOn "=" with
  | name :: part :: parts => (name, some ("=".intercalate (part :: parts)))
  | _ => (a, none)

/-- Where the reading of a command line stands. -/
inductive Awaiting where
  | anything
  /-- The value of an option. -/
  | value (option : String)
  /-- Words only. -/
  | words
deriving DecidableEq

/-- Read one argument, given the options that take a value. -/
def readOne (valued : List String) (p : Parts) (state : Awaiting) (a : String) :
    Option (Parts × Awaiting) :=
  let word := some ({ p with words := p.words ++ [a] }, state)
  match state with
  | .words => word
  | .value option =>
    if isOption a then none else (p.addOption option a).map (·, .anything)
  | .anything =>
    if a = "--" then some (p, .words)
    else if !isOption a then word
    else
      match splitValue a with
      | (name, none) =>
        if name ∈ flags then (p.addOption name "").map (·, .anything)
        else if name ∈ valued then some (p, .value name)
        else none
      | (name, some value) =>
        if name ∈ valued then (p.addOption name value).map (·, .anything) else none

/-- Read a command line from a state on. -/
def readAll (valued : List String) (p : Parts) (state : Awaiting) : List String → Option Parts
  | [] =>
    match state with
    | .value _ => none
    | _ => some p
  | a :: args => do
    let (p, state) ← readOne valued p state a
    readAll valued p state args

/-- Read up to the name of a command; gives the options in front of it, the name and the rest. -/
def readName (p : Parts) (state : Awaiting) :
    List String → Option (Parts × String × List String)
  | [] => none
  | a :: args => do
    let (p, state) ← readOne commonOptions p state a
    match p.words with
    | [] => readName p state args
    | name :: _ => if state = .anything then some (p, name, args) else none

/-- The value of an option that may be missing but must be understood. -/
def Parts.optional {α : Type} (p : Parts) (name : String) (read : String → Option α) :
    Option (Option α) :=
  match p.options.lookup name with
  | none => some none
  | some s => (read s).map some

/-- The one word of a command. -/
def Parts.rom (p : Parts) : Option String :=
  match p.words with
  | [rom] => path? rom
  | _ => none

/-! ## Commands -/

/-- The options with a value of a command. -/
def valuedOptions : (name : String) → List String
  | "run" => ["--max-cycles", "--max-instructions", "--boot-rom", "--model"] ++ commonOptions
  | "disasm" => ["--start", "--count"] ++ commonOptions
  | _ => commonOptions

/-- A command from its name and the parts that follow it. -/
def readCommand (name : String) (p : Parts) : Option Command := do
  match name with
  | "run" =>
    let cycles ← p.optional "--max-cycles" count?
    let instructions ← p.optional "--max-instructions" count?
    let boot ← p.optional "--boot-rom" path?
    let model ← p.optional "--model" fun s => (model s).toOption
    return .run (← p.rom) ⟨cycles, instructions⟩ boot model
  | "disasm" =>
    let start ← p.optional "--start" fun s => (address s).toOption
    let count ← p.optional "--count" count?
    return .disasm (← p.rom) (start.getD 0x0100) (count.getD 32)
  | "header" => return .header (← p.rom)
  | _ => none

/-- The arguments that a command line stands for, unless it breaks a rule. -/
def parse? (args : List String) : Option Arguments := do
  let (before, name, args) ← readName {} .anything args
  let p ← readAll (valuedOptions name) {} .anything args
  let command ← readCommand name p
  let outer ← before.optional "--config" path?
  let config ← p.optional "--config" path?
  let debug := (p.options ++ before.options).any (·.1 = "--debug")
  return { debug, config := config <|> outer, command }

end Arguments

end Handheld
