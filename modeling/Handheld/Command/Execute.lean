/-
# Commands

Carrying out the commands of the program on a file system.  A command gives the text that it
prints and the code that it exits with: zero if all went well, one if it failed, and two if the
command line was wrong.
-/
import Handheld.Command.Arguments
import Handheld.Cartridge.File
import Handheld.Console
import Handheld.Instruction.Listing
import Handheld.Settings.Basic

namespace Handheld

/-- What a command leaves: its exit code, its text, and its complaints. -/
structure Command.Output where
  code : Nat := 0
  text : String := ""
  complaints : List String := []

namespace Command

def Output.failure (complaint : String) : Output :=
  { code := 1, complaints := [complaint] }

/-- Lines of text. -/
def lines (ls : List String) : String :=
  String.join (ls.map (· ++ "\n"))

variable {m : Type → Type} [Monad m] [FileSystem m]

/-- Go on with the cartridge in a file, or fail. -/
def withCartridge (path : String) (k : Cartridge → m Output) : m Output := do
  match ← Cartridge.ofFile path with
  | .ok (c, _) => k c
  | .error e => return .failure ("Failed to load ROM " ++ path ++ ": " ++ e.message)

/-- Run a console, save the memory of its cartridge, and print how the run ended. -/
def runConsole (limits : Run.Limits) (console : Console) : m Output := do
  match Run.unobserved limits console.machine with
  | none => return .failure "The run did not end"
  | some r =>
    let saved ← match r.machine.memory.board.cartridge with
      | some c => c.save
      | none => pure true
    let complaints := if saved then [] else ["Failed to write save RAM"]
    let state := r.machine.cpu.registers.summary
    match r.result with
    | .ok report =>
      let ending := report.stop.name ++ " after " ++ toString report.instructions ++
        " instructions, " ++ toString report.cycles ++ " cycles"
      return { text := lines [ending, state], complaints }
    | .error fault =>
      return { code := 1, text := lines [state], complaints := complaints ++ [fault.message] }

/-- The start-up program in a file, if one is asked for. -/
def readBoot : Option String → m (Except String (Option ByteArray))
  | none => return .ok none
  | some path => do
    match ← FileSystem.read path with
    | some program => return .ok (some program)
    | none => return .error ("Failed to load boot ROM " ++ path)

/-- The text of `header`. -/
def headerText (c : Cartridge) : String :=
  let h := c.header
  let s := c.checksums
  let yes (b : Bool) := if b then "true" else "false"
  lines
    ["Title:      " ++ h.title,
     "Type:       " ++ Text.hex2 h.typeCode ++ " (" ++ c.mapper.name ++ ")",
     "ROM banks:  " ++ toString c.romBanks,
     "RAM banks:  " ++ toString c.ramBanks,
     "Battery:    " ++ yes h.hasBattery,
     "Version:    " ++ toString h.version.toNat,
     "Logo:       " ++ (if h.logoValid then "ok" else "bad"),
     "Header sum: " ++ Text.hex2 s.headerStored ++ " (computed " ++
       Text.hex2 s.headerComputed ++ ")",
     "Global sum: " ++ Text.hex4 s.romStored ++ " (computed " ++ Text.hex4 s.romComputed ++ ")"]

/-- Carry out a command with given settings.  What the command line says goes before the
settings. -/
def execute (settings : Settings) : Command → m Output
  | run rom limits boot model =>
    withCartridge rom fun c => do
      match ← readBoot (boot <|> settings.bootProgram) with
      | .error e => return .failure e
      | .ok program =>
        let standard := settings.limits
        let limits : Run.Limits :=
          ⟨limits.cycles <|> standard.cycles, limits.instructions <|> standard.instructions⟩
        runConsole limits (.start c (model.getD settings.model) program)
  | disasm rom start count =>
    withCartridge rom fun c => do
      match Listing.lines (Console.start c .standard).machine.memory start count with
      | .ok ls => return { text := lines (ls.map Listing.Line.text) }
      | .error e => return .failure e.message
  | header rom => withCartridge rom fun c => return { text := headerText c }

/-- What the program says about its command line. -/
def usage : String :=
  "usage: sm83-emu [--debug] [--config FILE] (run | disasm | header) ROM [OPTIONS]"

/-- The whole program, given its arguments and the variables of its environment. -/
def program (args : List String) (environment : String → Option String) : m Output := do
  match Arguments.parse? args with
  | none => return { code := 2, complaints := [usage] }
  | some a =>
    let settings ← FileSystem.read (a.config.getD (Settings.standardPath environment))
    execute (Settings.ofFile settings) a.command

end Command

end Handheld
