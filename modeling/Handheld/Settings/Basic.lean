/-
# Settings

What a settings file can say about runs.  A file that is missing, or that is no settings file,
leaves everything at its standard value.
-/
import Handheld.Toml.Document
import Handheld.Run.Snapshots

namespace Handheld

/-- The settings of runs. -/
structure Settings where
  model : Model := .standard
  bootProgram : Option String := none
  maxCycles : Option Nat := none
  maxInstructions : Option Nat := none
  snapshotInterval : Nat := Run.standardInterval
deriving DecidableEq

namespace Settings

open Toml

/-- The models by their names in settings. -/
def model? (name : String) : Option Model :=
  [("dmg0", .dmg0), ("dmg", .dmg), ("cgb", .cgb)].lookup name

/-- A model: its name, or an empty table or array under its name. -/
def readModel : Value → Option Model
  | .string name => model? name
  | .table _ [(name, .array [])] | .table _ [(name, .table _ [])] => model? name
  | _ => none

/-- A count that is not too large. -/
def readCount : Value → Option Nat
  | .integer n => if 0 ≤ n ∧ n < Run.countBound then some n.toNat else none
  | _ => none

def readPath : Value → Option String
  | .string s => some s
  | _ => none

/-- Take one entry into the settings.  Entries with other keys are ignored. -/
def read (s : Settings) : String × Value → Option Settings
  | ("model", v) => (readModel v).map fun model => { s with model }
  | ("boot-rom", v) => (readPath v).map fun path => { s with bootProgram := some path }
  | ("max-cycles", v) => (readCount v).map fun n => { s with maxCycles := some n }
  | ("max-instructions", v) => (readCount v).map fun n => { s with maxInstructions := some n }
  | ("snapshot-interval", v) => (readCount v).map fun n => { s with snapshotInterval := n }
  | _ => some s

/-- The settings in a text, if all of it can be understood. -/
def parse? (text : String) : Option Settings := do
  let entries ← Toml.parse text
  entries.foldlM read {}

/-- The settings in a file with given contents, or without any. -/
def ofFile (contents : Option ByteArray) : Settings :=
  ((contents.bind String.fromUTF8?).bind parse?).getD {}

/-- The bounds on a run. -/
def limits (s : Settings) : Run.Limits :=
  ⟨s.maxCycles, s.maxInstructions⟩

/-- The path of the settings file, by the variables of the environment that name directories. -/
def standardPath (environment : String → Option String) : String :=
  match environment "XDG_CONFIG_HOME", environment "HOME" with
  | some dir, _ => join dir "sm83-emu/sm83.toml"
  | none, some dir => join dir ".config/sm83-emu/sm83.toml"
  | none, none => "sm83.toml"
where
  /-- A path below a directory. -/
  join (dir path : String) : String :=
    if dir.isEmpty || dir.endsWith "/" then dir ++ path else dir ++ "/" ++ path

end Settings

end Handheld
