/-
# The program

Runs the command line on the files of the system.
-/
import Handheld.Command.Execute

namespace Handheld

/-- The files of the system. -/
instance : FileSystem IO where
  read path := do
    try
      return some (← IO.FS.readBinFile path)
    catch _ => return none
  write path contents := do
    try
      IO.FS.writeBinFile path contents
      return true
    catch _ => return false

end Handheld

open Handheld in
/-- Run the program and leave its exit code. -/
def main (args : List String) : IO UInt32 := do
  let configHome ← IO.getEnv "XDG_CONFIG_HOME"
  let home ← IO.getEnv "HOME"
  let environment (name : String) : Option String :=
    [("XDG_CONFIG_HOME", configHome), ("HOME", home)].lookup name |>.join
  let output ← Command.program args environment
  for complaint in output.complaints do
    IO.eprintln complaint
  IO.print output.text
  return UInt32.ofNat output.code
