/-
# Cartridges in files

Loading a cartridge from a file.  A cartridge with a battery keeps its memory in a second file,
of the same name with the ending `sav`: it is read when the cartridge is loaded, and written when
the cartridge is saved.
-/
import Handheld.Cartridge.Basic
import Handheld.FileSystem

namespace Handheld.Cartridge

/-- A file name with its ending replaced by `sav`, or added to a name without one.  A dot at the
start of a name begins no ending.  A name of one dot and an ending has none to replace it by: the
two dots that are left name the directory above. -/
def saveName (name : String) : String :=
  let parts := name.splitOn "."
  let stem := ".".intercalate parts.dropLast
  if parts.length < 2 ∨ stem.isEmpty then name ++ ".sav"
  else if stem = "." then ".."
  else stem ++ ".sav"

/-- The path of the file that keeps the memory of a cartridge, by the path of the cartridge. -/
def savePathOf (path : String) : String :=
  let parts := path.splitOn "/"
  "/".intercalate (parts.dropLast ++ [saveName (parts.getLastD "")])

variable {m : Type → Type} [Monad m] [FileSystem m]

/-- Load a cartridge from a file, with its memory if it has a battery. -/
def ofFile (path : String) : m (Except CartridgeError (Cartridge × List Notice)) := do
  let some image ← FileSystem.read path | return .error .unreadable
  match load image with
  | .error e => return .error e
  | .ok (c, notices) =>
    if c.battery && !c.ram.isEmpty then
      let savePath := savePathOf path
      let c := { c with savePath := some savePath }
      match ← FileSystem.read savePath with
      | some saved =>
        return .ok ({ c with ram := Bytes.overlay c.ram saved }, notices ++ [.restored savePath])
      | none => return .ok (c, notices)
    else return .ok (c, notices)

/-- Write the memory of a cartridge to its file, if it has one; answers whether that worked. -/
def save (c : Cartridge) : m Bool :=
  match c.savePath with
  | some path => if c.battery then FileSystem.write path c.ram else pure true
  | none => pure true

end Handheld.Cartridge
