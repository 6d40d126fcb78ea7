/-
# Files

What commands need of a file system, and a file system held in memory.  A path in memory is
relative to a working directory; in it `.` names the directory itself and `..` the one above.
Every part of a path but the last must lead through a directory that is there.
-/

namespace Handheld

/-- Reading and writing whole files.  A file that cannot be read has no contents; writing answers
whether it worked. -/
class FileSystem (m : Type → Type) where
  read : String → m (Option ByteArray)
  write : String → ByteArray → m Bool

/-- The name of a file below the root, as its directories and its own name. -/
abbrev FileTree.Place := List String

/-- Files in memory.  The directories are those above the files, and the working directory with
those above it. -/
structure FileTree where
  working : FileTree.Place := []
  files : List (FileTree.Place × ByteArray) := []

namespace FileTree

/-- The longest name that a file can have, in bytes. -/
def longestName : Nat := 255

/-- The longest path that can name a file, in bytes. -/
def longestPath : Nat := 4095

/-- The place that one part of a path leads to. -/
def enter (dir : Place) (part : String) : Place :=
  if part = "" ∨ part = "." then dir
  else if part = ".." then dir.dropLast
  else dir ++ [part]

/-- The directory in which a path begins. -/
def origin (t : FileTree) (path : String) : Place :=
  if path.startsWith "/" then [] else t.working

/-- The contents of the file at a place. -/
def get? (t : FileTree) (p : Place) : Option ByteArray :=
  t.files.lookup p

/-- Whether there is a directory at a place. -/
def isDirectory (t : FileTree) (p : Place) : Bool :=
  p.isPrefixOf t.working || t.files.any fun (q, _) => p.length < q.length && p.isPrefixOf q

/-- Put a file at a place, over any that is there. -/
def put (t : FileTree) (p : Place) (contents : ByteArray) : FileTree :=
  { t with files := (p, contents) :: t.files.filter (·.1 != p) }

/-- Put a file where a path leads, making the directories on the way. -/
def add (t : FileTree) (path : String) (contents : ByteArray) : FileTree :=
  t.put ((path.splitOn "/").foldl enter (t.origin path)) contents

/-- Go on from a place along a path, through directories only. -/
def walk (t : FileTree) (p : Place) : List String → Option Place
  | [] => some p
  | part :: parts =>
    if t.isDirectory p ∧ part.utf8ByteSize ≤ longestName then walk t (enter p part) parts
    else none

/-- The place that a path names, if its way is there. -/
def place? (t : FileTree) (path : String) : Option Place :=
  if path.utf8ByteSize ≤ longestPath then t.walk (t.origin path) (path.splitOn "/") else none

/-- The contents of the file that a path names. -/
def read? (t : FileTree) (path : String) : Option ByteArray :=
  (t.place? path).bind t.get?

/-- Write the file that a path names.  A directory is not overwritten. -/
def write? (t : FileTree) (path : String) (contents : ByteArray) : Option FileTree := do
  let p ← t.place? path
  if t.isDirectory p then none else some (t.put p contents)

instance : FileSystem (StateM FileTree) where
  read path := return (← get).read? path
  write path contents := do
    match (← get).write? path contents with
    | some t =>
      set t
      return true
    | none => return false

end FileTree

end Handheld
