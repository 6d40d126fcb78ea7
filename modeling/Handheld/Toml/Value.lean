/-
# Tables of the configuration format

The values that a TOML document describes, and how its keys and headers add to a table.  An
addition that would give a key twice, or open a table a second time, is refused.
-/

namespace Handheld.Toml

/-- How a table came to be, which decides how it may be added to. -/
inductive Origin where
  /-- As part of the path of a header. -/
  | implicit
  /-- By a header of its own. -/
  | header
  /-- As part of a key with dots. -/
  | dotted
  /-- In braces. -/
  | inline
deriving DecidableEq

/-- A value. -/
inductive Value where
  | string (s : String)
  | integer (n : Int)
  | float
  | boolean (b : Bool)
  | date
  | array (vs : List Value)
  | table (origin : Origin) (entries : List (String × Value))
  /-- Tables collected by headers in double brackets, the last one first. -/
  | tables (ts : List (List (String × Value)))

/-- The keys of a table with their values, in the order of the document. -/
abbrev Entries := List (String × Value)

/-! ## Tables -/

/-- Change or add the value of a key. -/
def update (key : String) (f : Option Value → Option Value) : Entries → Option Entries
  | [] => (f none).map fun v => [(key, v)]
  | (k, v) :: entries =>
    if k = key then (f (some v)).map fun v => (k, v) :: entries
    else (update key f entries).map ((k, v) :: ·)

/-- Add a value under a key with dots.  The table that it goes to is made by keys with dots alone,
unless the key has one part, and then it is the table at hand; `here` says whether the value may go
to this table.  On the way there may also be tables made by the paths of headers, and the last
tables of headers in double brackets. -/
def insert (v : Value) : (here : Bool) → (path : List String) → Entries → Option Entries
  | _, [], _ => none
  | here, [key], entries =>
    update key (fun old => if here && old.isNone then some v else none) entries
  | _, key :: path, entries =>
    update key (fun
      | none => (insert v true path []).map (.table .dotted)
      | some (.table .dotted sub) => (insert v true path sub).map (.table .dotted)
      | some (.table .implicit sub) => (insert v false path sub).map (.table .implicit)
      | some (.tables (t :: ts)) => (insert v false path t).map fun t => .tables (t :: ts)
      | some _ => none) entries

/-- Change the table at the end of a header's path, making the tables on the way. -/
def modifyAt (f : Entries → Option Entries) : (path : List String) → Entries → Option Entries
  | [], entries => f entries
  | key :: path, entries =>
    update key (fun
      | none => (modifyAt f path []).map (.table .implicit)
      | some (.table .inline _) => none
      | some (.table origin sub) => (modifyAt f path sub).map (.table origin)
      | some (.tables (t :: ts)) => (modifyAt f path t).map fun t => .tables (t :: ts)
      | some _ => none) entries

/-- Open the table of a header. -/
def openTable (path : List String) (entries : Entries) : Option Entries := do
  let key ← path.getLast?
  modifyAt (update key fun
    | none => some (.table .header [])
    | some (.table .implicit sub) => some (.table .header sub)
    | some _ => none) path.dropLast entries

/-- Open a further table of a header in double brackets. -/
def openTables (path : List String) (entries : Entries) : Option Entries := do
  let key ← path.getLast?
  modifyAt (update key fun
    | none => some (.tables [[]])
    | some (.tables ts) => some (.tables ([] :: ts))
    | some _ => none) path.dropLast entries

end Handheld.Toml
