/-
# Documents of the configuration format

Reading a whole TOML document: tables of keys and values, with strings, whole numbers, fractions,
truth values, dates, arrays and inline tables.  A document that breaks a rule of the format, or in
which values lie too deep in one another, has no value.
-/
import Handheld.Toml.Number

namespace Handheld.Toml

/-! ## Values and documents -/

mutual

/-- A value.  It may hold brackets and braces `depth` deep. -/
def value : (fuel depth : Nat) → List Char → Option (Value × List Char)
  | 0, _, _ => none
  | fuel + 1, depth, s =>
    match s, depth with
    | '"' :: _, _ | '\'' :: _, _ =>
      (string s.length s).map fun (text, s) => (.string (String.ofList text), s)
    | '[' :: s, depth + 1 => (elements fuel depth s).map fun (vs, s) => (.array vs, s)
    | '{' :: s, depth + 1 =>
      (fields fuel depth [] s).map fun (entries, s) => (.table .inline entries, s)
    | s, _ => bare s

/-- The elements of an array up to its closing bracket. -/
def elements : (fuel depth : Nat) → List Char → Option (List Value × List Char)
  | 0, _, _ => none
  | fuel + 1, depth, s => do
    let s ← skipLines (s.length + 1) s
    match s with
    | ']' :: s => some ([], s)
    | s =>
      let (v, s) ← value fuel depth s
      let s ← skipLines (s.length + 1) s
      match s with
      | ',' :: s =>
        let (vs, s) ← elements fuel depth s
        some (v :: vs, s)
      | ']' :: s => some ([v], s)
      | _ => none

/-- The fields of an inline table up to its closing brace, added to those read so far.  Line ends
and comments may stand between all its parts. -/
def fields : (fuel depth : Nat) → Entries → List Char → Option (Entries × List Char)
  | 0, _, _, _ => none
  | fuel + 1, depth, entries, s => do
    let s ← skipLines (s.length + 1) s
    match s with
    | '}' :: s => some (entries, s)
    | s =>
      let (path, s) ← key s
      let '=' :: s ← skipLines (s.length + 1) s | none
      let s ← skipLines (s.length + 1) s
      let (v, s) ← value fuel depth s
      let entries ← insert v true path entries
      let s ← skipLines (s.length + 1) s
      match s with
      | ',' :: s => fields fuel depth entries s
      | '}' :: s => some (entries, s)
      | _ => none

end

/-- A document under way: all its entries, and the path of the table that keys go to. -/
structure State where
  entries : Entries := []
  table : List String := []

/-- The rest of a header after its path. -/
def closeHeader (brackets : List Char) (s : List Char) : Option (List Char) :=
  if brackets.isPrefixOf s then some (s.drop brackets.length) else none

/-- One line's worth of a document: a header, or a key and its value. -/
def expression (state : State) (s : List Char) : Option (State × List Char) :=
  match s with
  | '[' :: '[' :: s => do
    let (path, s) ← key s
    let s ← closeHeader [']', ']'] s
    let entries ← openTables path state.entries
    some (⟨entries, path⟩, s)
  | '[' :: s => do
    let (path, s) ← key s
    let s ← closeHeader [']'] s
    let entries ← openTable path state.entries
    some (⟨entries, path⟩, s)
  | s => do
    let (path, s) ← key s
    let '=' :: s := s | none
    let s := skipBlanks s
    let (v, s) ← value (s.length + 1) deepest s
    let entries ← modifyAt (insert v true path) state.table state.entries
    some ({ state with entries }, s)

/-- The rest of a document, line by line. -/
def document : (fuel : Nat) → State → List Char → Option Entries
  | 0, _, _ => none
  | fuel + 1, state, s => do
    let s ← skipLines (s.length + 1) s
    if s.isEmpty then some state.entries
    else
      let (state, s) ← expression state s
      let s ← skipComment (skipBlanks s)
      if s.isEmpty then some state.entries
      else
        let s ← lineEnd? s
        document fuel state s

/-- The table that a text describes, if it is a document. -/
def parse (text : String) : Option Entries :=
  let s := match text.toList with
    | '\uFEFF' :: s => s
    | s => s
  document (s.length + 1) {} s

end Handheld.Toml
