/-
# Strings and keys of the configuration format

Readers for the parts of a TOML document that are made of text: blanks, comments and line ends, the
four forms of a string, and keys.  Characters are read from a list; a reader gives what it has read
with the rest of the list.
-/
import Handheld.Text.Hex

namespace Handheld.Toml

/-! ## Characters -/

def isBlank (c : Char) : Bool :=
  c = ' ' || c = '\t'

/-- Whether a character may stand in a comment or, but for its delimiters, in a string. -/
def isPrintable (c : Char) : Bool :=
  c = '\t' || (' ' ≤ c && c ≠ '\x7f')

def isBareKey (c : Char) : Bool :=
  c.isAlphanum || c = '_' || c = '-'

def skipBlanks (s : List Char) : List Char :=
  s.dropWhile isBlank

/-- The rest after a line end, if there is one. -/
def lineEnd? : List Char → Option (List Char)
  | '\n' :: s => some s
  | '\r' :: '\n' :: s => some s
  | _ => none

/-- The rest after a comment, if there is one; it must reach to the end of its line. -/
def skipComment : List Char → Option (List Char)
  | '#' :: s =>
    let rest := s.dropWhile isPrintable
    if rest.isEmpty || (lineEnd? rest).isSome then some rest else none
  | s => some s

/-- The rest after blanks, comments and line ends. -/
def skipLines : (fuel : Nat) → List Char → Option (List Char)
  | 0, _ => none
  | fuel + 1, s => do
    let s ← skipComment (skipBlanks s)
    match lineEnd? s with
    | some s => skipLines fuel s
    | none => some s

/-! ## Strings -/

/-- A character given by a number of hexadecimal digits. -/
def codePoint (digits : Nat) (s : List Char) : Option (Char × List Char) := do
  if (s.take digits).length < digits then none
  let n ← Text.hexValue? (s.take digits)
  if n.isValidChar then some (Char.ofNat n, s.drop digits) else none

/-- The character after a backslash. -/
def escape : List Char → Option (Char × List Char)
  | 'b' :: s => some ('\x08', s)
  | 't' :: s => some ('\t', s)
  | 'n' :: s => some ('\n', s)
  | 'f' :: s => some ('\x0c', s)
  | 'r' :: s => some ('\r', s)
  | 'e' :: s => some ('\x1b', s)
  | '"' :: s => some ('"', s)
  | '\\' :: s => some ('\\', s)
  | 'x' :: s => codePoint 2 s
  | 'u' :: s => codePoint 4 s
  | 'U' :: s => codePoint 8 s
  | _ => none

/-- A string on one line up to its closing delimiter. -/
def lineString (delimiter : Char) (escapes : Bool) :
    (fuel : Nat) → List Char → Option (List Char × List Char)
  | 0, _ => none
  | _, [] => none
  | fuel + 1, c :: s =>
    if c = delimiter then some ([], s)
    else if c = '\\' && escapes then do
      let (c, s) ← escape s
      let (text, s) ← lineString delimiter escapes fuel s
      some (c :: text, s)
    else if isPrintable c then do
      let (text, s) ← lineString delimiter escapes fuel s
      some (c :: text, s)
    else none

/-- The rest after blanks and line ends. -/
def skipBlankLines : (fuel : Nat) → List Char → List Char
  | 0, s => s
  | fuel + 1, s =>
    match lineEnd? (skipBlanks s) with
    | some s => skipBlankLines fuel s
    | none => skipBlanks s

/-- The rest after a backslash at the end of a line: the next character that is neither a blank
nor part of a line end. -/
def skipFold (s : List Char) : Option (List Char) :=
  (lineEnd? (skipBlanks s)).map fun s => skipBlankLines (s.length + 1) s

/-- A string over several lines up to its three closing delimiters, before which two more may
stand.  Its line ends are kept as they are written. -/
def blockString (delimiter : Char) (escapes : Bool) :
    (fuel : Nat) → List Char → Option (List Char × List Char)
  | 0, _ => none
  | _, [] => none
  | fuel + 1, c :: s =>
    let quotes := ((c :: s).takeWhile (· = delimiter)).length
    if 3 ≤ quotes then
      if quotes ≤ 5 then
        some (List.replicate (quotes - 3) delimiter, (c :: s).drop quotes)
      else none
    else if c = '\\' && escapes then
      match skipFold s with
      | some s => blockString delimiter escapes fuel s
      | none => do
        let (c, s) ← escape s
        let (text, s) ← blockString delimiter escapes fuel s
        some (c :: text, s)
    else if isPrintable c || (lineEnd? (c :: s)).isSome then do
      let (text, s) ← blockString delimiter escapes fuel s
      some (c :: text, s)
    else none

/-- A string of any of the four forms, from its first delimiter on. -/
def string (fuel : Nat) : List Char → Option (List Char × List Char)
  | '"' :: '"' :: '"' :: s => blockString '"' true fuel ((lineEnd? s).getD s)
  | '\'' :: '\'' :: '\'' :: s => blockString '\'' false fuel ((lineEnd? s).getD s)
  | '"' :: s => lineString '"' true fuel s
  | '\'' :: s => lineString '\'' false fuel s
  | _ => none

/-! ## Keys -/

/-- One part of a key. -/
def simpleKey : List Char → Option (String × List Char)
  | '"' :: s => (lineString '"' true (s.length + 1) s).map fun (text, s) => (String.ofList text, s)
  | '\'' :: s =>
    (lineString '\'' false (s.length + 1) s).map fun (text, s) => (String.ofList text, s)
  | s =>
    let text := s.takeWhile isBareKey
    if text.isEmpty then none else some (String.ofList text, s.dropWhile isBareKey)

/-- A key of at most `most` parts, with dots between them; blanks around it are skipped. -/
def keyParts : (most : Nat) → List Char → Option (List String × List Char)
  | 0, _ => none
  | most + 1, s => do
    let (part, s) ← simpleKey (skipBlanks s)
    match skipBlanks s with
    | '.' :: s =>
      let (parts, s) ← keyParts most s
      some (part :: parts, s)
    | s => some ([part], s)

/-- How deep tables may lie in one another by one key, and values by brackets and braces. -/
def deepest : Nat := 80

/-- A key. -/
def key (s : List Char) : Option (List String × List Char) :=
  keyParts deepest s

end Handheld.Toml
