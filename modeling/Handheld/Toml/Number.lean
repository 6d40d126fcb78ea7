/-
# Numbers of the configuration format

Whole numbers to four bases, fractions, truth values and dates.  Of a fraction only its form is
read, and whether it has a value that is not too large, as nothing here asks for more.
-/
import Handheld.Toml.Date
import Handheld.Toml.Strings
import Handheld.Toml.Value

namespace Handheld.Toml

/-- The digits of a number without the underscores between them. -/
def digits? (isDigit : Char → Bool) (s : List Char) : Option (List Char) :=
  let parts := s.splitOn '_'
  if parts.all fun part => !part.isEmpty && part.all isDigit then some parts.flatten else none

/-- The value of digits to a base. -/
def numeral (base : Nat) (digits : List Char) : Nat :=
  digits.foldl (fun n c => n * base + (Text.digitValue? c).getD 0) 0

/-- Digits without a needless zero in front. -/
def wholeDigits? (s : List Char) : Option (List Char) :=
  match digits? Char.isDigit s with
  | some ('0' :: _ :: _) => none
  | r => r

/-! ## Sizes -/

/-- The least whole number that is read. -/
def leastInteger : Int := -0x80000000000000000000000000000000

/-- The whole numbers that are read are below this. -/
def integerBound : Int := 0x100000000000000000000000000000000

/-- A whole number that is not too large. -/
def integer? (n : Int) : Option Value :=
  if leastInteger ≤ n ∧ n < integerBound then some (.integer n) else none

/-- The least number that no double is near: half a step above the largest of them. -/
def doubleBound : Nat := 0x3FFFFFFFFFFFFF <<< 970

/-- The number of digits of the whole part of `doubleBound`. -/
def doubleDigits : Nat := 309

/-- Whether digits times a power of ten are below `doubleBound`.  The numbers of digits decide, but
where they agree. -/
def isFinite (digits : List Char) (exponent : Int) : Bool :=
  let digits := digits.dropWhile (· = '0')
  let size := digits.length + exponent
  if digits.isEmpty || size < doubleDigits then true
  else if doubleDigits < size then false
  else numeral 10 digits * Nat.pow 10 exponent.toNat <
    doubleBound * Nat.pow 10 (-exponent).toNat

/-! ## Fractions -/

/-- An exponent with or without a sign. -/
def exponent? (s : List Char) : Option Int :=
  let value (s : List Char) := (digits? Char.isDigit s).map (numeral 10)
  match s with
  | '+' :: s => (value s).map Int.ofNat
  | '-' :: s => (value s).map fun n => -Int.ofNat n
  | s => (value s).map Int.ofNat

/-- The end of a number from its point or its exponent on: the digits after the point, and the
exponent. -/
def fraction? (s : List Char) : Option (List Char × Int) :=
  let isExponent (c : Char) := c = 'e' || c = 'E'
  match s with
  | '.' :: s => do
    let digits ← digits? Char.isDigit (s.takeWhile fun c => !isExponent c)
    match s.dropWhile fun c => !isExponent c with
    | [] => some (digits, 0)
    | _ :: s => (exponent? s).map (digits, ·)
  | _ :: s => (exponent? s).map ([], ·)
  | [] => none

/-! ## Values -/

/-- The value of a number without a sign, if its sign is to be the given one. -/
def unsigned? (negative : Bool) (s : List Char) : Option Value :=
  match s with
  | ['i', 'n', 'f'] | ['n', 'a', 'n'] => some .float
  | _ => do
    let isPoint (c : Char) := c = '.' || c = 'e' || c = 'E'
    let whole ← wholeDigits? (s.takeWhile fun c => !isPoint c)
    match s.dropWhile fun c => !isPoint c with
    | [] =>
      let n := Int.ofNat (numeral 10 whole)
      integer? (if negative then -n else n)
    | rest =>
      let (places, exponent) ← fraction? rest
      if isFinite (whole ++ places) (exponent - places.length) then some .float else none

/-- A number from its characters. -/
def number? (s : List Char) : Option Value :=
  let based (base : Nat) (isDigit : Char → Bool) (s : List Char) :=
    (digits? isDigit s).bind fun digits => integer? (numeral base digits)
  match s with
  | '0' :: 'x' :: s => based 16 (fun c => (Text.digitValue? c).isSome) s
  | '0' :: 'o' :: s => based 8 (fun c => '0' ≤ c && c ≤ '7') s
  | '0' :: 'b' :: s => based 2 (fun c => c = '0' || c = '1') s
  | '+' :: s => unsigned? false s
  | '-' :: s => unsigned? true s
  | s => unsigned? false s

/-- Whether a character can be part of a truth value, a number or a date. -/
def isBarePart (c : Char) : Bool :=
  isBareKey c || c = '+' || c = '.' || c = ':'

/-- The characters of a truth value, a number or a date, and the rest.  In a date alone a blank may
stand before a further digit. -/
def bareText (s : List Char) : List Char × List Char :=
  let text := s.takeWhile isBarePart
  let rest := s.dropWhile isBarePart
  match rest with
  | ' ' :: more =>
    if startsAsDate text && more.head?.any Char.isDigit then
      (text ++ ' ' :: more.takeWhile isBarePart, more.dropWhile isBarePart)
    else (text, rest)
  | _ => (text, rest)

/-- A truth value, a number or a date. -/
def bare (s : List Char) : Option (Value × List Char) :=
  let (text, rest) := bareText s
  match text with
  | ['t', 'r', 'u', 'e'] => some (.boolean true, rest)
  | ['f', 'a', 'l', 's', 'e'] => some (.boolean false, rest)
  | text =>
    if startsAsDate text then (if isDate text then some (.date, rest) else none)
    else (number? text).map (·, rest)

end Handheld.Toml
