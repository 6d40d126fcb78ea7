/-
# Text from bytes

Reading UTF-8 from bytes that may not be UTF-8.  Where the bytes stop being the start of a
character, what was read of it becomes one replacement character, and reading goes on with the
byte that did not fit.
-/

namespace Handheld.Text

/-- The character that stands for bytes that are no character. -/
def replacement : Char := '\uFFFD'

/-- A character under way: its value so far, the number of bytes still to come, and the range of
the next one. -/
structure Unfinished where
  value : Nat
  missing : Nat
  low : Nat := 0x80
  high : Nat := 0xBF

/-- The character under way after its first byte, for a byte that starts a longer character.  The
range of the second byte leaves out the forms that are longer than needed, the surrogates, and
what lies past the last code point. -/
def Unfinished.start? (b : Nat) : Option Unfinished :=
  if 0xC2 ≤ b ∧ b ≤ 0xDF then some ⟨b - 0xC0, 1, 0x80, 0xBF⟩
  else if b = 0xE0 then some ⟨0, 2, 0xA0, 0xBF⟩
  else if b = 0xED then some ⟨0xD, 2, 0x80, 0x9F⟩
  else if 0xE1 ≤ b ∧ b ≤ 0xEF then some ⟨b - 0xE0, 2, 0x80, 0xBF⟩
  else if b = 0xF0 then some ⟨0, 3, 0x90, 0xBF⟩
  else if 0xF1 ≤ b ∧ b ≤ 0xF3 then some ⟨b - 0xF0, 3, 0x80, 0xBF⟩
  else if b = 0xF4 then some ⟨4, 3, 0x80, 0x8F⟩
  else none

/-- The characters complete after a byte that starts anew, and the character under way. -/
def startCharacter (b : Nat) : List Char × Option Unfinished :=
  if b < 0x80 then ([Char.ofNat b], none)
  else match Unfinished.start? b with
    | some p => ([], some p)
    | none => ([replacement], none)

/-- The characters complete after one more byte, and the character under way. -/
def nextByte (state : Option Unfinished) (b : Nat) : List Char × Option Unfinished :=
  match state with
  | none => startCharacter b
  | some p =>
    if p.low ≤ b ∧ b ≤ p.high then
      let value := p.value * 64 + b % 64
      if p.missing ≤ 1 then ([Char.ofNat value], none)
      else ([], some ⟨value, p.missing - 1, 0x80, 0xBF⟩)
    else
      let (chars, state) := startCharacter b
      (replacement :: chars, state)

/-- Read bytes with a character under way. -/
def decodeFrom (state : Option Unfinished) : List UInt8 → List Char
  | [] => if state.isSome then [replacement] else []
  | b :: bytes =>
    let (chars, state) := nextByte state b.toNat
    chars ++ decodeFrom state bytes

/-- The characters of bytes. -/
def decodeLossy (bytes : List UInt8) : List Char :=
  decodeFrom none bytes

/-- The characters that count as blank at the ends of a text: those with the property
`White_Space`. -/
def isBlank (c : Char) : Bool :=
  let n := c.toNat
  (9 ≤ n && n ≤ 13) || n == 0x20 || n == 0x85 || n == 0xA0 || n == 0x1680 ||
    (0x2000 ≤ n && n ≤ 0x200A) || n == 0x2028 || n == 0x2029 || n == 0x202F || n == 0x205F ||
    n == 0x3000

/-- A text without the blanks at its ends. -/
def trim (s : List Char) : List Char :=
  ((s.dropWhile isBlank).reverse.dropWhile isBlank).reverse

end Handheld.Text
