/-
# Dates of the configuration format

Dates, times of day and both together.  Only their form is read and whether there is such a day and
such a time, as nothing here asks for more.  A reader gives the rest of the list.
-/

namespace Handheld.Toml

/-- The value of two decimal digits that is in a range, with the rest. -/
def twoDigits (low high : Nat) : List Char → Option (Nat × List Char)
  | a :: b :: s =>
    let n := (a.toNat - 48) * 10 + (b.toNat - 48)
    if a.isDigit && b.isDigit && low ≤ n && n ≤ high then some (n, s) else none
  | _ => none

/-- The rest after a given character. -/
def after (c : Char) : List Char → Option (List Char)
  | d :: s => if d = c then some s else none
  | [] => none

/-- Whether a year has a leap day. -/
def isLeapYear (year : Nat) : Bool :=
  year % 4 = 0 && (year % 100 ≠ 0 || year % 400 = 0)

/-- The number of days in a month of a year. -/
def daysIn (year month : Nat) : Nat :=
  if month = 2 then (if isLeapYear year then 29 else 28)
  else if month = 4 ∨ month = 6 ∨ month = 9 ∨ month = 11 then 30
  else 31

/-- A day: a year of four digits, a month and a day of the month. -/
def day (s : List Char) : Option (List Char) := do
  let (century, s) ← twoDigits 0 99 s
  let (year, s) ← twoDigits 0 99 s
  let (month, s) ← twoDigits 1 12 (← after '-' s)
  let (_, s) ← twoDigits 1 (daysIn (century * 100 + year) month) (← after '-' s)
  return s

/-- The digits after a point, if there is a point. -/
def secondsFraction : List Char → Option (List Char)
  | '.' :: s => if (s.head?.any Char.isDigit) then some (s.dropWhile Char.isDigit) else none
  | s => some s

/-- A time of day: an hour, a minute, and it may be a second with a fraction.  A leap second is a
second too. -/
def time (s : List Char) : Option (List Char) := do
  let (_, s) ← twoDigits 0 23 s
  let (_, s) ← twoDigits 0 59 (← after ':' s)
  match s with
  | ':' :: s =>
    let (_, s) ← twoDigits 0 60 s
    secondsFraction s
  | s => return s

/-- The distance of a time from universal time, if it is given. -/
def zone : List Char → Option (List Char)
  | 'Z' :: s | 'z' :: s => some s
  | '+' :: s | '-' :: s => do
    let (_, s) ← twoDigits 0 23 s
    let (_, s) ← twoDigits 0 59 (← after ':' s)
    return s
  | s => some s

/-- Whether characters are a day, a time of day, or both with a `T` or a blank between them; only
a time of a given day has a distance from universal time. -/
def isDate (s : List Char) : Bool :=
  let rest :=
    match day s with
    | none => time s
    | some ('T' :: s) | some ('t' :: s) | some (' ' :: s) => (time s).bind zone
    | some s => some s
  rest.any List.isEmpty

/-- Whether characters begin as a date does: with digits, and then a hyphen or a colon. -/
def startsAsDate (s : List Char) : Bool :=
  s.head?.any Char.isDigit &&
    match s.dropWhile Char.isDigit with
    | '-' :: _ | ':' :: _ => true
    | _ => false

end Handheld.Toml
