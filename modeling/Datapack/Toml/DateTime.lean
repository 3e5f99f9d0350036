import Datapack.Toml.Text

/-!
# TOML dates and times

A date, a time, or a date and a time divided by `T` or a blank and followed by an offset or not.
The normal form has upper-case `T` and `Z` and no zeros at the end of a fraction.
-/
namespace Datapack.Toml

/-- The number in the next `n` decimal digits, when it lies in a range. -/
def field? (n lo hi : Nat) (cs : List Char) : Option (Nat × List Char) :=
  let digits := cs.take n
  let value := Nat.ofDigitChars 10 digits 0
  if digits.length = n ∧ digits.all Char.isDigit ∧ lo ≤ value ∧ value ≤ hi then
    some (value, cs.drop n)
  else none

/-- What follows the character `c`. -/
def expect? (c : Char) : List Char → Option (List Char)
  | d :: rest => if d = c then some rest else none
  | [] => none

/-- A number with at least `width` digits. -/
def padded (width n : Nat) : List Char :=
  let digits := Nat.toDigits 10 n
  List.replicate (width - digits.length) '0' ++ digits

/-! ## Dates -/

def isLeap (year : Nat) : Bool := year % 4 = 0 && (year % 100 ≠ 0 || year % 400 = 0)

def daysIn (year month : Nat) : Nat :=
  match month with
  | 2 => if isLeap year then 29 else 28
  | 4 | 6 | 9 | 11 => 30
  | _ => 31

/-- A date in normal form and the rest. -/
def date? (cs : List Char) : TextEnd := do
  let (year, cs) ← field? 4 0 9999 cs
  let cs ← expect? '-' cs
  let (month, cs) ← field? 2 1 12 cs
  let cs ← expect? '-' cs
  let (day, cs) ← field? 2 1 (daysIn year month) cs
  some (padded 4 year ++ '-' :: padded 2 month ++ '-' :: padded 2 day, cs)

/-! ## Times -/

/-- A fraction of a second, to nine places and without zeros at its end, and the rest. -/
def secondFraction? : List Char → TextEnd
  | '.' :: cs =>
    let digits := cs.takeWhile Char.isDigit
    if digits.isEmpty then none
    else
      let kept := ((digits.take 9).reverse.dropWhile (· = '0')).reverse
      some (if kept.isEmpty then [] else '.' :: kept, cs.dropWhile Char.isDigit)
  | _ => none

/-- A time in normal form and the rest. -/
def time? (cs : List Char) : TextEnd := do
  let (hour, cs) ← field? 2 0 23 cs
  let cs ← expect? ':' cs
  let (minute, cs) ← field? 2 0 59 cs
  let cs ← expect? ':' cs
  let (second, cs) ← field? 2 0 60 cs
  let (fraction, cs) := (secondFraction? cs).getD ([], cs)
  some (padded 2 hour ++ ':' :: padded 2 minute ++ ':' :: padded 2 second ++ fraction, cs)

/-- An offset from universal time in normal form and the rest. -/
def offset? : List Char → TextEnd
  | c :: cs =>
    if c = 'Z' ∨ c = 'z' then some (['Z'], cs)
    else if c = '+' ∨ c = '-' then do
      let (hours, cs) ← field? 2 0 23 cs
      let cs ← expect? ':' cs
      let (minutes, cs) ← field? 2 0 59 cs
      let mark := if hours = 0 ∧ minutes = 0 then '+' else c
      some (mark :: padded 2 hours ++ ':' :: padded 2 minutes, cs)
    else none
  | [] => none

/-- A date with a time after it, if one follows. -/
def dateAndTime? (cs : List Char) : TextEnd := do
  let (date, cs) ← date? cs
  match cs with
  | c :: tail =>
    if c = 'T' ∨ c = 't' ∨ c = ' ' then
      match time? tail with
      | none => some (date, cs)
      | some (time, rest) =>
        let (offset, rest) := (offset? rest).getD ([], rest)
        some (date ++ 'T' :: time ++ offset, rest)
    else some (date, cs)
  | [] => some (date, cs)

def dateTime? (cs : List Char) : Option (String × List Char) :=
  ((dateAndTime? cs).or (time? cs)).map fun (text, rest) => (String.ofList text, rest)

end Datapack.Toml
