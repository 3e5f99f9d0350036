import Datapack.Toml.Text

/-!
# TOML numbers

Integers are decimal with a sign, or hexadecimal, octal or binary without one, and have 64 bits.
Floats have a fraction or an exponent. In both, single underscores may stand between digits.
-/
namespace Datapack.Toml

/-! ## Digits -/

/-- Further digits after the first, with single underscores between them, and the rest. -/
def moreDigits? (isDigit : Char → Bool) : List Char → TextEnd
  | [] => some ([], [])
  | '_' :: c :: rest => if isDigit c then (moreDigits? isDigit rest).cons c else none
  | c :: rest =>
    if c = '_' then none
    else if isDigit c then (moreDigits? isDigit rest).cons c
    else some ([], c :: rest)

/-- Digits with single underscores between them, and the rest. -/
def digits? (isDigit : Char → Bool) : List Char → TextEnd
  | c :: rest => if isDigit c then (moreDigits? isDigit rest).cons c else none
  | [] => none

/-- The sign of a number (`true` for a minus) and what follows it. -/
def sign : List Char → Bool × List Char
  | '+' :: rest => (false, rest)
  | '-' :: rest => (true, rest)
  | cs => (false, cs)

/-- Decimal digits that do not begin with a zero unless they are one zero. -/
def wholeDigits? : List Char → TextEnd
  | '0' :: rest => some (['0'], rest)
  | cs => digits? Char.isDigit cs

/-- The value of digits in a base. -/
def ofDigits (base : Nat) (digits : List Char) : Nat :=
  digits.foldl (fun acc c => base * acc + (hexDigit? c).getD 0) 0

/-! ## Integers -/

def integer64? (n : Int) (rest : List Char) : Option (Int × List Char) :=
  if -0x8000000000000000 ≤ n ∧ n < 0x8000000000000000 then some (n, rest) else none

/-- Digits of a base after its mark. -/
def based? (base : Nat) (cs : List Char) : Option (Int × List Char) := do
  let (digits, rest) ← digits? (fun c => (hexDigit? c).any (· < base)) cs
  integer64? (ofDigits base digits) rest

def integer? : List Char → Option (Int × List Char)
  | '0' :: 'x' :: rest => based? 16 rest
  | '0' :: 'o' :: rest => based? 8 rest
  | '0' :: 'b' :: rest => based? 2 rest
  | cs => do
    let (negative, cs) := sign cs
    let (digits, rest) ← wholeDigits? cs
    let n : Int := ofDigits 10 digits
    integer64? (if negative then -n else n) rest

/-! ## Floats -/

/-- `m · 10^e` rounds to something beyond the largest float of 64 bits. -/
def isHuge (m : Nat) (e : Int) : Bool :=
  let bound := (Nat.pow 2 54 - 1) * Nat.pow 2 970
  let magnitude : Int := (Nat.toDigits 10 m).length + e
  if m = 0 ∨ magnitude < 300 then false
  else if magnitude > 320 then true
  else if 0 ≤ e then m * Nat.pow 10 e.toNat ≥ bound
  else m ≥ bound * Nat.pow 10 (-e).toNat

/-- The exponent of a float and the rest. -/
def exponent? : List Char → Option (Int × List Char)
  | c :: cs =>
    if c = 'e' ∨ c = 'E' then do
      let (negative, cs) := sign cs
      let (digits, rest) ← digits? Char.isDigit cs
      let n : Int := ofDigits 10 digits
      some (if negative then -n else n, rest)
    else none
  | [] => none

/-- The fraction of a float and the rest. -/
def fraction? : List Char → TextEnd
  | '.' :: cs => digits? Char.isDigit cs
  | _ => none

/-- A float with digits. One that rounds to infinity is refused, unless it is negative. -/
def finiteFloat? (cs : List Char) : Option (String × List Char) := do
  let (negative, digitsStart) := sign cs
  let (whole, rest) ← wholeDigits? digitsStart
  let (frac, exp, rest) ←
    match exponent? rest with
    | some (exp, rest) => some ([], exp, rest)
    | none => do
      let (frac, rest) ← fraction? rest
      match rest with
      | c :: _ =>
        if c = 'e' ∨ c = 'E' then
          let (exp, rest) ← exponent? rest
          some (frac, exp, rest)
        else some (frac, 0, rest)
      | [] => some (frac, 0, rest)
  if !negative && isHuge (ofDigits 10 (whole ++ frac)) (exp - frac.length) then none
  else
    let written := cs.take (cs.length - rest.length)
    some (String.ofList (written.filter (· ≠ '_')), rest)

/-- Infinity or not a number. -/
def specialFloat? (cs : List Char) : Option (String × List Char) :=
  match (sign cs).2 with
  | 'i' :: 'n' :: 'f' :: rest => some (if (sign cs).1 then "-inf" else "inf", rest)
  | 'n' :: 'a' :: 'n' :: rest => some ("nan", rest)
  | _ => none

def float? (cs : List Char) : Option (String × List Char) :=
  (finiteFloat? cs).or (specialFloat? cs)

end Datapack.Toml
