import Enrolment.Data
import Enrolment.Toml.Text

/-!
Integers and floating point numbers.

Integers fit 64 bits with sign.  A floating point number is kept as it is written, and one that
lies beyond the largest double above is refused.
-/

namespace Enrolment.Toml

def isDecimalDigit (c : Char) : Bool := '0' ≤ c && c ≤ '9'

/-- The digits that go on, each after at most one underscore. -/
def moreDigits (isDigit : Char → Bool) : List Char → List Char × List Char
  | '_' :: c :: rest =>
    if isDigit c then
      let (digits, rest) := moreDigits isDigit rest
      (c :: digits, rest)
    else ([], '_' :: c :: rest)
  | c :: rest =>
    if isDigit c then
      let (digits, rest) := moreDigits isDigit rest
      (c :: digits, rest)
    else ([], c :: rest)
  | [] => ([], [])

/-- One digit or more, with single underscores between them. -/
def digits (isDigit : Char → Bool) : Reader (List Char)
  | c :: rest =>
    if isDigit c then
      let (more, rest) := moreDigits isDigit rest
      some (c :: more, rest)
    else none
  | [] => none

/-- The digits of a whole number, which starts with zero only if it is zero. -/
def wholeDigits : Reader (List Char)
  | '0' :: rest => some (['0'], rest)
  | s => digits isDecimalDigit s

def valueOfDigits (base : Nat) (ds : List Char) : Nat :=
  ds.foldl (fun n c => base * n + (hexValue? c).getD 0) 0

/-- Whether the text has a minus sign, and what follows the sign if there is one. -/
def sign : List Char → Bool × List Char
  | '+' :: rest => (false, rest)
  | '-' :: rest => (true, rest)
  | s => (false, s)

def signed (negative : Bool) (n : Nat) : Int := if negative then -(n : Int) else n

/-! ## Integers -/

/-- The least whole number that does not fit 64 bits with sign. -/
def wordBound : Nat := Nat.pow 2 63

def fitsWord (n : Int) : Bool := -(wordBound : Int) ≤ n && n < wordBound

/-- The base that a letter behind a leading zero announces. -/
def base? : Char → Option Nat
  | 'x' => some 16
  | 'o' => some 8
  | 'b' => some 2
  | _ => none

def isDigitOf (base : Nat) (c : Char) : Bool := (hexValue? c).any (· < base)

def basedInteger (base : Nat) (s : List Char) : Option (Int × List Char) := do
  let (ds, rest) ← digits (isDigitOf base) s
  return (valueOfDigits base ds, rest)

def decimalInteger (s : List Char) : Option (Int × List Char) := do
  let (negative, s) := sign s
  let (ds, rest) ← wholeDigits s
  return (signed negative (valueOfDigits 10 ds), rest)

def integer (s : List Char) : Option (Int × List Char) := do
  let (n, rest) ← match s with
    | '0' :: c :: rest =>
      match base? c with
      | some base => basedInteger base rest
      | none => decimalInteger s
    | _ => decimalInteger s
  guard (fitsWord n)
  return (n, rest)

/-! ## Floating point numbers -/

/-- The least number that rounds to infinity: half a unit beyond the largest double. -/
def overflowBound : Nat := Nat.pow 2 1024 - Nat.pow 2 970

/-- Whether `mantissa * 10 ^ exponent` rounds to infinity, where the mantissa has so many digits.
Comparing the position of the first digit settles all but one case without a large power. -/
def overflows (mantissa digits : Nat) (exponent : Int) : Bool :=
  if mantissa = 0 then false
  else
    let magnitude := digits + exponent
    if magnitude < 309 then false
    else if 309 < magnitude then true
    else if 0 ≤ exponent then overflowBound ≤ mantissa * Nat.pow 10 exponent.toNat
    else overflowBound * Nat.pow 10 (-exponent).toNat ≤ mantissa

/-- The exponent behind the letter `e`. -/
def exponentPart : Reader Int
  | c :: s =>
    if c = 'e' ∨ c = 'E' then do
      let (negative, s) := sign s
      let (ds, rest) ← digits isDecimalDigit s
      return (signed negative (valueOfDigits 10 ds), rest)
    else none
  | [] => none

/-- The digits behind the point and the exponent, at least one of the two. -/
def floatTail : Reader (List Char × Int)
  | '.' :: s => do
    let (places, s) ← digits isDecimalDigit s
    match exponentPart s with
    | some (exponent, rest) => return ((places, exponent), rest)
    | none => return ((places, 0), s)
  | s => do
    let (exponent, rest) ← exponentPart s
    return (([], exponent), rest)

def special : Reader Number
  | 'i' :: 'n' :: 'f' :: rest => some (.infinite false, rest)
  | 'n' :: 'a' :: 'n' :: rest => some (.notANumber, rest)
  | _ => none

def signedSpecial (s : List Char) : Option (Number × List Char) := do
  let (negative, s) := sign s
  match ← special s with
  | (.infinite _, rest) => return (.infinite negative, rest)
  | r => return r

def finiteFloat (s : List Char) : Option (Number × List Char) := do
  let (negative, s) := sign s
  let (whole, s) ← wholeDigits s
  let ((places, exponent), rest) ← floatTail s
  let ds := (whole ++ places).dropWhile (· == '0')
  let mantissa := valueOfDigits 10 ds
  let exponent := exponent - places.length
  guard (negative || !overflows mantissa ds.length exponent)
  return (.decimal (signed negative mantissa) exponent, rest)

/-- Reads a number that starts with a digit or a sign. -/
def number (s : List Char) : Option (Number × List Char) :=
  finiteFloat s <|> signedSpecial s <|>
    (integer s).map fun (n, rest) => (.decimal n 0, rest)

end Enrolment.Toml
