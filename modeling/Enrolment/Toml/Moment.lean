import Enrolment.Toml.Number

/-!
Dates, times of day, and moments made of both.

A moment has a date, a time or both, and with both it may have an offset from universal time.
`Moment.text` writes it in the one normal form: `T` between date and time, no zeros at the end of
a fraction, `Z` only where it was written so.
-/

namespace Enrolment.Toml

structure Date where
  year : Nat
  month : Nat
  day : Nat
  deriving DecidableEq, Repr

structure TimeOfDay where
  hour : Nat
  minute : Nat
  second : Nat
  nanosecond : Nat
  deriving DecidableEq, Repr

inductive Offset where
  | universal
  /-- Minutes ahead of universal time. -/
  | minutes (n : Int)
  deriving DecidableEq, Repr

structure Moment where
  date? : Option Date
  time? : Option TimeOfDay
  offset? : Option Offset
  deriving DecidableEq, Repr

/-! ## Reading -/

/-- Exactly so many digits. -/
def fixedDigits : Nat → Nat → Reader Nat
  | 0, value, s => some (value, s)
  | n + 1, value, c :: rest =>
    if isDecimalDigit c then fixedDigits n (10 * value + (c.toNat - '0'.toNat)) rest else none
  | _ + 1, _, [] => none

/-- Two digits whose value lies between two bounds. -/
def twoDigits (low high : Nat) (s : List Char) : Option (Nat × List Char) := do
  let (n, rest) ← fixedDigits 2 0 s
  guard (low ≤ n && n ≤ high)
  return (n, rest)

def isLeapYear (year : Nat) : Bool := year % 4 == 0 && (year % 100 != 0 || year % 400 == 0)

def daysInMonth (year month : Nat) : Nat :=
  if month = 2 then if isLeapYear year then 29 else 28
  else if [4, 6, 9, 11].contains month then 30
  else 31

def date (s : List Char) : Option (Date × List Char) := do
  let (year, s) ← fixedDigits 4 0 s
  let s ← expect '-' s
  let (month, s) ← twoDigits 1 12 s
  let s ← expect '-' s
  let (day, s) ← twoDigits 1 (daysInMonth year month) s
  return (⟨year, month, day⟩, s)

/-- A fraction of a second in nanoseconds; digits beyond the ninth are read and dropped. -/
def fraction : List Char → Nat × List Char
  | '.' :: s =>
    let ds := s.takeWhile isDecimalDigit
    if ds.isEmpty then (0, '.' :: s)
    else
      let kept := ds.take 9
      (valueOfDigits 10 kept * Nat.pow 10 (9 - kept.length), s.dropWhile isDecimalDigit)
  | s => (0, s)

/-- A time of day; the second may be the sixtieth, which a leap second needs. -/
def timeOfDay (s : List Char) : Option (TimeOfDay × List Char) := do
  let (hour, s) ← twoDigits 0 23 s
  let s ← expect ':' s
  let (minute, s) ← twoDigits 0 59 s
  let s ← expect ':' s
  let (second, s) ← twoDigits 0 60 s
  let (nanosecond, s) := fraction s
  return (⟨hour, minute, second, nanosecond⟩, s)

def offset : Reader Offset
  | [] => none
  | c :: s =>
    if c = 'Z' ∨ c = 'z' then some (.universal, s)
    else if c = '+' ∨ c = '-' then do
      let (hour, s) ← twoDigits 0 23 s
      let s ← expect ':' s
      let (minute, s) ← twoDigits 0 59 s
      return (.minutes (signed (c = '-') (60 * hour + minute)), s)
    else none

def isDelimiter (c : Char) : Bool := c == 'T' || c == 't' || c == ' '

/-- A time of day behind a date, with an offset if one is written. -/
def timeAfterDate : Reader (TimeOfDay × Option Offset)
  | [] => none
  | c :: s => do
    guard (isDelimiter c)
    let (time, s) ← timeOfDay s
    match offset s with
    | some (offset, s) => return ((time, some offset), s)
    | none => return ((time, none), s)

def moment (s : List Char) : Option (Moment × List Char) :=
  match date s with
  | some (date, s) =>
    match timeAfterDate s with
    | some ((time, offset?), s) => some (⟨some date, some time, offset?⟩, s)
    | none => some (⟨some date, none, none⟩, s)
  | none => do
    let (time, s) ← timeOfDay s
    return (⟨none, some time, none⟩, s)

/-! ## Writing -/

/-- The decimal digits of `n`, with zeros in front up to the given width. -/
def padded (width n : Nat) : String :=
  let ds := Nat.toDigits 10 n
  String.ofList (List.replicate (width - ds.length) '0' ++ ds)

def Date.text (d : Date) : String :=
  padded 4 d.year ++ "-" ++ padded 2 d.month ++ "-" ++ padded 2 d.day

def TimeOfDay.text (t : TimeOfDay) : String :=
  let places := ((padded 9 t.nanosecond).toList.reverse.dropWhile (· == '0')).reverse
  let whole := padded 2 t.hour ++ ":" ++ padded 2 t.minute ++ ":" ++ padded 2 t.second
  if places.isEmpty then whole else whole ++ "." ++ String.ofList places

def Offset.text : Offset → String
  | .universal => "Z"
  | .minutes n =>
    (if n < 0 then "-" else "+") ++ padded 2 (n.natAbs / 60) ++ ":" ++ padded 2 (n.natAbs % 60)

def Moment.text (m : Moment) : String :=
  let date := (m.date?.map Date.text).getD ""
  let time := (m.time?.map TimeOfDay.text).getD ""
  let offset := (m.offset?.map Offset.text).getD ""
  let between := if m.date?.isSome && m.time?.isSome then "T" else ""
  date ++ between ++ time ++ offset

end Enrolment.Toml
