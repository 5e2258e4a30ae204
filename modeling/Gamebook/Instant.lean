import Gamebook.Calendar
import Gamebook.Decimal.Layout
import Gamebook.Decimal.Numeral
import Gamebook.Text.Blank

namespace Gamebook

namespace Instant

def firstDay : Int := Calendar.dayOfDate ⟨-262143, 1, 1⟩

def lastDay : Int := Calendar.dayOfDate ⟨262142, 12, 31⟩

/-- Days from the first to the last that is counted, a second of the day, and nanoseconds below one
second, or below two in the last second of a minute. -/
def isValid (day : Int) (second nanosecond : Nat) : Bool :=
  firstDay ≤ day && day ≤ lastDay && second < 86400 &&
    nanosecond < if second % 60 = 59 then 2000000000 else 1000000000

end Instant

/-- Days since the start of 1970, the second of the day, and nanoseconds, of which a leap second has
those from one thousand million on. -/
structure Instant where
  day : Int
  second : Nat
  nanosecond : Nat
  valid : Instant.isValid day second nanosecond
deriving DecidableEq

namespace Instant

def epoch : Instant := ⟨0, 0, 0, by decide⟩

def make? (day : Int) (second nanosecond : Nat) : Option Instant :=
  if h : isValid day second nanosecond then some ⟨day, second, nanosecond, h⟩ else none

/-- From one to `width` digits behind any blanks. -/
def number? (width : Nat) (cs : List Char) : Option (Nat × List Char) :=
  let body := trimStart cs
  let digits := (body.take width).takeWhile Char.isDigit
  if digits.isEmpty then none else some (naturalValue digits, body.drop digits.length)

/-- A year has four digits at most unless a sign stands before it. -/
def year? (cs : List Char) : Option (Int × List Char) :=
  match trimStart cs with
  | '-' :: r => signedYear (-1) r
  | '+' :: r => signedYear 1 r
  | r => (number? 4 r).map fun p => ((p.1 : Int), p.2)
where
  signedYear (sign : Int) (cs : List Char) : Option (Int × List Char) :=
    let digits := cs.takeWhile Char.isDigit
    if digits.isEmpty then none
    else some (sign * naturalValue digits, cs.dropWhile Char.isDigit)

def mark? (c : Char) (cs : List Char) : Option (List Char) :=
  match trimStart cs with
  | d :: r => if c = d then some r else none
  | [] => none

/-- Nine digits behind the point count. -/
def fraction? (cs : List Char) : Option (Nat × List Char) :=
  match cs with
  | '.' :: r =>
    let digits := (r.takeWhile Char.isDigit).take 9
    if digits.isEmpty then none
    else some (naturalValue digits * Nat.pow 10 (9 - digits.length), r.dropWhile Char.isDigit)
  | r => some (0, r)

def twoDigits? (cs : List Char) : Option (Nat × List Char) :=
  match cs with
  | a :: b :: r => if a.isDigit && b.isDigit then some (naturalValue [a, b], r) else none
  | _ => none

/-- Seconds ahead of universal time. -/
def offset? (cs : List Char) : Option (Int × List Char) :=
  match trimStart cs with
  | 'Z' :: r | 'z' :: r => some (0, r)
  | '+' :: r => ahead 1 r
  | '-' :: r | '\u2212' :: r => ahead (-1) r
  | a :: b :: c :: r => if lower [a, b, c] = ['u', 't', 'c'] then some (0, r) else none
  | _ => none
where
  ahead (sign : Int) (cs : List Char) : Option (Int × List Char) := do
    let (hours, rest) ← twoDigits? cs
    let (minutes, rest) ← twoDigits? (rest.dropWhile fun c => c == ':' || isBlank c)
    if hours ≤ 23 ∧ minutes ≤ 59 then some (sign * (hours * 3600 + minutes * 60 : Nat), rest) else none

/-- Blanks may stand between the parts, and any offset from universal time is accepted. -/
def ofChars? (cs : List Char) : Option Instant := do
  let (year, cs) ← year? cs
  let (month, cs) ← number? 2 (← mark? '-' cs)
  let (day, cs) ← number? 2 (← mark? '-' cs)
  let cs ← match cs with
    | 'T' :: r | 't' :: r | ' ' :: r => some r
    | _ => none
  let (hour, cs) ← number? 2 cs
  let (minute, cs) ← number? 2 (← mark? ':' cs)
  let (second, cs) ← number? 2 (← mark? ':' cs)
  let (fraction, cs) ← fraction? cs
  let (ahead, cs) ← offset? cs
  guard (trimStart cs).isEmpty
  let date : Calendar.Date := ⟨year, month, day⟩
  guard date.inCalendar
  guard (hour ≤ 23 ∧ minute ≤ 59 ∧ second ≤ 60)
  let localDay := Calendar.dayOfDate date
  guard (firstDay ≤ localDay ∧ localDay ≤ lastDay)
  let leap := if second = 60 then 1 else 0
  let here : Int := localDay * 86400 + (hour * 3600 + minute * 60 + (second - leap) : Nat)
  let universal := here - ahead
  let today := universal / 86400
  make? today (universal - today * 86400).toNat (leap * 1000000000 + fraction)

def ofText? (s : String) : Option Instant := ofChars? s.toList

def padded (width n : Nat) : List Char :=
  let ds := Decimal.numerals n
  Decimal.zeros (width - ds.length) ++ ds

/-- Outside of four digits a year has a sign. -/
def writeYear (year : Int) : List Char :=
  if 0 ≤ year ∧ year ≤ 9999 then padded 4 year.toNat
  else (if year < 0 then '-' else '+') :: padded 4 year.natAbs

/-- The fewest of 0, 3, 6 or 9 digits. -/
def writeFraction (nano : Nat) : List Char :=
  if nano = 0 then []
  else if nano % 1000000 = 0 then '.' :: padded 3 (nano / 1000000)
  else if nano % 1000 = 0 then '.' :: padded 6 (nano / 1000)
  else '.' :: padded 9 nano

def writeDate (d : Calendar.Date) : List Char :=
  writeYear d.year ++ '-' :: padded 2 d.month ++ '-' :: padded 2 d.day

/-- A leap second is the sixtieth of its minute. -/
def writeTime (second nanosecond : Nat) : List Char :=
  padded 2 (second / 3600) ++ ':' :: padded 2 (second / 60 % 60) ++
    ':' :: padded 2 (second % 60 + nanosecond / 1000000000) ++ writeFraction (nanosecond % 1000000000)

def write (t : Instant) : List Char :=
  writeDate (Calendar.dateOfDay t.day) ++ 'T' :: writeTime t.second t.nanosecond ++ ['Z']

def toText (t : Instant) : String := String.ofList (write t)

end Instant

end Gamebook
