import Gamebook.Decimal.Layout
import Gamebook.Decimal.Numeral
import Gamebook.Json.Fields
import Gamebook.Text.Blank

namespace Gamebook

inductive Value
  | flag (b : Bool)
  | number (x : Float)
  | text (s : String)
deriving DecidableEq

/-- A blank text counts as zero; `inf`, `infinity` and `nan` are numbers in any case of letters. -/
def numberOfText? (s : String) : Option Float :=
  match trim s.toList with
  | [] => some 0
  | cs =>
    let (negative, body) := match cs with
      | '-' :: r => (true, r)
      | '+' :: r => (false, r)
      | r => (false, r)
    let word := String.ofList (lower body)
    if word = "inf" ∨ word = "infinity" then some (if negative then -1 / 0 else 1 / 0)
    else if word = "nan" then some (0 / 0)
    else (Numeral.ofText? cs).map Numeral.nearest

namespace Value

def isTrue : Value → Bool
  | flag b => b
  | number x => !(x == 0 || x.isNaN)
  | text s => !s.isEmpty

def number? : Value → Option Float
  | flag b => some (if b then 1 else 0)
  | number x => some x
  | text s => numberOfText? s

/-- The numeric view in arithmetic, where what is not a number counts as zero. -/
def amount (v : Option Value) : Float := (v.bind number?).getD 0

def display : Value → String
  | flag true => "true"
  | flag false => "false"
  | number x => String.ofList (plainText x)
  | text s => s

/-- Equality within one kind; numbers compare as numbers, so the zeros agree and a NaN differs from itself. -/
def same : Value → Value → Bool
  | flag a, flag b => a == b
  | number x, number y => x == y
  | text s, text t => s == t
  | _, _ => false

/-- Texts by code points, all else by number; none where a side has no number or a NaN. -/
def order? : Value → Value → Option Ordering
  | text s, text t => some (compare s t)
  | a, b => do (← a.number?).toModel.compare (← b.number?).toModel

def ofJson? : Json → Option Value
  | .flag b => some (flag b)
  | .text s => some (text s)
  | j => j.number?.map number

/-- An infinity or a NaN has no written form and becomes `null`. -/
def toJson : Value → Json
  | flag b => .flag b
  | number x => if x.isFinite then .number x else .null
  | text s => .text s

end Value

end Gamebook
