import Gamebook.Json.Basic

namespace Gamebook

namespace Json

abbrev Fields := List (String × Json)

/-- The declared fields that are present. A declared member that is repeated is refused, and so is an
array with more items than the record has fields. -/
def fields? (declared : List String) : Json → Option Fields
  | object members =>
    let known := members.filter fun m => declared.contains m.1
    if (known.map (·.1)).Nodup then some known else none
  | array items => if items.length ≤ declared.length then some (declared.zip items) else none
  | _ => none

namespace Fields

variable {α : Type u}

def get (fields : Fields) (name : String) (read : Json → Option α) (default : α) : Option α :=
  match fields.lookup name with
  | some j => read j
  | none => some default

def need (fields : Fields) (name : String) (read : Json → Option α) : Option α :=
  (fields.lookup name).bind read

/-- A field that may also be `null`. -/
def maybe (fields : Fields) (name : String) (read : Json → Option α) : Option (Option α) :=
  match fields.lookup name with
  | some null | none => some none
  | some j => (read j).map some

end Fields

def text? : Json → Option String
  | text s => some s
  | _ => none

def flag? : Json → Option Bool
  | flag b => some b
  | _ => none

def count? : Json → Option UInt64
  | count n => some n
  | _ => none

def number? : Json → Option Float
  | count n => some (Float.ofNat n.toNat)
  | number x => some x
  | _ => none

def list? {α : Type u} (read : Json → Option α) : Json → Option (List α)
  | array items => items.mapM read
  | _ => none

/-- Every member is read; of those under one name the last one stands. -/
def dictionary? {α : Type u} (read : Json → Option α) : Json → Option (Dictionary α)
  | object members => (members.mapM fun m => (read m.2).map fun x => (m.1, x)).map Dictionary.ofList
  | _ => none

/-- One of a set of words, written as a text or as an object with the word as its one member's name;
`blank` says what that member may hold. -/
def word? (blank : Json → Bool) : Json → Option String
  | text s => some s
  | object [(name, j)] => if blank j then some name else none
  | _ => none

def isNull : Json → Bool
  | null => true
  | _ => false

end Json

end Gamebook
