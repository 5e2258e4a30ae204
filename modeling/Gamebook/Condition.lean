import Gamebook.Generator
import Gamebook.Json.Reader
import Gamebook.Progress

namespace Gamebook

inductive Comparison
  | equal
  | different
  | below
  | above
  | atMost
  | atLeast
  | contains
  | unknown
deriving DecidableEq

namespace Comparison

def symbol : Comparison → String
  | equal => "=="
  | different => "!="
  | below => "<"
  | above => ">"
  | atMost => "<="
  | atLeast => ">="
  | contains => "contains"
  | unknown => "Unknown"

def ofSymbol : String → Comparison
  | "==" => equal
  | "!=" => different
  | "<" => below
  | ">" => above
  | "<=" => atMost
  | ">=" => atLeast
  | "contains" => contains
  | _ => unknown

end Comparison

/-- Two unset sides are equal, a set and an unset one are not. -/
def sameValue : Option Value → Option Value → Bool
  | some a, some b => a.same b
  | none, none => true
  | _, _ => false

/-- An unset side has no order. -/
def orderOf? (a b : Option Value) : Option Ordering := do (← a).order? (← b)

def displayOf (v : Option Value) : String := (v.map Value.display).getD ""

def occursIn (part : List Char) : List Char → Bool
  | [] => part.isEmpty
  | c :: cs => part.isPrefixOf (c :: cs) || occursIn part cs

def Comparison.holds (c : Comparison) (current literal : Option Value) : Bool :=
  match c with
  | equal => sameValue current literal
  | different => !sameValue current literal
  | below => (orderOf? current literal).any (·.isLT)
  | above => (orderOf? current literal).any (·.isGT)
  | atMost => (orderOf? current literal).any (·.isLE)
  | atLeast => (orderOf? current literal).any (·.isGE)
  | contains => occursIn (displayOf literal).toList (displayOf current).toList
  | unknown => true

inductive Holding
  | has
  | lacks
  | unknown
deriving DecidableEq

namespace Holding

def word : Holding → String
  | has => "has"
  | lacks => "not_has"
  | unknown => "unknown"

def ofWord : String → Holding
  | "has" => has
  | "not_has" => lacks
  | _ => unknown

end Holding

/-- The last one is what cannot be read as a condition. It always passes. -/
inductive Condition
  | compares (name : String) (operator : Comparison) (literal : Option Value)
  | carries (operator : Holding) (item : String)
  | unlocked (id : String)
  | chance (probability : Option Float)
  | unknown
deriving DecidableEq

namespace Condition

def evenChance : Float := 0.5

def evaluate (c : Condition) (p : Progress) (g : Generator) : Bool × Generator :=
  match c with
  | compares name operator literal => (operator.holds (p.valueOf? name) literal, g)
  | carries .has item => (p.holdsItem item, g)
  | carries .lacks item => (!p.holdsItem item, g)
  | carries .unknown _ => (true, g)
  | unlocked id => (p.hasAchievement id, g)
  | chance probability => g.succeeds (probability.getD evenChance)
  | unknown => (true, g)

/-- Conditions are looked at in order up to the first that fails. -/
def evaluateAll : List Condition → Progress → Generator → Bool × Generator
  | [], _, g => (true, g)
  | c :: cs, p, g =>
    match c.evaluate p g with
    | (true, g) => evaluateAll cs p g
    | (false, g) => (false, g)

/-- A word's own member may hold nothing or an empty object. -/
def isHollow : Json → Bool
  | .null => true
  | .object [] => true
  | _ => false

def ofFields (kind : String) (body : Json) : Option Condition :=
  match kind with
  | "variable" => do
    let fields ← body.fields? ["variable", "operator", "value"]
    let name ← fields.need "variable" Json.text?
    let operator ← fields.get "operator" (fun j => (j.word? isHollow).map Comparison.ofSymbol) .unknown
    let literal ← fields.maybe "value" Value.ofJson?
    return compares name operator literal
  | "inventory" => do
    let fields ← body.fields? ["operator", "item"]
    let operator ← fields.get "operator" (fun j => (j.word? isHollow).map Holding.ofWord) .unknown
    let item ← fields.need "item" Json.text?
    return carries operator item
  | "achievement" => do
    let fields ← body.fields? ["achievement"]
    return unlocked (← fields.need "achievement" Json.text?)
  | "random" => do
    let fields ← body.fields? ["probability"]
    return chance (← fields.maybe "probability" Json.number?)
  | _ => none

/-- The kind of condition and the tree that holds its fields: an object with a member `type`, or an
array that begins with the kind. -/
def kind? : Json → Option (String × Json)
  | .object members =>
    match members.lookup "type" with
    | some (.text kind) => some (kind, .object members)
    | _ => none
  | .array (.text kind :: items) => some (kind, .array items)
  | _ => none

def ofJson? (j : Json) : Option Condition := do
  let (kind, body) ← kind? j.settle
  ofFields kind body

def ofJson (j : Json) : Condition := (ofJson? j).getD unknown

/-- One condition written as a text of its own. -/
def ofText? (s : String) : Option Condition :=
  match Json.ofText? s with
  | some j => if j.sound Json.depthLimit then some (ofJson j) else none
  | none => none

def listOfText? (s : String) : Option (List Condition) :=
  match Json.ofText? s with
  | some (.array items) =>
    if Json.soundItems (Json.depthLimit - 1) items then some (items.map ofJson) else none
  | _ => none

end Condition

/-- A choice is shown when all conditions of `visible` pass, and can be taken when those of `enabled`
pass too. -/
structure Gates where
  visible : List Condition
  enabled : List Condition
deriving DecidableEq

namespace Gates

def empty : Gates := ⟨[], []⟩

/-- A list of conditions enables a choice; an object may hold both lists. Nothing in them may be
nested deeper than `room`. -/
def ofJson? (room : Nat) (j : Json) : Option Gates :=
  if j.sound room then
    match j with
    | .array items => some ⟨[], items.map Condition.ofJson⟩
    | .object members => do
      let fields ← (Json.object members).fields? ["show_if", "enable_if"]
      let conditions := Json.list? fun j => some (Condition.ofJson j)
      return ⟨← fields.get "show_if" conditions [], ← fields.get "enable_if" conditions []⟩
    | _ => none
  else none

end Gates

end Gamebook
