import Gamebook.Json.Reader
import Gamebook.Progress

namespace Gamebook

inductive Operation
  | add
  | subtract
  | multiply
  | set
deriving DecidableEq

namespace Operation

def word : Operation → String
  | add => "add"
  | subtract => "subtract"
  | multiply => "multiply"
  | set => "set"

/-- A word that is not known sets. -/
def ofWord : String → Operation
  | "add" => add
  | "subtract" => subtract
  | "multiply" => multiply
  | _ => set

end Operation

structure Modification where
  operation : Operation
  value : Value
deriving DecidableEq

namespace Modification

def apply (m : Modification) (current : Option Value) : Value :=
  match m.operation with
  | .add => .number (Value.amount current + Value.amount m.value)
  | .subtract => .number (Value.amount current - Value.amount m.value)
  | .multiply => .number (Value.amount current * Value.amount m.value)
  | .set => m.value

def ofJson? (j : Json) : Option Modification := do
  let fields ← j.fields? ["operation", "value"]
  let operation ← fields.get "operation" (fun j => (j.word? Json.isNull).map Operation.ofWord) .set
  return ⟨operation, ← fields.need "value" Value.ofJson?⟩

def ofText? (s : String) : Option Modification := (Json.ofText? s).bind ofJson?

end Modification

structure Effects where
  assignments : Dictionary Value
  modifications : Dictionary Modification
  gains : List String
  losses : List String
  unlocks : List String
deriving DecidableEq

namespace Effects

def isEmpty (e : Effects) : Bool :=
  e.assignments.isEmpty && e.modifications.isEmpty && e.gains.isEmpty && e.losses.isEmpty &&
    e.unlocks.isEmpty

def applyAssignments (assignments : Dictionary Value) (p : Progress) : Progress :=
  assignments.entries.foldl (fun p e => p.setVariable e.1 e.2) p

def applyModifications (modifications : Dictionary Modification) (p : Progress) : Progress :=
  modifications.entries.foldl (fun p e => p.setVariable e.1 (e.2.apply (p.valueOf? e.1))) p

def applyUnlocks (unlocks : List String) (p : Progress) : Progress :=
  unlocks.foldl (fun p id => (p.unlock id).2) p

/-- Every copy of an item that is lost goes, those gained just now included. -/
def apply (e : Effects) (p : Progress) : Progress :=
  let p := applyModifications e.modifications (applyAssignments e.assignments p)
  let inventory := (p.inventory ++ e.gains).filter fun item => !e.losses.contains item
  applyUnlocks e.unlocks { p with inventory }

def ofJson? (j : Json) : Option Effects := do
  let fields ← j.fields?
    ["set_variables", "modify_variables", "add_inventory", "remove_inventory", "unlock_achievements"]
  let assignments ← fields.get "set_variables" (Json.dictionary? Value.ofJson?) .empty
  let modifications ← fields.get "modify_variables" (Json.dictionary? Modification.ofJson?) .empty
  let gains ← fields.get "add_inventory" (Json.list? Json.text?) []
  let losses ← fields.get "remove_inventory" (Json.list? Json.text?) []
  let unlocks ← fields.get "unlock_achievements" (Json.list? Json.text?) []
  return ⟨assignments, modifications, gains, losses, unlocks⟩

def ofText? (s : String) : Option Effects := (Json.ofText? s).bind ofJson?

end Effects

/-- What taking a choice costs. Nobody asks whether the player can pay: variables go below zero and
items that are not held are passed over. -/
structure Cost where
  amounts : Dictionary Float
  items : List String
deriving DecidableEq

namespace Cost

def applyAmounts (amounts : Dictionary Float) (p : Progress) : Progress :=
  amounts.entries.foldl
    (fun p e => p.setVariable e.1 (.number (Value.amount (p.valueOf? e.1) - e.2))) p

def applyItems (items : List String) (p : Progress) : Progress :=
  items.foldl (fun p item => (p.removeFirst item).2) p

def apply (c : Cost) (p : Progress) : Progress := applyItems c.items (applyAmounts c.amounts p)

def ofJson? (j : Json) : Option Cost := do
  let fields ← j.fields? ["variables", "inventory"]
  let amounts ← fields.get "variables" (Json.dictionary? Json.number?) .empty
  return ⟨amounts, ← fields.get "inventory" (Json.list? Json.text?) []⟩

def ofText? (s : String) : Option Cost := (Json.ofText? s).bind ofJson?

end Cost

end Gamebook
