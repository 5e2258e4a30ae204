import Gamebook.Instant
import Gamebook.Json.Printer
import Gamebook.Json.Reader
import Gamebook.Progress

namespace Gamebook

/-- A save need not say when it was written. -/
structure Save where
  progress : Progress
  writtenAt : Option Instant
deriving DecidableEq

namespace Save

def fieldNames : List String :=
  ["currentNode", "variables", "inventory", "history", "achievements", "timestamp"]

def instant? : Json → Option Instant
  | .text s => Instant.ofText? s
  | _ => none

def ofJson? (j : Json) : Option Save := do
  let fields ← j.fields? fieldNames
  let texts := Json.list? Json.text?
  let node ← fields.get "currentNode" Json.text? ""
  let values ← fields.get "variables" (Json.dictionary? Value.ofJson?) .empty
  let inventory ← fields.get "inventory" texts []
  let history ← fields.get "history" texts []
  let achievements ← fields.get "achievements" texts []
  let writtenAt ← fields.get "timestamp" (fun j => (instant? j).map some) none
  return ⟨⟨node, values, inventory, history, achievements⟩, writtenAt⟩

def ofText? (s : String) : Option Save := (Json.ofText? s).bind ofJson?

def toJson (s : Save) : Json :=
  let p := s.progress
  let texts := fun (items : List String) => Json.array (items.map Json.text)
  .object <|
    [("currentNode", .text p.node),
      ("variables", .object (p.values.entries.map fun e => (e.1, e.2.toJson))),
      ("inventory", texts p.inventory), ("history", texts p.history),
      ("achievements", texts p.achievements)] ++
    (s.writtenAt.map fun t => ("timestamp", Json.text t.toText)).toList

def toText (s : Save) : String := s.toJson.toText

end Save

end Gamebook
