import Gamebook.Json.Token

namespace Gamebook

namespace Json

/-- An open array or object with what it holds so far, latest first. -/
inductive Frame
  | array (before : List Json)
  | object (before : List (Option String × Json)) (name : Option String)

/-- What has been read, and what may come next. -/
inductive Reader
  /-- A value must follow. -/
  | value (outer : List Frame)
  /-- Behind an opening bracket: an item or the closing one. -/
  | item (outer : List Frame)
  /-- In an object: a member's name, or at first also the closing brace. -/
  | member (outer : List Frame) (before : List (Option String × Json)) (first : Bool)
  /-- Behind a member's name. -/
  | colon (outer : List Frame) (before : List (Option String × Json)) (name : Option String)
  /-- Behind a value. -/
  | done (outer : List Frame) (j : Json)

def ofMembers (members : List (Option String × Json)) : Json :=
  match members.mapM fun m => m.1.map fun name => (name, m.2) with
  | some named => object named
  | none => unreadable

def ofQuoted : Option String → Json
  | some s => text s
  | none => unreadable

namespace Reader

def stepValue (outer : List Frame) : Token → Option Reader
  | .plain j => some (done outer j)
  | .quoted s => some (done outer (ofQuoted s))
  | .openArray => some (item outer)
  | .openObject => some (member outer [] true)
  | _ => none

def step : Reader → Token → Option Reader
  | value outer, t => stepValue outer t
  | item outer, .closeArray => some (done outer (.array []))
  | item outer, t => stepValue (.array [] :: outer) t
  | member outer before _, .quoted name => some (colon outer before name)
  | member outer _ true, .closeObject => some (done outer (.object []))
  | colon outer before name, .colon => some (value (.object before name :: outer))
  | done (.array before :: outer) j, .comma => some (value (.array (j :: before) :: outer))
  | done (.array before :: outer) j, .closeArray => some (done outer (.array (j :: before).reverse))
  | done (.object before name :: outer) j, .comma => some (member outer ((name, j) :: before) false)
  | done (.object before name :: outer) j, .closeObject =>
    some (done outer (ofMembers ((name, j) :: before).reverse))
  | _, _ => none

def feed (r : Reader) (cs : List Char) : Option Reader :=
  match _hs : cs.dropWhile Token.isSpace with
  | [] => some r
  | c :: rest =>
    match _hn : Token.next? (c :: rest) with
    | none => none
    | some (t, rest') =>
      match r.step t with
      | none => none
      | some r' => feed r' rest'
termination_by cs.length
decreasing_by
  have hs := dropWhile_length Token.isSpace cs
  have hl := Token.next?_length _hn
  simp only [_hs, List.length_cons] at hs hl
  omega

end Reader

/-- The one value of a JSON text. -/
def parse? (cs : List Char) : Option Json :=
  match Reader.feed (.value []) cs with
  | some (.done [] j) => some j
  | _ => none

def ofText? (s : String) : Option Json := parse? s.toList

end Json

end Gamebook
