import Gamebook.Dictionary

namespace Gamebook

/-- A tree as it is written. Members keep their order and their repetitions. -/
inductive Json
  | null
  | flag (b : Bool)
  /-- A whole number below `2 ^ 64` written with digits alone. -/
  | count (n : UInt64)
  | number (x : Float)
  | text (s : String)
  | array (items : List Json)
  | object (members : List (String × Json))
  /-- Grammatical, but without a value: a number out of range, or a text or a member name with half a
  surrogate pair. It may stand only where nothing is read. -/
  | unreadable
deriving Inhabited

namespace Json

mutual

/-- Everything has a value and arrays and objects are nested at most `room` deep. -/
def sound (room : Nat) : Json → Bool
  | array items => decide (0 < room) && soundItems (room - 1) items
  | object members => decide (0 < room) && soundMembers (room - 1) members
  | unreadable => false
  | _ => true

def soundItems (room : Nat) : List Json → Bool
  | [] => true
  | j :: js => sound room j && soundItems room js

def soundMembers (room : Nat) : List (String × Json) → Bool
  | [] => true
  | (_, j) :: ms => sound room j && soundMembers room ms

end

mutual

/-- In every object the last of repeated members stands, and members ascend by name. -/
def settle : Json → Json
  | array items => array (settleItems items)
  | object members => object (Dictionary.ofList (settleMembers members)).entries
  | j => j

def settleItems : List Json → List Json
  | [] => []
  | j :: js => settle j :: settleItems js

def settleMembers : List (String × Json) → List (String × Json)
  | [] => []
  | (name, j) :: ms => (name, settle j) :: settleMembers ms

end

/-- How deep data may be nested. -/
def depthLimit : Nat := 127

end Json

end Gamebook
