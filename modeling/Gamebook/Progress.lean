import Gamebook.Value

namespace Gamebook

/-- The node is empty before the first one is entered; items and visited nodes may repeat. -/
structure Progress where
  node : String
  values : Dictionary Value
  inventory : List String
  history : List String
  achievements : List String
deriving DecidableEq

namespace Progress

def empty : Progress := ⟨"", Dictionary.empty, [], [], []⟩

def valueOf? (p : Progress) (name : String) : Option Value := p.values.get? name

def setVariable (p : Progress) (name : String) (v : Value) : Progress :=
  { p with values := p.values.insert name v }

def holdsItem (p : Progress) (item : String) : Bool := p.inventory.contains item

def addItem (p : Progress) (item : String) : Progress :=
  { p with inventory := p.inventory ++ [item] }

/-- Without the oldest copy of an item, and whether there was one. -/
def removeFirst (p : Progress) (item : String) : Bool × Progress :=
  (p.holdsItem item, { p with inventory := p.inventory.erase item })

/-- Without any copy of an item, and how many there were. -/
def removeAll (p : Progress) (item : String) : Nat × Progress :=
  let kept := p.inventory.filter (· != item)
  (p.inventory.length - kept.length, { p with inventory := kept })

def hasAchievement (p : Progress) (id : String) : Bool := p.achievements.contains id

/-- With an achievement, and whether it is new. -/
def unlock (p : Progress) (id : String) : Bool × Progress :=
  if p.hasAchievement id then (false, p)
  else (true, { p with achievements := p.achievements ++ [id] })

def visit (p : Progress) (node : String) : Progress :=
  { p with node := node, history := p.history ++ [node] }

end Progress

end Gamebook
