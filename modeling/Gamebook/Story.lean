import Gamebook.Condition
import Gamebook.Effects
import Gamebook.Fault

namespace Gamebook

structure Image where
  path : String
  altText : Option String
  format : Option String
deriving DecidableEq

/-- The volume lies between 0 and 1. -/
structure Audio where
  path : String
  loop : Bool
  volume : Float
  format : Option String
deriving DecidableEq

structure Achievement where
  name : String
  description : Option String
  icon : Option String
deriving DecidableEq

structure Content where
  text : String
  image : Option String
  audio : Option String
deriving DecidableEq

/-- The target need not exist, which only shows when the choice is taken. -/
structure Choice where
  id : String
  text : String
  target : String
  gates : Gates
  effects : Option Effects
  cost : Option Cost
deriving DecidableEq

structure Node where
  id : String
  title : Option String
  content : Content
  choices : List Choice
  /-- Applied every time the node is entered. -/
  effects : Option Effects
  /-- Marked as an ending. -/
  ending : Bool
deriving DecidableEq

namespace Node

/-- A story also ends where there is nothing to choose. -/
def isEnding (n : Node) : Bool := n.ending || n.choices.isEmpty

/-- Of choices with one id the first counts. -/
def choice? (n : Node) (id : String) : Option Choice := n.choices.find? fun c => c.id == id

end Node

/-- A variable is declared with an initial value or left unset. -/
structure Story where
  start : String
  nodes : Dictionary Node
  initialValues : Dictionary (Option Value)
  achievements : Dictionary Achievement
  images : Dictionary Image
  audio : Dictionary Audio
deriving DecidableEq

namespace Story

def node (s : Story) (id : String) : Except Fault Node :=
  match s.nodes.get? id with
  | some n => .ok n
  | none => .error (.nodeNotFound id)

def image (s : Story) (id : String) : Except Fault Image :=
  match s.images.get? id with
  | some i => .ok i
  | none => .error (.assetNotFound .image id)

def track (s : Story) (id : String) : Except Fault Audio :=
  match s.audio.get? id with
  | some a => .ok a
  | none => .error (.assetNotFound .audio id)

/-- The name a player sees: the declared one unless it is missing or empty. -/
def achievementName (s : Story) (id : String) : String :=
  match s.achievements.get? id with
  | some a => if a.name.isEmpty then id else a.name
  | none => id

/-- Where a new game begins, before the start node is entered. -/
def opening (s : Story) : Progress :=
  { Progress.empty with values := s.initialValues.filterMap id }

end Story

end Gamebook
