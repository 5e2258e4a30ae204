import Gamebook.Markup
import Gamebook.Save
import Gamebook.Settings
import Gamebook.Story

namespace Gamebook

inductive Haptic
  | light
  | success
deriving DecidableEq

inductive Event
  | nodeEntered (node : String)
  | achievementUnlocked (id name : String)
  | haptic (kind : Haptic)
deriving DecidableEq

/-- A step from node to node; a game that begins comes from nowhere. -/
structure Move where
  origin : Option String
  destination : String
  events : List Event
deriving DecidableEq

def Move.unlocked (m : Move) : List String :=
  m.events.filterMap fun
    | .achievementUnlocked id _ => some id
    | _ => none

inductive Phase
  | ready
  | ended
deriving DecidableEq

structure Offer where
  id : String
  text : String
  enabled : Bool
deriving DecidableEq

/-- What a player is shown. -/
structure Scene where
  node : String
  title : Option String
  text : String
  image : Option String
  audio : Option String
  offers : List Offer
  phase : Phase
  inventory : List String
  values : Dictionary Value
  achievements : List String
deriving DecidableEq

namespace Scene

def enabledFlags (s : Scene) : List Bool := s.offers.map (·.enabled)

def isEnding (s : Scene) : Bool := s.phase == .ended

end Scene

structure Playthrough where
  story : Story
  settings : Settings
  progress : Progress
  generator : Generator
  last : Move

namespace Playthrough

def buzz (settings : Settings) (kind : Haptic) : List Event :=
  if settings.vibration then [.haptic kind] else []

def unlockEvents (story : Story) (settings : Settings) (ids : List String) : List Event :=
  ids.flatMap fun id =>
    .achievementUnlocked id (story.achievementName id) :: buzz settings .success

def applyEffects (story : Story) (settings : Settings) (effects : Option Effects) (p : Progress) :
    Progress × List Event :=
  match effects with
  | none => (p, [])
  | some e =>
    let next := e.apply p
    (next, unlockEvents story settings (next.achievements.drop p.achievements.length))

/-- The visit is recorded before the node's effects apply. -/
def enter (story : Story) (settings : Settings) (id : String) (p : Progress) :
    Except Fault (Progress × List Event) :=
  match story.node id with
  | .error fault => .error fault
  | .ok node =>
    let (next, events) := applyEffects story settings node.effects (p.visit id)
    .ok (next, .nodeEntered id :: buzz settings .light ++ events)

/-- A new game, or one that goes on from saved progress by entering its node again. -/
def start (story : Story) (saved : Option Progress) (settings : Settings) (g : Generator) :
    Except Fault Playthrough :=
  let p := saved.getD story.opening
  let target := if p.node.isEmpty then story.start else p.node
  match enter story settings target p with
  | .error fault => .error fault
  | .ok (next, events) => .ok ⟨story, settings, next, g, ⟨none, target, events⟩⟩

def restore (story : Story) (save : String) (settings : Settings) (g : Generator) :
    Except Fault Playthrough :=
  match Save.ofText? save with
  | none => .error .invalidSave
  | some s => start story (some s.progress) settings g

def currentNode (t : Playthrough) : Except Fault Node := t.story.node t.progress.node

/-- Cost, the choice's effects, and the node that it leads to. -/
def follow (story : Story) (settings : Settings) (c : Choice) (p : Progress) :
    Except Fault (Progress × List Event) :=
  let paid := (c.cost.map fun cost => cost.apply p).getD p
  let (changed, unlocked) := applyEffects story settings c.effects paid
  match enter story settings c.target changed with
  | .error fault => .error fault
  | .ok (next, events) => .ok (next, unlocked ++ events)

def gatesPass (gates : Gates) (p : Progress) (g : Generator) : Bool × Generator :=
  match Condition.evaluateAll gates.visible p g with
  | (true, g) => Condition.evaluateAll gates.enabled p g
  | (false, g) => (false, g)

def choose (t : Playthrough) (id : String) : Except Fault Move × Playthrough :=
  match t.currentNode with
  | .error fault => (.error fault, t)
  | .ok node =>
    if node.isEnding then (.error (.storyEnded t.progress.node), t)
    else match node.choice? id with
      | none => (.error (.choiceNotFound id), t)
      | some c =>
        match gatesPass c.gates t.progress t.generator with
        | (false, g) => (.error (.choiceUnavailable id), { t with generator := g })
        | (true, g) =>
          match follow t.story t.settings c t.progress with
          | .error fault => (.error fault, { t with generator := g })
          | .ok (next, events) =>
            let move : Move := ⟨some t.progress.node, next.node, events⟩
            (.ok move, { t with progress := next, generator := g, last := move })

def phaseOf (n : Node) : Phase := if n.isEnding then .ended else .ready

def phase (t : Playthrough) : Phase :=
  match t.currentNode with
  | .ok node => phaseOf node
  | .error _ => .ended

/-- The choices that are shown, each with its gates and then its text looked at in turn. -/
def offers (strip : Bool) (p : Progress) (g : Generator) : List Choice → List Offer × Generator
  | [] => ([], g)
  | c :: cs =>
    match Condition.evaluateAll c.gates.visible p g with
    | (false, g) => offers strip p g cs
    | (true, g) =>
      let (enabled, g) := Condition.evaluateAll c.gates.enabled p g
      let (text, g) := Markup.render strip c.text p g
      let (rest, g) := offers strip p g cs
      (⟨c.id, text, enabled⟩ :: rest, g)

/-- Only what the story defines is shown or heard. -/
def sceneOf (t : Playthrough) (node : Node) : Scene × Generator :=
  let strip := t.settings.stripMarkers
  let (text, g) := Markup.render strip node.content.text t.progress t.generator
  let (offers, g) := if node.isEnding then ([], g) else offers strip t.progress g node.choices
  ({ node := node.id
     title := node.title
     text
     image := node.content.image.filter t.story.images.contains
     audio := node.content.audio.filter fun id => t.settings.sound && t.story.audio.contains id
     offers
     phase := phaseOf node
     inventory := t.progress.inventory
     values := t.progress.values
     achievements := t.progress.achievements }, g)

def view (t : Playthrough) : Except Fault Scene × Playthrough :=
  match t.currentNode with
  | .error fault => (.error fault, t)
  | .ok node =>
    let (scene, g) := t.sceneOf node
    (.ok scene, { t with generator := g })

/-- All progress is thrown away and the start node entered. -/
def reset (t : Playthrough) : Except Fault Move × Playthrough :=
  match enter t.story t.settings t.story.start t.story.opening with
  | .error fault => (.error fault, t)
  | .ok (next, events) =>
    let move : Move := ⟨some t.progress.node, t.story.start, events⟩
    (.ok move, { t with progress := next, last := move })

def save (t : Playthrough) (now : Instant) : String := Save.toText ⟨t.progress, some now⟩

end Playthrough

end Gamebook
