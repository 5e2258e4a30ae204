import Gamebook.Arguments
import Gamebook.Playthrough

namespace Gamebook

inductive Command
  | nothing
  | quit
  | restart
  | other (text : String)
deriving DecidableEq

def Command.ofLine (line : String) : Command :=
  let text := trim line.toList
  let word := String.ofList (lower text)
  if text.isEmpty then nothing
  else if word = "quit" ∨ word = "q" then quit
  else if word = "restart" then restart
  else other (String.ofList text)

structure Session where
  game : Playthrough
  scene : Scene

namespace Session

def welcome : String := "  Type a choice number, 'restart' to begin again, 'quit' to exit.\n\n"

def prompt : String := "> "

def offerLine (number : Nat) (o : Offer) : String :=
  let label := "  " ++ toString number ++ ". " ++ o.text
  (if o.enabled then label else label ++ " (unavailable)") ++ "\n"

def offerLines (number : Nat) : List Offer → String
  | [] => ""
  | o :: os => offerLine number o ++ offerLines (number + 1) os

def sceneText (s : Scene) : String :=
  (match s.title with
    | some title => "  " ++ title ++ "\n"
    | none => "") ++
  s.text ++ "\n\n" ++
  (if s.isEnding then "  The End.\n\n" else offerLines 1 s.offers ++ "\n")

def eventText : Event → String
  | .achievementUnlocked _ name => "  Achievement unlocked: " ++ name ++ "\n\n"
  | _ => ""

def eventsText (m : Move) : String := String.join (m.events.map eventText)

inductive Pick
  | choice (id : String)
  | refused (message : String)
deriving DecidableEq

/-- The choice that a typed number stands for in the scene shown last. -/
def pick (s : Scene) (text : String) : Pick :=
  if s.isEnding then .refused "The story has ended. Type 'restart' or 'quit'."
  else match wordOf? text.toList with
    | none => .refused ("unknown command: " ++ text)
    | some n =>
      let offer := if n = 0 then none else s.offers[n.toNat - 1]?
      match offer with
      | some o => .choice o.id
      | none => .refused ("no choice numbered " ++ toString n.toNat)

/-- What a line leads to. -/
inductive Turn
  | quit
  /-- Nothing but the generator has changed. -/
  | refused (session : Session) (output : String)
  /-- A step was taken: its events, and then the new scene. -/
  | stepped (session : Session) (events scene : String)
  /-- A step was taken, and no scene can be shown. -/
  | lost (game : Playthrough) (events message : String)

def ofGame (game : Playthrough) : Except Fault Session :=
  match game.view with
  | (.ok scene, game) => .ok ⟨game, scene⟩
  | (.error fault, _) => .error fault

def settle (scene : Scene) : Except Fault Move × Playthrough → Turn
  | (.ok move, game) =>
    match ofGame game with
    | .ok session => .stepped session (eventsText move) (sceneText session.scene)
    | .error fault => .lost game (eventsText move) fault.message
  | (.error fault, game) => .refused ⟨game, scene⟩ (fault.message ++ "\n\n")

def turn (s : Session) (line : String) : Turn :=
  match Command.ofLine line with
  | .nothing => .refused s ""
  | .quit => .quit
  | .restart => settle s.scene s.game.reset
  | .other text =>
    match pick s.scene text with
    | .refused message => .refused s (message ++ "\n\n")
    | .choice id => settle s.scene (s.game.choose id)

end Session

end Gamebook
