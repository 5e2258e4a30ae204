import Gamebook.Story

namespace Gamebook

def Image.ofJson? (j : Json) : Option Image := do
  let fields ← j.fields? ["path", "alt_text", "format"]
  let path ← fields.need "path" Json.text?
  let altText ← fields.maybe "alt_text" Json.text?
  return ⟨path, altText, ← fields.maybe "format" Json.text?⟩

namespace Audio

/-- A text loops when it says `true`, any other value when it counts as true. -/
def loops : Value → Bool
  | .text s => lower (trim s.toList) = ['t', 'r', 'u', 'e']
  | v => v.isTrue

def defaultVolume : Float := 0.5

def clamp (x : Float) : Float := if x < 0 then 0 else if 1 < x then 1 else x

def volumeOf (v : Value) : Float :=
  match v.number? with
  | some x => if x.isFinite then clamp x else defaultVolume
  | none => defaultVolume

def ofJson? (j : Json) : Option Audio := do
  let fields ← j.fields? ["path", "loop", "volume", "format"]
  let path ← fields.need "path" Json.text?
  let loop ← fields.get "loop" (fun j => (Value.ofJson? j).map loops) false
  let volume ← fields.get "volume" (fun j => (Value.ofJson? j).map volumeOf) defaultVolume
  return ⟨path, loop, volume, ← fields.maybe "format" Json.text?⟩

end Audio

def Achievement.ofJson? (j : Json) : Option Achievement := do
  let fields ← j.fields? ["name", "description", "icon"]
  let name ← fields.get "name" Json.text? ""
  let description ← fields.maybe "description" Json.text?
  return ⟨name, description, ← fields.maybe "icon" Json.text?⟩

namespace Content

def empty : Content := ⟨"", none, none⟩

def ofJson? (j : Json) : Option Content := do
  let fields ← j.fields? ["text", "image", "audio"]
  let text ← fields.get "text" Json.text? ""
  let image ← fields.maybe "image" Json.text?
  return ⟨text, image, ← fields.maybe "audio" Json.text?⟩

end Content

def Choice.ofJson? (room : Nat) (j : Json) : Option Choice := do
  let fields ← j.fields? ["id", "text", "target", "conditions", "effects", "cost"]
  let id ← fields.need "id" Json.text?
  let text ← fields.get "text" Json.text? ""
  let target ← fields.need "target" Json.text?
  let gates ← fields.get "conditions" (Gates.ofJson? (room - 1)) Gates.empty
  let effects ← fields.maybe "effects" Effects.ofJson?
  return ⟨id, text, target, gates, effects, ← fields.maybe "cost" Cost.ofJson?⟩

/-- A node may name an id, but goes by the one that it is stored under. -/
def Node.ofJson? (room : Nat) (j : Json) : Option Node := do
  let fields ← j.fields? ["id", "title", "content", "choices", "effects", "ending"]
  let id ← fields.get "id" Json.text? ""
  let title ← fields.maybe "title" Json.text?
  let content ← fields.get "content" Content.ofJson? Content.empty
  let choices ← fields.get "choices" (Json.list? (Choice.ofJson? (room - 2))) []
  let effects ← fields.maybe "effects" Effects.ofJson?
  return ⟨id, title, content, choices, effects, ← fields.get "ending" Json.flag? false⟩

def initialValue? (j : Json) : Option (Option Value) := do
  (← j.fields? ["initial_value"]).maybe "initial_value" Value.ofJson?

namespace Story

def defaultStart : String := "start"

/-- The tree as it stands, with the ids that the nodes name. -/
def ofJson? (room : Nat) (j : Json) : Option Story := do
  let fields ← j.fields? ["start_node", "nodes", "game_state", "assets"]
  let start ← fields.get "start_node" Json.text? defaultStart
  let nodes ← fields.need "nodes" (Json.dictionary? (Node.ofJson? (room - 2)))
  let (initialValues, achievements) ← fields.get "game_state" (fun j => do
    let declared ← j.fields? ["variables", "achievements"]
    let initialValues ← declared.get "variables" (Json.dictionary? initialValue?) .empty
    return (initialValues, ← declared.get "achievements" (Json.dictionary? Achievement.ofJson?) .empty))
    (.empty, .empty)
  let (images, audio) ← fields.get "assets" (fun j => do
    let declared ← j.fields? ["images", "audio"]
    let images ← declared.get "images" (Json.dictionary? Image.ofJson?) .empty
    return (images, ← declared.get "audio" (Json.dictionary? Audio.ofJson?) .empty))
    (.empty, .empty)
  return ⟨start, nodes, initialValues, achievements, images, audio⟩

/-- Nodes get the ids that they are stored under, and the start node must be one of them. -/
def finish (s : Story) : Except StoryFlaw Story :=
  let nodes := s.nodes.mapEntries fun e => { e.2 with id := e.1 }
  if nodes.contains s.start then .ok { s with nodes } else .error (.startUndefined s.start)

def read (room : Nat) (j : Json) : Except StoryFlaw Story :=
  match ofJson? room j with
  | some s => s.finish
  | none => .error .shape

/-- The story that a settled text holds: itself when it has nodes, else what stands under `story`. -/
def body (j : Json) : Json :=
  match j with
  | .object members =>
    match members.lookup "nodes", members.lookup "story" with
    | none, some story => story
    | _, _ => j
  | _ => j

/-- The text is settled before it is read, so that the last of repeated members stands. -/
def ofText (s : String) : Except Fault Story :=
  match Json.ofText? s with
  | some j =>
    if j.sound Json.depthLimit then
      (read Json.depthLimit (body j.settle)).mapError Fault.invalidStory
    else .error (.invalidStory .shape)
  | none => .error (.invalidStory .shape)

end Story

/-- A story beside what a shop would list. -/
structure Package where
  id : String
  title : String
  author : String
  description : String
  thumbnail : Option String
  tags : List String
  estimatedPlayTime : Option String
  rating : Option String
  story : Story
deriving DecidableEq

namespace Package

def ofJson? (j : Json) : Option Package := do
  let fields ← j.fields? ["id", "title", "author", "description", "thumbnail", "tags",
    "estimated_play_time", "rating", "story"]
  let id ← fields.get "id" Json.text? ""
  let title ← fields.get "title" Json.text? ""
  let author ← fields.get "author" Json.text? ""
  let description ← fields.get "description" Json.text? ""
  let thumbnail ← fields.maybe "thumbnail" Json.text?
  let tags ← fields.get "tags" (Json.list? Json.text?) []
  let estimatedPlayTime ← fields.maybe "estimated_play_time" Json.text?
  let rating ← fields.maybe "rating" Json.text?
  let story ← fields.need "story" (Story.ofJson? (Json.depthLimit - 1))
  return ⟨id, title, author, description, thumbnail, tags, estimatedPlayTime, rating, story⟩

def ofText (s : String) : Except Fault Package :=
  match (Json.ofText? s).bind ofJson? with
  | some p =>
    match p.story.finish with
    | .ok story => .ok { p with story }
    | .error flaw => .error (.invalidStory flaw)
  | none => .error (.invalidStory .shape)

end Package

end Gamebook
