namespace Gamebook

inductive AssetKind
  | image
  | audio
deriving DecidableEq

def AssetKind.word : AssetKind → String
  | image => "image"
  | audio => "audio"

inductive StoryFlaw
  /-- The text does not have the shape of a story. -/
  | shape
  | startUndefined (start : String)
deriving DecidableEq

def StoryFlaw.message : StoryFlaw → String
  | shape => "the text does not have the shape of a story"
  | startUndefined start => "start node '" ++ start ++ "' is not defined"

inductive Fault
  | nodeNotFound (id : String)
  | choiceNotFound (id : String)
  /-- The choice exists, but one of its gates is closed. -/
  | choiceUnavailable (id : String)
  | storyEnded (node : String)
  | assetNotFound (kind : AssetKind) (id : String)
  | invalidStory (flaw : StoryFlaw)
  | invalidSave
  | invalidSettings
deriving DecidableEq

def Fault.message : Fault → String
  | nodeNotFound id => "story node not found: " ++ id
  | choiceNotFound id => "choice not found: " ++ id
  | choiceUnavailable id => "choice is not available right now: " ++ id
  | storyEnded node => "the story has ended at node " ++ node
  | assetNotFound kind id => kind.word ++ " asset not found: " ++ id
  | invalidStory flaw => "invalid story document: " ++ flaw.message
  | invalidSave => "invalid saved state: the text is not a save"
  | invalidSettings => "json error: the text does not hold settings"

end Gamebook
