import Gamebook.Disk
import Gamebook.Lint
import Gamebook.Session
import Gamebook.Story.Reading
import Gamebook.Table
import Gamebook.Usage

namespace Gamebook

/-- What a run of the program prints, how it ends and which files it leaves. -/
structure Outcome where
  code : Nat
  out : String
  err : String
  disk : Disk

namespace Program

def complaint (message : String) : String := "error: " ++ message ++ "\n"

def failure (disk : Disk) (out message : String) : Outcome := ⟨1, out, complaint message, disk⟩

def loadStory (disk : Disk) (path : String) : Except String Story :=
  match disk.read path with
  | .error fault => .error ("cannot read '" ++ path ++ "': " ++ fault.message)
  | .ok text =>
    match Story.ofText text with
    | .ok story => .ok story
    | .error fault => .error ("'" ++ path ++ "': " ++ fault.message)

def counted (n : Nat) (noun : String) : String :=
  toString n ++ " " ++ noun ++ if n = 1 then "" else "s"

def issueTable (r : Lint.Report) : String :=
  Table.render ["Level", "Node", "Problem"]
    (r.issues.map fun i => [i.severity.word, i.node, i.problem.message])

def check (disk : Disk) (path : String) : Outcome :=
  match loadStory disk path with
  | .error message => failure disk "" message
  | .ok story =>
    let report := Lint.report story
    if report.isEmpty then
      let out := "  All checks passed for '" ++ path ++ "'.\n  " ++ toString story.nodes.size ++
        " nodes, start at '" ++ story.start ++ "'\n"
      ⟨0, out, "", disk⟩
    else
      let out := issueTable report ++ "\n\n  " ++ counted (report.count .error) "error" ++ ", " ++
        counted (report.count .warning) "warning" ++ "\n"
      if report.hasErrors then failure disk out "story has errors"
      else ⟨0, out ++ "  No errors.\n", "", disk⟩

/-- A seed or a wish to strip markers on the command line goes before the settings file. -/
def loadSettings (disk : Disk) (options : PlayOptions) : Except String Settings :=
  let loaded : Except String Settings := match options.settings with
    | none => .ok {}
    | some path =>
      match disk.read path with
      | .error fault => .error ("cannot read settings '" ++ path ++ "': " ++ fault.message)
      | .ok text =>
        match Settings.ofText? text with
        | some settings => .ok settings
        | none => .error Fault.invalidSettings.message
  loaded.map fun settings =>
    { settings with
      seed := options.seed.or settings.seed
      stripMarkers := settings.stripMarkers || options.stripMarkers }

/-- The text of the save that a game resumes from; a path without a file is none. -/
def loadSave (disk : Disk) (options : PlayOptions) : Except String (Option String) :=
  match options.save with
  | none => .ok none
  | some path =>
    if disk.isPresent path then
      match disk.read path with
      | .error fault => .error ("cannot read save '" ++ path ++ "': " ++ fault.message)
      | .ok text => .ok (some text)
    else .ok none

def writeSave (now : Instant) (disk : Disk) (options : PlayOptions) (game : Playthrough) :
    Except String Disk :=
  match options.save with
  | none => .ok disk
  | some path =>
    match disk.write path (game.save now) with
    | .ok disk => .ok disk
    | .error fault => .error ("cannot write save '" ++ path ++ "': " ++ fault.message)

def begin (story : Story) (saved : Option String) (settings : Settings) (entropy : UInt64) :
    Except String Playthrough :=
  let g := settings.generator entropy
  let begun := match saved with
    | some text => Playthrough.restore story text settings g
    | none => Playthrough.start story none settings g
  begun.mapError fun fault => "failed to start story: " ++ fault.message

/-- A game that is being played on a terminal, or the outcome of one that could not begin. -/
inductive Opening
  | failed (outcome : Outcome)
  | playing (session : Session) (out : String) (disk : Disk)

def openGame (now : Instant) (disk : Disk) (options : PlayOptions) (game : Playthrough)
    (out : String) : Opening :=
  match writeSave now disk options game with
  | .error message => .failed (failure disk out message)
  | .ok disk =>
    let out := out ++ Session.welcome
    match Session.ofGame game with
    | .error fault => .failed (failure disk out fault.message)
    | .ok session => .playing session (out ++ Session.sceneText session.scene ++ Session.prompt) disk

def openPlay (now : Instant) (entropy : UInt64) (disk : Disk) (options : PlayOptions) : Opening :=
  let loaded : Except String (Story × Settings × Option String) := do
    let story ← loadStory disk options.story
    let settings ← loadSettings disk options
    return (story, settings, ← loadSave disk options)
  match loaded with
  | .error message => .failed (failure disk "" message)
  | .ok (story, settings, saved) =>
    let out := if saved.isSome then "  Resuming from '" ++ options.save.getD "" ++ "'.\n" else ""
    match begin story saved settings entropy with
    | .error message => .failed (failure disk out message)
    | .ok game => openGame now disk options game out

/-- What one line prints, and the session and the files behind it. -/
inductive Step
  | ended (out : String)
  | failed (out message : String) (disk : Disk)
  | next (session : Session) (out : String) (disk : Disk)

/-- A save is written behind every step taken, before anything can go wrong with its scene. -/
def step (now : Instant) (options : PlayOptions) (disk : Disk) (s : Session) (line : String) : Step :=
  match s.turn line with
  | .quit => .ended ""
  | .refused session out => .next session (out ++ Session.prompt) disk
  | .lost game events message =>
    match writeSave now disk options game with
    | .error refusal => .failed events refusal disk
    | .ok disk => .failed events message disk
  | .stepped session events scene =>
    match writeSave now disk options session.game with
    | .error refusal => .failed events refusal disk
    | .ok disk => .next session (events ++ scene ++ Session.prompt) disk

def playLines (now : Instant) (options : PlayOptions) (disk : Disk) (out : String) (s : Session) :
    List String → Outcome
  | [] => ⟨0, out, "", disk⟩
  | line :: lines =>
    match step now options disk s line with
    | .ended more => ⟨0, out ++ more, "", disk⟩
    | .failed more message disk => failure disk (out ++ more) message
    | .next s more disk => playLines now options disk (out ++ more) s lines

def play (now : Instant) (entropy : UInt64) (disk : Disk) (options : PlayOptions)
    (lines : List String) : Outcome :=
  match openPlay now entropy disk options with
  | .failed outcome => outcome
  | .playing session out disk => playLines now options disk out session lines

/-- The lines of a text, of which the last may lack its end. -/
def linesOf (text : String) : List String :=
  let (first, others) := split '\n' text.toList
  let lines := (first :: others).map String.ofList
  if lines.getLast? = some "" then lines.dropLast else lines

def run (now : Instant) (entropy : UInt64) (disk : Disk) (input : String) (arguments : List String) :
    Outcome :=
  match Arguments.request? arguments with
  | none => ⟨2, "", Topic.program.usage, disk⟩
  | some (.help topic) => ⟨0, topic.usage, "", disk⟩
  | some (.version topic) => ⟨0, topic.versionText, "", disk⟩
  | some (.check path) => check disk path
  | some (.play options) => play now entropy disk options (linesOf input)

end Program

end Gamebook
