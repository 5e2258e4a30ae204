import Gamebook.Decimal.Numeral

namespace Gamebook

structure PlayOptions where
  story : String
  save : Option String
  settings : Option String
  seed : Option UInt64
  stripMarkers : Bool
deriving DecidableEq

/-- What help or a version is asked for. -/
inductive Topic
  | program
  | check
  | play
  | help
deriving DecidableEq

inductive Request
  | check (story : String)
  | play (options : PlayOptions)
  | help (about : Topic)
  | version (of : Topic)
deriving DecidableEq

/-- A whole number of 64 bits, written with digits alone but for a plus sign in front. -/
def wordOf? (cs : List Char) : Option UInt64 :=
  let digits := match cs with
    | '+' :: r => r
    | r => r
  if digits.isEmpty || !digits.all Char.isDigit then none
  else
    let n := naturalValue digits
    if n < UInt64.size then some n.toUInt64 else none

namespace Arguments

/-- What has been read of the options of `play`; each may be given once. -/
structure Draft where
  story : Option String := none
  save : Option String := none
  settings : Option String := none
  seed : Option UInt64 := none
  stripMarkers : Bool := false

inductive Setting
  | save
  | settings
  | seed

def settingOf? (name : List Char) : Option Setting :=
  if name = "save".toList then some .save
  else if name = "settings".toList then some .settings
  else if name = "seed".toList then some .seed
  else none

namespace Draft

def place (d : Draft) (path : String) : Option Draft :=
  if d.story.isSome || path.isEmpty then none else some { d with story := path }

def set (d : Draft) (setting : Setting) (value : String) : Option Draft :=
  match setting with
  | .save => if d.save.isSome || value.isEmpty then none else some { d with save := value }
  | .settings => if d.settings.isSome || value.isEmpty then none else some { d with settings := value }
  | .seed => do
    let seed ← wordOf? value.toList
    if d.seed.isSome then none else some { d with seed }

def strip (d : Draft) : Option Draft :=
  if d.stripMarkers then none else some { d with stripMarkers := true }

def finish (d : Draft) : Option Request :=
  d.story.map fun story => .play ⟨story, d.save, d.settings, d.seed, d.stripMarkers⟩

end Draft

/-- Words that begin with a dash are options, but for the dash alone. -/
def isOption (word : String) : Bool :=
  match word.toList with
  | '-' :: _ :: _ => true
  | _ => false

def placeAll (d : Draft) : List String → Option Draft
  | [] => some d
  | path :: paths => (d.place path).bind fun d => placeAll d paths

/-- A value stands behind an equals sign or is the next word. -/
def afterEquals (cs : List Char) : List Char × Option (List Char) :=
  match cs.dropWhile (· != '=') with
  | _ :: value => (cs.takeWhile (· != '='), some value)
  | [] => (cs, none)

def play (d : Draft) : List String → Option Request
  | [] => d.finish
  | word :: rest =>
    match word.toList with
    | ['-', '-'] => (placeAll d rest).bind Draft.finish
    | '-' :: '-' :: long =>
      let (name, value) := afterEquals long
      if name = "help".toList then if value.isNone then some (.help .play) else none
      else if name = "version".toList then if value.isNone then some (.version .play) else none
      else if name = "strip-typewriter".toList then
        if value.isNone then d.strip.bind fun d => play d rest else none
      else match settingOf? name, value with
        | some setting, some v => (d.set setting (String.ofList v)).bind fun d => play d rest
        | some setting, none => withNext d setting rest
        | none, _ => none
    | ['-', 's'] => withNext d .save rest
    | '-' :: 's' :: '=' :: value => (d.set .save (String.ofList value)).bind fun d => play d rest
    | '-' :: 's' :: value => (d.set .save (String.ofList value)).bind fun d => play d rest
    | '-' :: 'h' :: _ => some (.help .play)
    | '-' :: 'V' :: _ => some (.version .play)
    | '-' :: _ :: _ => none
    | _ => (d.place word).bind fun d => play d rest
where
  withNext (d : Draft) (setting : Setting) : List String → Option Request
    | [] => none
    | value :: rest =>
      if isOption value then none else (d.set setting value).bind fun d => play d rest

def check (story : Option String) : List String → Option Request
  | [] => story.map .check
  | word :: rest =>
    if word = "--help" ∨ word.startsWith "-h" then some (.help .check)
    else if word = "--version" ∨ word.startsWith "-V" then some (.version .check)
    else if word = "--" then
      match story, rest with
      | some path, [] => some (.check path)
      | none, [path] => if path.isEmpty then none else some (.check path)
      | _, _ => none
    else if isOption word || word.isEmpty || story.isSome then none
    else check (some word) rest

def help : List String → Option Request
  | [] => some (.help .program)
  | ["check"] => some (.help .check)
  | ["play"] => some (.help .play)
  | ["help"] => some (.help .help)
  | _ => none

/-- None for what the program does not understand. -/
def request? : List String → Option Request
  | "check" :: rest => check none rest
  | "play" :: rest => play {} rest
  | "help" :: rest => help rest
  | word :: _ =>
    if word = "--help" ∨ word.startsWith "-h" then some (.help .program)
    else if word = "--version" ∨ word.startsWith "-V" then some (.version .program)
    else none
  | [] => none

end Arguments

end Gamebook
