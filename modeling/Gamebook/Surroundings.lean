import Gamebook.Program

namespace Gamebook

def PlayOptions.paths (o : PlayOptions) : List String := o.story :: (o.save.toList ++ o.settings.toList)

def Request.paths : Request → List String
  | .check story => [story]
  | .play options => options.paths
  | .help _ | .version _ => []

/-- What the program asks of the system that it runs on. -/
structure Surroundings (m : Type → Type) where
  clock : m Instant
  entropy : m UInt64
  /-- What paths lead to. -/
  look : List String → m Disk
  write : (path text : String) → m Unit
  print : String → m Unit
  complain : String → m Unit

namespace Surroundings

open Program

variable {m : Type → Type} [Monad m] {ρ : Type} [ForIn m ρ String] (sys : Surroundings m)

/-- Only the save file is ever written, and only when it is no longer as it was. -/
def keepSave (options : PlayOptions) (before after : Disk) : m Unit := do
  match options.save with
  | none => return
  | some path =>
    match after.read path with
    | .error _ => return
    | .ok text => if before ≠ after then sys.write path text

def finish (o : Outcome) : m Nat := do
  sys.print o.out
  sys.complain o.err
  return o.code

/-- A game on a terminal, for as long as there are lines. -/
def converse (lines : ρ) (options : PlayOptions) (disk : Disk) (session : Session) : m Nat := do
  let mut disk := disk
  let mut session := session
  for line in lines do
    match step (← sys.clock) options disk session line with
    | .ended out => return ← sys.finish ⟨0, out, "", disk⟩
    | .failed out message after =>
      sys.keepSave options disk after
      return ← sys.finish (failure after out message)
    | .next next out after =>
      sys.keepSave options disk after
      sys.print out
      disk := after
      session := next
  return 0

/-- Only a game takes lines and draws, all else is settled by what the paths lead to. -/
def perform (lines : ρ) (arguments : List String) : m Nat := do
  match Arguments.request? arguments with
  | some (.play options) =>
    let disk ← sys.look options.paths
    match openPlay (← sys.clock) (← sys.entropy) disk options with
    | .failed outcome =>
      sys.keepSave options disk outcome.disk
      sys.finish outcome
    | .playing session out after =>
      sys.keepSave options disk after
      sys.print out
      sys.converse lines options after session
  | request =>
    let disk ← sys.look (request.elim [] Request.paths)
    sys.finish (run (← sys.clock) 0 disk "" arguments)

end Surroundings

end Gamebook
