import Gamebook.Proofs.Disk
import Gamebook.Surroundings

namespace Gamebook

/-- What was printed, and the disk as it is left. -/
structure Transcript where
  out : String
  err : String
  disk : Disk

def Outcome.transcript (o : Outcome) : Transcript := ⟨o.out, o.err, o.disk⟩

namespace Program

def Opening.disk : Opening → Disk
  | failed outcome => outcome.disk
  | playing _ _ disk => disk

def Step.disk (before : Disk) : Step → Disk
  | ended _ => before
  | failed _ _ disk => disk
  | next _ _ disk => disk

end Program

namespace Surroundings

open Program

section Lines

variable {m : Type → Type} [Monad m] [LawfulMonad m] (sys : Surroundings m) (options : PlayOptions)
  (disk : Disk) (session : Session)

theorem converse_nil : sys.converse ([] : List String) options disk session = pure 0 := by
  simp [converse]

theorem converse_cons (line : String) (lines : List String) :
    sys.converse (line :: lines) options disk session = (do
      match step (← sys.clock) options disk session line with
      | .ended out => sys.finish ⟨0, out, "", disk⟩
      | .failed out message after =>
        sys.keepSave options disk after
        sys.finish (failure after out message)
      | .next next out after =>
        sys.keepSave options disk after
        sys.print out
        sys.converse lines options after next) := by
  simp only [converse, List.forIn_cons, bind_assoc]
  congr 1
  funext now
  cases step now options disk session line with
  | ended out => simp
  | failed out message after => simp
  | next next out after => simp

end Lines

/-- Surroundings in which time stands still, and where what the program does is taken down. -/
def recorded (now : Instant) (entropy : UInt64) : Surroundings (StateM Transcript) where
  clock := pure now
  entropy := pure entropy
  look _ := return (← get).disk
  write path text := modify fun t =>
    match t.disk.write path text with
    | .ok disk => { t with disk := disk }
    | .error _ => t
  print out := modify fun t => { t with out := t.out ++ out }
  complain message := modify fun t => { t with err := t.err ++ message }

/-- The disk is as it was but for the save. -/
inductive Kept (options : PlayOptions) (before : Disk) : Disk → Prop
  | same : Kept options before before
  | written {path text : String} {after : Disk} (hsave : options.save = some path)
    (h : before.write path text = .ok after) : Kept options before after

variable {now : Instant} {entropy : UInt64} {options : PlayOptions} {disk after : Disk}
  {s : Session}

theorem kept_of_writeSave {game : Playthrough} (h : writeSave now disk options game = .ok after) :
    Kept options disk after := by
  unfold writeSave at h
  split at h
  next => cases h; exact .same
  next path hsave =>
    split at h
    next hwrite => cases h; exact .written hsave hwrite
    next => cases h

theorem kept_of_step (now : Instant) (options : PlayOptions) (disk : Disk) (s : Session) (line : String) :
    Kept options disk ((step now options disk s line).disk disk) := by
  unfold step
  cases s.turn line with
  | quit => exact .same
  | refused session out => exact .same
  | lost game events message =>
    cases hwrite : writeSave now disk options game with
    | error refusal => simp only [hwrite]; exact .same
    | ok after => simp only [hwrite]; exact kept_of_writeSave hwrite
  | stepped session events scene =>
    cases hwrite : writeSave now disk options session.game with
    | error refusal => simp only [hwrite]; exact .same
    | ok after => simp only [hwrite]; exact kept_of_writeSave hwrite

theorem kept_of_openGame (game : Playthrough) (out : String) :
    Kept options disk (openGame now disk options game out).disk := by
  unfold openGame
  cases hwrite : writeSave now disk options game with
  | error message => exact .same
  | ok after =>
    cases hgame : Session.ofGame game with
    | error fault => exact kept_of_writeSave hwrite
    | ok session => exact kept_of_writeSave hwrite

theorem kept_of_openPlay (now : Instant) (entropy : UInt64) (disk : Disk) (options : PlayOptions) :
    Kept options disk (openPlay now entropy disk options).disk := by
  unfold openPlay
  extract_lets loaded
  clear_value loaded
  cases loaded with
  | error message => exact .same
  | ok found =>
    obtain ⟨story, settings, saved⟩ := found
    dsimp only
    cases begin story saved settings entropy with
    | error message => exact .same
    | ok game => exact kept_of_openGame game _

theorem keepSave_recorded (h : Kept options disk after) (out err : String) :
    ((recorded now entropy).keepSave options disk after).run ⟨out, err, disk⟩ =
      pure ((), ⟨out, err, after⟩) := by
  unfold keepSave
  cases h with
  | same => cases options.save with
    | none => rfl
    | some path =>
      cases hread : disk.read path with
      | error => simp [hread]
      | ok => simp [hread]
  | @written path text _ hsave h =>
    simp only [hsave, Disk.read_write h]
    by_cases heq : disk = after
    · subst heq
      simp
    · rw [if_pos heq]
      simp [recorded, h]

theorem finish_recorded (o : Outcome) (t : Transcript) :
    ((recorded now entropy).finish o).run t =
      pure (o.code, ⟨t.out ++ o.out, t.err ++ o.err, t.disk⟩) := rfl

theorem clock_recorded (t : Transcript) : (recorded now entropy).clock.run t = pure (now, t) := rfl

theorem look_recorded (paths : List String) (t : Transcript) :
    ((recorded now entropy).look paths).run t = pure (t.disk, t) := rfl

theorem entropy_recorded (t : Transcript) :
    (recorded now entropy).entropy.run t = pure (entropy, t) := rfl

theorem print_recorded (out : String) (t : Transcript) :
    ((recorded now entropy).print out).run t = pure ((), { t with out := t.out ++ out }) := rfl

/-- The loop over any surroundings is the one that is run on a list of lines. -/
theorem converse_recorded (lines : List String) (out : String) :
    ((recorded now entropy).converse lines options disk s).run ⟨out, "", disk⟩ =
      pure ((playLines now options disk out s lines).code,
        (playLines now options disk out s lines).transcript) := by
  induction lines generalizing disk s out with
  | nil => rw [converse_nil]; rfl
  | cons line lines ih =>
    rw [converse_cons, playLines, StateT.run_bind, clock_recorded, pure_bind]
    have hkept := kept_of_step now options disk s line
    cases hstep : step now options disk s line with
    | ended more => rfl
    | failed more message after =>
      rw [hstep, Step.disk] at hkept
      simp only [StateT.run_bind, keepSave_recorded hkept, pure_bind, finish_recorded]
      rfl
    | next next more after =>
      rw [hstep, Step.disk] at hkept
      simp only [StateT.run_bind, keepSave_recorded hkept, pure_bind, print_recorded]
      exact ih (out ++ more)

theorem check_disk (disk : Disk) (path : String) : (check disk path).disk = disk := by
  unfold check
  cases loadStory disk path with
  | error message => rfl
  | ok story =>
    dsimp only
    split
    · rfl
    · split <;> rfl

/-- The program in its surroundings prints and writes what it comes to as a function of what they hold. -/
theorem perform_recorded (now : Instant) (entropy : UInt64) (disk : Disk) (input : String)
    (arguments : List String) :
    ((recorded now entropy).perform (linesOf input) arguments).run ⟨"", "", disk⟩ =
      pure ((run now entropy disk input arguments).code,
        (run now entropy disk input arguments).transcript) := by
  unfold perform run
  cases hrequest : Arguments.request? arguments with
  | none => simp [look_recorded, clock_recorded, finish_recorded, Outcome.transcript]
  | some request =>
    cases request with
    | help topic => simp [look_recorded, clock_recorded, finish_recorded, Outcome.transcript]
    | version topic => simp [look_recorded, clock_recorded, finish_recorded, Outcome.transcript]
    | check path =>
      simp [look_recorded, clock_recorded, finish_recorded, Outcome.transcript, check_disk]
    | play options =>
      have hkept := kept_of_openPlay now entropy disk options
      simp only [StateT.run_bind, look_recorded, clock_recorded, entropy_recorded, pure_bind, play]
      cases hopen : openPlay now entropy disk options with
      | failed outcome =>
        rw [hopen, Opening.disk] at hkept
        simp [keepSave_recorded hkept, finish_recorded, Outcome.transcript]
      | playing session out after =>
        rw [hopen, Opening.disk] at hkept
        simp only [StateT.run_bind, keepSave_recorded hkept, pure_bind, print_recorded,
          String.empty_append]
        exact converse_recorded (linesOf input) out

end Surroundings

end Gamebook
