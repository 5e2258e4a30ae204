import Gamebook.Surroundings
import Std.Time.DateTime.Timestamp

namespace Gamebook

def clock : IO Instant := do
  let now ← Std.Time.Timestamp.now
  let nanoseconds := now.toNanosecondsSinceUnixEpoch.val
  let seconds := nanoseconds / 1000000000
  let instant := Instant.make? (seconds / 86400) (seconds % 86400).toNat (nanoseconds % 1000000000).toNat
  return instant.getD Instant.epoch

def entropy : IO UInt64 := do
  let bytes ← IO.getRandomBytes 8
  return bytes.foldl (fun word byte => word * 256 + byte.toUInt64) 0

/-- The disk with what stands at a place: a file with its text, a directory, or nothing. A file that is
there and cannot be read is none of these. -/
def looked (disk : Disk) (place : Place) : IO Disk := do
  try
    let text ← IO.FS.readFile place.text
    return { disk with files := disk.files.insert place.text text }
  catch
    | .noFileOrDirectory .. => return disk
    | .inappropriateType .. => return { disk with directories := place.text :: disk.directories }
    | fault => throw fault

/-- Looks at each place that a path leads through, as far as it leads. -/
def explored (disk : Disk) (path : String) : IO Disk := do
  match Disk.pathOf path with
  | .error _ => return disk
  | .ok path =>
    let mut disk := disk
    let mut place := path.start
    for name in path.names do
      match disk.step place name with
      | .error _ => return disk
      | .ok next =>
        disk ← looked disk next
        place := next
    return disk

/-- The files, the clock and the terminal of the machine. -/
def machine : Surroundings IO where
  clock := clock
  entropy := entropy
  look paths := paths.foldlM explored { files := .empty }
  write path text := IO.FS.writeFile path text
  print out := do
    IO.print out
    (← IO.getStdout).flush
  complain := IO.eprint

/-- The lines of a stream to its end. -/
structure Keyboard where
  stream : IO.FS.Stream

partial def Keyboard.forIn {α : Type} (k : Keyboard) (a : α) (f : String → α → IO (ForInStep α)) :
    IO α := do
  match Program.linesOf (← k.stream.getLine) with
  | [] => return a
  | line :: _ =>
    match ← f line a with
    | .done a => return a
    | .yield a => k.forIn a f

instance : ForIn IO Keyboard String := ⟨Keyboard.forIn⟩

end Gamebook

/-- Plays a story or looks for problems in one. -/
def main (arguments : List String) : IO UInt32 := do
  try
    let keyboard : Gamebook.Keyboard := ⟨← IO.getStdin⟩
    let code ← Gamebook.machine.perform keyboard arguments
    return code.toUInt32
  catch fault =>
    IO.eprint (Gamebook.Program.complaint fault.toString)
    return 1
