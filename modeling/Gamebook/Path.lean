import Gamebook.Text.Parts

namespace Gamebook

/-- A place on the disk, as the names that lead to it from the root or from the working directory, the
innermost name first. For a directory around the working directory all of them are `..`. -/
structure Place where
  fromRoot : Bool
  names : List String
deriving DecidableEq

namespace Place

def parent (p : Place) : Place :=
  match p.names with
  | [] => if p.fromRoot then p else { p with names := [".."] }
  | name :: outer => if name = ".." then { p with names := ".." :: p.names } else { p with names := outer }

def enter (p : Place) (name : String) : Place :=
  if name = "." then p
  else if name = ".." then p.parent
  else { p with names := name :: p.names }

def text (p : Place) : String := (if p.fromRoot then "/" else "") ++ "/".intercalate p.names.reverse

end Place

/-- A path that begins with a slash leads on from the root, any other from the working directory. -/
structure Path where
  start : Place
  names : List String
  /-- Whether a slash stands behind the last name. -/
  closed : Bool
deriving DecidableEq

namespace Path

def ofText (text : String) : Path :=
  let (first, others) := split '/' text.toList
  { start := ⟨first.isEmpty && !others.isEmpty, []⟩
    names := ((first :: others).filter fun part => !part.isEmpty).map String.ofList
    closed := (others.getLast?).any List.isEmpty }

end Path

end Gamebook
