import Gamebook.Dictionary
import Gamebook.Path

namespace Gamebook

structure Disk where
  /-- The text of each file, under the text of its place. -/
  files : Dictionary String
  /-- Directories that are there also when no file in them is known. -/
  directories : List String := []
deriving DecidableEq

inductive DiskFault
  | missing
  | notDirectory
  | isDirectory
  | nameTooLong
deriving DecidableEq

def DiskFault.message : DiskFault → String
  | missing => "No such file or directory (os error 2)"
  | notDirectory => "Not a directory (os error 20)"
  | isDirectory => "Is a directory (os error 21)"
  | nameTooLong => "File name too long (os error 36)"

namespace Disk

def nameLimit : Nat := 255

def pathLimit : Nat := 4095

def isInside (name directory : String) : Bool :=
  (directory.toList ++ ['/']).isPrefixOf name.toList

/-- The working directory, those around it and the root are always there. -/
def isDirectory (d : Disk) (p : Place) : Bool :=
  p.names.all (· = "..") || d.directories.contains p.text || d.files.names.any (isInside · p.text)

def isFile (d : Disk) (p : Place) : Bool := d.files.contains p.text

def checkDirectory (d : Disk) (p : Place) : Except DiskFault Unit :=
  if d.isDirectory p then .ok ()
  else if d.isFile p then .error .notDirectory
  else .error .missing

def step (d : Disk) (p : Place) (name : String) : Except DiskFault Place := do
  d.checkDirectory p
  if nameLimit < name.utf8ByteSize then throw .nameTooLong
  return p.enter name

/-- The place that names lead to. It need not have anything in it, only what lies before it is looked at. -/
def walk (d : Disk) (start : Place) (names : List String) : Except DiskFault Place :=
  names.foldlM d.step start

def pathOf (text : String) : Except DiskFault Path :=
  if text.isEmpty then .error .missing
  else if pathLimit < text.utf8ByteSize then .error .nameTooLong
  else .ok (Path.ofText text)

def read (d : Disk) (path : String) : Except DiskFault String := do
  let path ← pathOf path
  let place ← d.walk path.start path.names
  if d.isDirectory place then throw .isDirectory
  match d.files.get? place.text with
  | none => throw .missing
  | some text => if path.closed then throw .notDirectory else return text

def isPresent (d : Disk) (path : String) : Bool :=
  match d.read path with
  | .ok _ | .error .isDirectory => true
  | .error _ => false

/-- A file that is not there is made, but no directory is. -/
def write (d : Disk) (path text : String) : Except DiskFault Disk := do
  let path ← pathOf path
  let outer ← d.walk path.start path.names.dropLast
  d.checkDirectory outer
  if path.closed then throw .isDirectory
  let place ← d.walk outer path.names.getLast?.toList
  if d.isDirectory place then throw .isDirectory
  return { d with files := d.files.insert place.text text }

end Disk

end Gamebook
