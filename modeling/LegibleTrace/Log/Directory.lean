import LegibleTrace.Path

/-! The files and directories that a session of logging can meet or make, below a working
directory. The directories above it and the root exist already. -/
namespace LegibleTrace.Log

/-- A place in the file system, seen from the working directory. -/
abbrev Location := List Text

structure Directory where
  folders : List Location
  files : List Location

namespace Directory

def upward : Text := ".."

def isFolder (directory : Directory) (location : Location) : Bool :=
  location.all (· = upward) || location = [['/']] || location ∈ directory.folders

def isFile (directory : Directory) (location : Location) : Bool :=
  location ∈ directory.files

def above (location : Location) : Location :=
  if location = [['/']] then location
  else if location.all (· = upward) then location ++ [upward]
  else location.dropLast

/-- Goes down a path and makes the folders that are missing. A file on the way ends it. -/
def descend (directory : Directory) (location : Location) :
    List Text → Directory × Option Location
  | [] => (directory, some location)
  | part :: parts =>
    if part = upward then directory.descend (above location) parts
    else
      let next := location ++ [part]
      if directory.isFolder next then directory.descend next parts
      else if directory.isFile next then (directory, none)
      else descend { directory with folders := next :: directory.folders } next parts

/-- Opens a file to add to it, with the folders it lies in. A folder cannot be opened. -/
def openFile (directory : Directory) (path : Path) : Directory × Option Location :=
  let start : Location := if path.root = [] then [] else [['/']]
  match path.parts.getLast? with
  | none => (directory, none)
  | some name =>
    match directory.descend start path.parts.dropLast with
    | (directory, none) => (directory, none)
    | (directory, some folder) =>
      let file := folder ++ [name]
      if name = upward ∨ directory.isFolder file then (directory, none)
      else if directory.isFile file then (directory, some file)
      else ({ directory with files := file :: directory.files }, some file)

def listed? (location : Location) : Option Text :=
  match location with
  | [] => none
  | first :: _ =>
    if first = upward ∨ first = ['/'] then none else some (Text.join "/" location)

end Directory
end LegibleTrace.Log
