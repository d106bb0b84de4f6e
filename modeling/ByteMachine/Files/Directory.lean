import ByteMachine.Files.Location
import ByteMachine.Files.Reader

/-! A tree of files held in memory, with the working directory in it. Each file and folder is given
by its path, and what the path passes is there as well. -/

namespace ByteMachine

structure Directory where
  files : List (String × ByteArray) := []
  folders : List String := []

namespace Directory

/-- The longest name of a file, in bytes. -/
def longestName : Nat := 255

/-- The longest path, in bytes. -/
def longestPath : Nat := 4095

def content? (directory : Directory) (place : Location) : Option ByteArray :=
  (directory.files.find? fun (path, _) => Location.ofPath path == place).map (·.2)

/-- Whether there is a file or folder at a location. -/
def contains (directory : Directory) (place : Location) : Bool :=
  place.names.isEmpty ||
    (directory.files.map (·.1) ++ directory.folders).any fun path =>
      (Location.onPath path).contains place

/-- One step along a path. A file has nothing inside. -/
def walk (directory : Directory) (place : Location) (step : Step) : Except ReadError Location :=
  if (directory.content? place).isSome then .error .notDirectory
  else
    match step with
    | .into name =>
        if longestName < name.utf8ByteSize then .error .nameTooLong
        else if directory.contains (place.move step) then .ok (place.move step)
        else .error .missing
    | _ => .ok (place.move step)

def read (directory : Directory) : FileReader := fun path =>
  if path.contains '\x00' then .error .notPath
  else if path.isEmpty then .error .missing
  else if longestPath < path.utf8ByteSize then .error .nameTooLong
  else
    match (Location.route path).2.foldlM directory.walk (Location.route path).1 with
    | .error reason => .error reason
    | .ok place =>
        match directory.content? place with
        | some content => .ok content
        | none => .error .isDirectory

end Directory

end ByteMachine
