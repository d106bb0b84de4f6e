/-! Locations of files. A path walks to one in steps divided by slashes. -/

namespace ByteMachine

/-- Where the names of a location start: some folders above the working one, or at the top. -/
inductive Location.Start where
  | working (above : Nat)
  | top
  deriving DecidableEq, Repr

structure Location where
  start : Location.Start := .working 0
  /-- The names of the folders passed, and last the name of what stands there, innermost first. -/
  names : List String := []
  deriving DecidableEq, Repr

/-- One step of a path. -/
inductive Step where
  | stay
  | up
  | into (name : String)

/-- An empty name, as between two slashes, stays where it is. -/
def Step.ofName (name : String) : Step :=
  if name == "" || name == "." then .stay else if name == ".." then .up else .into name

namespace Location

/-- The folder around a location. Nothing is around the top. -/
def parent (place : Location) : Location :=
  match place.names, place.start with
  | _ :: names, _ => { place with names }
  | [], .working above => { place with start := .working (above + 1) }
  | [], .top => place

def move (place : Location) : Step → Location
  | .stay => place
  | .up => place.parent
  | .into name => { place with names := name :: place.names }

/-- The start of a path and its steps. A path that begins with a slash starts at the top. -/
def route (path : String) : Location × List Step :=
  match path.splitOn "/" with
  | "" :: names => ({ start := .top }, names.map Step.ofName)
  | names => ({}, names.map Step.ofName)

/-- The locations that the steps pass, and last the one they lead to, when every folder on the way
is there. -/
def passed (place : Location) : List Step → List Location
  | [] => [place]
  | step :: steps => place :: passed (place.move step) steps

def onPath (path : String) : List Location := passed (route path).1 (route path).2

/-- The location that a path leads to when every folder on the way is there. -/
def ofPath (path : String) : Location := (route path).2.foldl move (route path).1

end Location

end ByteMachine
