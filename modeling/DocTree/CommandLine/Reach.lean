import DocTree.CommandLine.Run

/-!
# The reach of a run

Which parts of the file system a run can look at. The program itself takes a picture of these parts
before it runs, so that a run works on a value. An input reaches what its plain names lead to and,
from there, as many levels down as it has further components; two stars reach to the bottom. The
output reaches the place where it is written.

The reach may be too large without harm. Were it too small, a run would miss a file that is there;
so an input is looked at both as a plain name and as a pattern, whichever it will turn out to be.
-/

set_option autoImplicit false

namespace DocTree.CommandLine

structure Reach where
  path : String
  levels : Nat
deriving DecidableEq, Repr

/-- More levels than a path can have names. -/
def bottomless : Nat := FileSystem.longestPath

def levelsOf (names : List String) : Nat := if names.contains "**" then bottomless else names.length

def inputReach (input : String) : List Reach :=
  let names := Path.names input
  let plain := names.takeWhile fun name => !hasWildcard name
  let others := names.drop plain.length
  let start := "/".intercalate plain
  let root := if Path.isRooted input then "/" ++ start else if start = "" then "." else start
  [⟨input, 1⟩, ⟨root, levelsOf others⟩]

def Request.reach (request : Request) : List Reach :=
  request.files.flatMap inputReach ++ request.output.toList.map fun path => ⟨path, 0⟩

def reach (arguments : List String) : List Reach :=
  match Request.read arguments with
  | .ok request => request.reach
  | .error _ => []

def readsInput (arguments : List String) : Bool :=
  match Request.read arguments with
  | .ok request =>
    request.files.isEmpty && (Format.ofName? request.format request.compact).isSome
  | .error _ => false

def placeFrom (working : Place) (path : String) : Place :=
  (Path.names path).foldl
    (fun place name =>
      if Path.isIdle name then place
      else if name = ".." then place.dropLast
      else FileSystem.child place name)
    (if Path.isRooted path then [] else working)

end DocTree.CommandLine
