import DocTree.FileSystem
import DocTree.Glob.Pattern

/-!
# Expanding globs

The paths in a file system that a pattern matches. The pattern is taken apart at its slashes. A
component without wildcards is followed without looking into the directory; for any other, each name
in the directory is tried. Two stars match a directory and whatever lies below it.

The names of a directory never include `.` and `..`, so a pattern that begins with a point is tried
on these two as well. A path is written as the pattern has it: without `./` in front when it begins
in the working directory.

The search keeps candidates on a stack, the last of them tried first, and what one candidate leads
to comes before the next. The inputs are sorted afterwards, so this order decides only which
spelling of a path is kept. A fault in the pattern, however, has to be found before anything is
looked at, and the pattern is read as a whole first.
-/

set_option autoImplicit false

namespace DocTree.Glob

open DocTree.Text

/-! ## Candidates -/

/-- A path that may be a match: one that is found already, or one whose last name is yet to be
matched against the first of the patterns, the others being for what lies below. -/
inductive Candidate where
  | found (path : String)
  | tried (path : String) (patterns : List Pattern)

def isRecursive (pattern : Pattern) : Bool := pattern.contains .anyDirectories

def startsWithPoint (pattern : Pattern) : Bool := pattern.head? == some (.char '.')

def pathIn (directory name : String) : String :=
  if Path.same directory "." then name else Path.join directory name

def leadsOn (fs : FileSystem) (directory name : String) : Bool :=
  if name = "." ∨ name = ".." then fs.isDirectory directory
  else fs.existsAt (pathIn directory name)

/-- The names that a directory never lists. A pattern may still have them as components without
wildcards. -/
def unlistedNames : List String := [".", ".."]

/-- The candidates below a directory for the patterns, the last to be tried first. They are kept as
a stack, like the nodes of a walk. -/
def candidates (fs : FileSystem) : List Pattern → String → List Candidate
  | [], _ => []
  | pattern :: rest, directory =>
    let below (path : String) : List Candidate :=
      if rest.isEmpty then [.found path] else candidates fs rest path
    match pattern.literal? with
    | some literal =>
      let name := String.ofList literal
      if leadsOn fs directory name then below (pathIn directory name) else []
    | none =>
      if fs.isDirectory directory then
        -- the stack is read from its end, so the first name has to come last
        let listed := (fs.list directory).reverse.map fun name =>
          Candidate.tried (pathIn directory name) (pattern :: rest)
        let unlisted := unlistedNames.filter fun name =>
          startsWithPoint pattern && pattern.matchesName name.toList
        listed ++ unlisted.flatMap fun name => below (Path.join directory name)
      else []

/-! ## Matches -/

def nameMatches (pattern : Pattern) (path : String) : Bool :=
  match Path.fileName? path with
  | some name => pattern.matchesName name.toList
  | none => false

def tryPath (fs : FileSystem) (needsDirectory : Bool) (path : String) :
    List Pattern → List String × List Candidate
  | [] => ([], [])
  | pattern :: rest =>
    let isDirectory := fs.isDirectory path
    let byName (patterns : List Pattern) (more : List Candidate) : List String × List Candidate :=
      match patterns with
      | [] => ([], more)
      | pattern :: rest =>
        if !nameMatches pattern path then ([], more)
        else if !rest.isEmpty then ([], more ++ candidates fs rest path)
        else if needsDirectory && !isDirectory then ([], more)
        else ([path], more)
    if isRecursive pattern then
      -- several double stars in a row match what one of them does
      let rest := rest.dropWhile isRecursive
      let inside := if isDirectory then candidates fs (pattern :: rest) path else []
      if rest.isEmpty then (if isDirectory then [path] else [], inside)
      else byName rest inside
    else byName (pattern :: rest) []

/-- The matches among candidates, the last one first, down to a number of levels. No path goes
deeper than the file system, so levels can be bounded by that. -/
def matchesOf (fs : FileSystem) (needsDirectory : Bool) : Nat → List Candidate → List String
  | 0, _ => []
  | levels + 1, candidates =>
    candidates.reverse.flatMap fun candidate =>
      match candidate with
      | .found path => if needsDirectory && !fs.isDirectory path then [] else [path]
      | .tried path patterns =>
        let (paths, more) := tryPath fs needsDirectory path patterns
        paths ++ matchesOf fs needsDirectory levels more

/-! ## Expansion -/

/-- The texts of the components of a pattern. A slash at the end starts no further component. -/
def componentTexts (text : String) : List (List Char) :=
  let cs := text.toList
  let body := if Path.isRooted text then cs.drop 1 else cs
  let all := body.splitOn '/'
  if all.length ≤ 1 then all
  else if all.getLast? == some [] then all.dropLast else all

def deepest (fs : FileSystem) : Nat := (fs.entries.map fun entry => entry.1.length).foldl max 0

/-- The paths that a pattern matches. Each component has to be a pattern of its own, and a fault in
one is reported before anything is looked up. -/
def expand (fs : FileSystem) (text : String) : Except Fault (List String) := do
  let _ ← Pattern.read text
  let patterns ← (componentTexts text).mapM fun component =>
    Pattern.read (String.ofList component)
  let start := if Path.isRooted text then "/" else "."
  let levels := (patterns.length + 1) * (deepest fs + 2)
  let needsDirectory := text.toList.getLast? == some '/'
  .ok (matchesOf fs needsDirectory levels (candidates fs patterns start))

end DocTree.Glob
