import DocTree.Glob.Expand
import DocTree.Log.Event

/-!
# Input files

The files that the inputs of a command line stand for. An input is a file, or a directory, which
stands for the record files right in it, or else a pattern, which stands for the files that it
matches. A plain name that leads to nothing stays, so that reading it can fail.

All files together are put in order and each is taken once, so the result does not depend on the
order in which the inputs were given. The three questions about an input are asked in this order: a
file whose name looks like a pattern is that file.

What a path leads to, what a directory lists and what a pattern matches are an argument (`Lookup`).
The program passes those of its file system. `Proofs.InputFiles` assumes nothing of them, and in
particular not that a directory lists its names in some order or each name once.
-/

set_option autoImplicit false

namespace DocTree.CommandLine

open DocTree.Log

/-! ## Looking for files

Two of the four answers can be faults. In the file system of a run a directory is always listed, and
the fault is there for the real one. -/

/-- What has to be known to find files: what a path leads to, the names in a directory, and the
paths that a pattern matches. -/
structure Lookup where
  isFile : String → Bool
  isDirectory : String → Bool
  list : String → Except FileFault (List String)
  expand : String → Except Glob.Fault (List String)

def Lookup.ofFileSystem (fs : FileSystem) : Lookup where
  isFile := fs.isFile
  isDirectory := fs.isDirectory
  list path := .ok (fs.list path)
  expand := Glob.expand fs

/-- Why an input stands for no files at all, not even for none. The first input that has such a
fault ends the search for all of them. -/
inductive InputFault where
  | unreadableDirectory (fault : FileFault)
  | badPattern (fault : Glob.Fault)
deriving DecidableEq, Repr

def InputFault.message : InputFault → String
  | .unreadableDirectory fault => fault.message
  | .badPattern fault => fault.message

structure BadInput where
  input : String
  fault : InputFault
deriving DecidableEq, Repr

def BadInput.summary (bad : BadInput) : String :=
  match bad.fault with
  | .unreadableDirectory _ => "failed to read directory: " ++ bad.input
  | .badPattern _ => "invalid glob pattern: " ++ bad.input

/-! ## One input -/

def isRecordFile (path : String) : Bool := Path.extension? path == some "json"

def hasWildcard (text : String) : Bool :=
  text.toList.any fun c => c == '*' || c == '?' || c == '['

def directoryFiles (lookup : Lookup) (path : String) : Except FileFault (List String) :=
  (lookup.list path).map fun names =>
    (names.map (Path.join path)).filter fun file => lookup.isFile file && isRecordFile file

def patternFiles (lookup : Lookup) (text : String) : Except Glob.Fault (List String) :=
  (lookup.expand text).map fun paths =>
    let files := paths.filter lookup.isFile
    if files.isEmpty && !hasWildcard text then [text] else files

def filesOf (lookup : Lookup) (input : String) : Except InputFault (List String) :=
  if lookup.isFile input then .ok [input]
  else if lookup.isDirectory input then
    (directoryFiles lookup input).mapError .unreadableDirectory
  else (patternFiles lookup input).mapError .badPattern

def matchesNothing (lookup : Lookup) (input : String) : Bool :=
  !lookup.isDirectory input &&
    match filesOf lookup input with
    | .ok files => files.isEmpty
    | .error _ => false

/-! ## All inputs -/

def inputFiles (lookup : Lookup) (inputs : List String) : Except BadInput (List String) := do
  let found ← inputs.mapM fun input => (filesOf lookup input).mapError (BadInput.mk input)
  .ok (Path.sortDistinct found.flatten)

/-- The warnings about patterns that match nothing, up to an input that has a fault. -/
def inputWarnings (lookup : Lookup) : List String → List Event
  | [] => []
  | input :: rest =>
    match filesOf lookup input with
    | .error _ => []
    | .ok _ =>
      (if matchesNothing lookup input then
        [⟨.warn, .program, "no files matched", [("pattern", input)]⟩]
      else []) ++ inputWarnings lookup rest

end DocTree.CommandLine
