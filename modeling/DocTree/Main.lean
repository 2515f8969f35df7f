import DocTree.CommandLine.Reach

/-!
# The program

Takes a picture of the part of the file system that the arguments reach, runs on it, and writes what
the run changed.

This is all of the program that acts. Everything it decides is decided by `CommandLine.run`, on
values; what is left here is to read the entries that a run may ask for and to make the changes that
it returns, the directories before the files in them. A file that cannot be read is left out of the
picture.
-/

set_option autoImplicit false

namespace DocTree

def placeText (place : Place) : String := "/" ++ "/".intercalate place

/-- What stands at a place of the real file system; nothing for what cannot be read. -/
def readEntry (place : Place) : IO (Option Entry) := do
  let path := (← IO.currentDir) / placeText place
  try
    if ← path.isDir then return some .directory
    if ← path.pathExists then return some (.file (← IO.FS.readBinFile path))
    return none
  catch _ => return none

def readNames (place : Place) : IO (List String) := do
  let path := (← IO.currentDir) / placeText place
  try
    return (← path.readDir).toList.map fun entry => entry.fileName
  catch _ => return []

/-- The picture with what lies at a place and, down to a number of levels, below. -/
def addBelow : Nat → FileSystem → Place → IO FileSystem
  | levels, fs, place => do
    match ← readEntry place with
    | none => return fs
    | some (.file bytes) => return fs.place place (.file bytes)
    | some .directory =>
      let seen := if (fs.at? place).isSome then fs else fs.place place .directory
      match levels with
      | 0 => return seen
      | levels + 1 =>
        (← readNames place).foldlM (fun fs name => addBelow levels fs (place ++ [name])) seen

/-- The picture with all that leads to a place, and what lies there and below. -/
def addReach (fs : FileSystem) (reach : CommandLine.Reach) : IO FileSystem := do
  let place := CommandLine.placeFrom fs.working reach.path
  let above := (List.range place.length).map fun n => place.take n
  let led ← above.foldlM (addBelow 0) fs
  addBelow reach.levels led place

partial def readAll (stream : IO.FS.Stream) (bytes : ByteArray) : IO ByteArray := do
  let more ← stream.read 65536
  if more.isEmpty then return bytes
  readAll stream (bytes ++ more)

def writeEntry (change : Place × Entry) : IO Unit := do
  let path := (← IO.currentDir) / placeText change.1
  match change.2 with
  | .directory => IO.FS.createDirAll path
  | .file bytes => IO.FS.writeBinFile path bytes

def runProgram (arguments : List String) : IO UInt32 := do
  let working := (Path.names (← IO.currentDir).toString).filter fun name => !Path.isIdle name
  let files ← (CommandLine.reach arguments).foldlM addReach (FileSystem.fresh working)
  let input ←
    if CommandLine.readsInput arguments then readAll (← IO.getStdin) ByteArray.empty
    else pure ByteArray.empty
  let outcome := CommandLine.run ⟨arguments, input, ← IO.getEnv "NDOC_LOG", files⟩
  (files.changes outcome.files).forM writeEntry
  (← IO.getStdout).putStr outcome.output
  (← IO.getStderr).putStr outcome.errors
  return outcome.exitCode.toUInt32

end DocTree

def main (arguments : List String) : IO UInt32 := DocTree.runProgram arguments
