import DocTree.Path
import DocTree.Text.Numeral

/-!
# File systems

A file system is a set of directories and files with bytes, each at a place: the names that lead to
it from the root. The root is always there. A path is followed name by name from the root or from
the working directory, and each name but the last has to be a directory on the way.

Reading does not change a file system. Writing a file and making a directory give a new one, or a
fault and no change; only a row of directories may be left half made.

There are no links, no owners and no rights. So a place is named by one list of names only, and two
paths lead to one place exactly when following them ends there; what is written under one path is
found under every other path to that place. The type allows a file whose directory is missing, and
no operation makes one: each resolves a path first, and that fails where a directory is missing
(`Proofs.Writing`).
-/

set_option autoImplicit false

namespace DocTree

open DocTree.Text

/-! ## Faults -/

inductive FileFault where
  | notFound
  | exists
  | notDirectory
  | isDirectory
  | nameTooLong
  | notText
  | incompleteTree
deriving DecidableEq, Repr

def systemMessage (text : String) (number : Nat) : String :=
  text ++ " (os error " ++ String.ofList (decimal number) ++ ")"

def FileFault.message : FileFault → String
  | .notFound => systemMessage "No such file or directory" 2
  | .exists => systemMessage "File exists" 17
  | .notDirectory => systemMessage "Not a directory" 20
  | .isDirectory => systemMessage "Is a directory" 21
  | .nameTooLong => systemMessage "File name too long" 36
  | .notText => "stream did not contain valid UTF-8"
  | .incompleteTree => "failed to create whole tree"

/-! ## The type

The entries are a list and a place may stand in it once only, which `set` takes care of. That a
place is looked up by `find?` makes the first entry count in any case. -/

/-- The names that lead from the root to a file or a directory. Paths lead to places, and several
paths may lead to one. -/
abbrev Place := List String

inductive Entry where
  | file (bytes : ByteArray)
  | directory

instance : DecidableEq Entry
  | .file bytes, .file other =>
    match ByteArray.instDecidableEq bytes other with
    | .isTrue same => .isTrue (congrArg Entry.file same)
    | .isFalse differ => .isFalse fun same => differ (Entry.file.inj same)
  | .file _, .directory => .isFalse Entry.noConfusion
  | .directory, .file _ => .isFalse Entry.noConfusion
  | .directory, .directory => .isTrue rfl

def Entry.isDirectory : Entry → Bool
  | .directory => true
  | .file _ => false

/-- What stands at which place, and the working directory. There is one entry at most for a place,
the first that is found. -/
structure FileSystem where
  working : Place
  entries : List (Place × Entry)

namespace FileSystem

def at? (fs : FileSystem) (place : Place) : Option Entry :=
  if place = [] then some .directory
  else (fs.entries.find? fun entry => entry.1 == place).map Prod.snd

def set (fs : FileSystem) (place : Place) (entry : Entry) : FileSystem :=
  { fs with entries := (place, entry) :: fs.entries.filter fun other => other.1 != place }

def place (fs : FileSystem) (names : Place) (entry : Entry) : FileSystem :=
  let above := (List.range names.length).map fun n => names.take n
  let grown := above.foldl
    (fun fs place => if (fs.at? place).isSome then fs else fs.set place .directory) fs
  grown.set names entry

def fresh (working : Place) : FileSystem := (FileSystem.mk working []).place working .directory

/-- What is different in a later file system, the places nearer to the root first. -/
def changes (before after : FileSystem) : List (Place × Entry) :=
  (after.entries.filter fun entry => before.at? entry.1 != some entry.2).mergeSort
    fun a b => a.1.length ≤ b.1.length

/-! ## Following paths

Following is a fold of one step over the names. A name of dots and an empty one are followed too, in
a directory, so `a/.` fails where `a` is a file; and `..` at the root stays there. -/

def longestName : Nat := 255

def longestPath : Nat := 4095

def child (directory : Place) (name : String) : Place := directory ++ [name]

def step (fs : FileSystem) (place : Place) (name : String) : Except FileFault Place :=
  match fs.at? place with
  | none => .error .notFound
  | some (.file _) => .error .notDirectory
  | some .directory =>
    if Path.isIdle name then .ok place
    else if name = ".." then .ok place.dropLast
    else if longestName < byteLength name.toList then .error .nameTooLong
    else .ok (child place name)

/-- Follows names from a place. The last one need not lead to anything, for a file that is to be
written is not there yet. -/
def follow (fs : FileSystem) (place : Place) (names : List String) : Except FileFault Place :=
  names.foldlM fs.step place

def namesOf (path : String) : Except FileFault (List String) :=
  if path = "" then .error .notFound
  else if longestPath < byteLength path.toList then .error .nameTooLong
  else .ok (Path.names path)

def origin (fs : FileSystem) (path : String) : Place :=
  if Path.isRooted path then [] else fs.working

/-- The place to which a path leads; the last name of the path need not lead to anything. -/
def resolve (fs : FileSystem) (path : String) : Except FileFault Place := do
  let names ← namesOf path
  fs.follow (fs.origin path) names

/-- The place in which a path with slashes at its end names a directory; it has to be one itself. -/
def resolveHolder (fs : FileSystem) (path : String) : Except FileFault Place := do
  let names ← namesOf path
  let named := (names.reverse.dropWhile fun name => name == "").reverse
  -- the last name may be missing, and what it should be in may not
  let place ← fs.follow (fs.origin path) named.dropLast
  fs.step place "."

def stat (fs : FileSystem) (path : String) : Except FileFault Entry := do
  let place ← fs.resolve path
  match fs.at? place with
  | some entry => .ok entry
  | none => .error .notFound

def existsAt (fs : FileSystem) (path : String) : Bool :=
  match fs.stat path with
  | .ok _ => true
  | .error _ => false

def isFile (fs : FileSystem) (path : String) : Bool :=
  match fs.stat path with
  | .ok (.file _) => true
  | _ => false

def isDirectory (fs : FileSystem) (path : String) : Bool :=
  match fs.stat path with
  | .ok .directory => true
  | _ => false

/-! ## Reading

A file is bytes, and its text is what they decode to. -/

def decode (bytes : ByteArray) : Except FileFault String :=
  match String.fromUTF8? bytes with
  | some text => .ok text
  | none => .error .notText

def readText (fs : FileSystem) (path : String) : Except FileFault String := do
  match ← fs.stat path with
  | .file bytes => decode bytes
  | .directory => .error .isDirectory

def namesIn (fs : FileSystem) (place : Place) : List String :=
  let inside := fs.entries.filterMap fun entry =>
    if entry.1.dropLast = place then entry.1.getLast? else none
  inside.mergeSort fun a b => a < b || a == b

def list (fs : FileSystem) (path : String) : List String :=
  match fs.resolve path with
  | .ok place => fs.namesIn place
  | .error _ => []

/-! ## Writing

Each operation resolves its path and then changes one place or none. Making a directory with all
that are missing above it goes up first, until a directory is found or can be made, and then down
again; the bound is the length of the path, since each step up makes it shorter. -/

/-- The file system after a text is written to a path. A path that ends with a slash can only name
a directory, whether there is one or not. -/
def writeText (fs : FileSystem) (path text : String) : Except FileFault FileSystem :=
  if path.toList.getLast? = some '/' then do
    let _ ← fs.resolveHolder path
    .error .isDirectory
  else do
    let place ← fs.resolve path
    match fs.at? place with
    | some .directory => .error .isDirectory
    | _ => .ok (fs.set place (.file text.toUTF8))

def makeDirectory (fs : FileSystem) (path : String) : Except FileFault FileSystem := do
  let place ← fs.resolve path
  match fs.at? place with
  | some _ => .error .exists
  | none => .ok (fs.set place .directory)

def ensureDirectory (fs : FileSystem) (path : String) : Except FileFault FileSystem :=
  match fs.makeDirectory path with
  | .ok grown => .ok grown
  | .error fault => if fs.isDirectory path then .ok fs else .error fault

/-- What is left when several directories are made one after the other, and the fault that ended
this early. The directories that were made before a fault stay. -/
structure Growth where
  files : FileSystem
  fault : Option FileFault

def Growth.ensureDirectory (growth : Growth) (path : String) : Growth :=
  match growth.fault with
  | some _ => growth
  | none =>
    match growth.files.ensureDirectory path with
    | .ok grown => ⟨grown, none⟩
    | .error fault => ⟨growth.files, some fault⟩

/-- Makes a directory and all that are missing above it, for a path with fewer names than
`levels`. -/
def makeDirectories (fs : FileSystem) (path : String) : Nat → Growth
  | 0 => ⟨fs, some .incompleteTree⟩
  | levels + 1 =>
    if path = "" then ⟨fs, none⟩
    else
      match fs.ensureDirectory path with
      | .ok grown => ⟨grown, none⟩
      -- going up helps only where a directory is missing
      | .error .notFound =>
        match Path.parent? path with
        | none => ⟨fs, some .incompleteTree⟩
        | some parent => (fs.makeDirectories parent levels).ensureDirectory path
      | .error fault => ⟨fs, some fault⟩

def makeTree (fs : FileSystem) (path : String) : Growth := fs.makeDirectories path (path.length + 1)

end FileSystem

end DocTree
