import DocTree.Text.Cut

/-!
# Paths

A path is a text whose names are separated by slashes. It is shown as the user gave it, but it is
compared by its components: empty names and points in the middle do not count.

So two texts can be the same path (`a//b`, `a/./b` and `a/b`), and the order of paths is a total
order on their components and only a preorder on the texts. That is why sorting a list of paths and
dropping what repeats is more than the sort of a list of texts: of the spellings of one path the
first that was given is kept, and it is the one under which the file is read and reported. Nothing
here looks at a file system; `..` is a component like any other.
-/

set_option autoImplicit false

namespace DocTree.Path

open DocTree.Text

/-! ## Components

A point is kept only at the beginning of a path that has no root, where it says that the path begins
at the working directory. -/

def names (path : String) : List String := (path.toList.splitOn '/').map String.ofList

def isRooted (path : String) : Bool := path.toList.head? == some '/'

inductive Component where
  | root
  | current
  | parent
  | name (text : String)
deriving DecidableEq, Repr

def Component.ofName (text : String) : Component := if text = ".." then .parent else .name text

def isIdle (name : String) : Bool := name == "" || name == "."

/-- The components of a path. A point counts only where a path begins with it, and empty names
between slashes never do. -/
def components (path : String) : List Component :=
  let all := names path
  let first :=
    if isRooted path then [.root] else if all.head? = some "." then [.current] else []
  first ++ (all.filter fun name => !isIdle name).map Component.ofName

/-! ## Order

The components are compared one after the other, and a path stands before those that go on from it.
Names are compared by their characters, and a name comes after everything that is no name. -/

def Component.rank : Component → Nat
  | .root => 0
  | .current => 1
  | .parent => 2
  | .name _ => 3

def Component.before : Component → Component → Bool
  | .name a, .name b => a < b
  | a, b => a.rank < b.rank

def componentsOrdered : List Component → List Component → Bool
  | [], _ => true
  | _ :: _, [] => false
  | a :: as, b :: bs => a.before b || (a == b && componentsOrdered as bs)

def ordered (a b : String) : Bool := componentsOrdered (components a) (components b)

def same (a b : String) : Bool := components a == components b

/-- The paths without those that are the same as the one before. The comparison is of components, so
the texts may differ. -/
def dropRepeats : List String → List String
  | [] => []
  | path :: rest =>
    match dropRepeats rest with
    | [] => [path]
    | next :: others => if same path next then path :: others else path :: next :: others

/-- The paths in order, each once. Of the same paths, the one that came first is kept, as sorting
leaves equals in their order. -/
def sortDistinct (paths : List String) : List String := dropRepeats (paths.mergeSort ordered)

/-! ## Parts of a path

What holds a path, what its last name is and what follows the last point in that name. A name that
begins with its only point has no extension. -/

def join (directory name : String) : String :=
  if directory = "" ∨ directory.toList.getLast? = some '/' then directory ++ name
  else directory ++ "/" ++ name

/-- The names of a path after its root, without those at the end that stand for nothing. A point
with which a path begins stays. -/
def trimNames (rooted : Bool) (names : List String) : List String :=
  match names with
  | [] => []
  | first :: rest =>
    let kept := (rest.reverse.dropWhile isIdle).reverse
    if kept.isEmpty && (first == "" || (first == "." && rooted)) then [] else first :: kept

/-- The path of the directory that holds what the path names. The root has none, and neither has
the empty path; that of a lone name is empty. -/
def parent? (path : String) : Option String :=
  let rooted := isRooted path
  let body := trimNames rooted (if rooted then (names path).drop 1 else names path)
  if body.isEmpty then none
  else
    some ((if rooted then "/" else "")
      ++ "/".intercalate (trimNames rooted body.dropLast))

def fileName? (path : String) : Option String :=
  match (components path).getLast? with
  | some (.name text) => some text
  | _ => none

/-- What follows the last point of a file's name, when something stands before that point. -/
def extension? (path : String) : Option String := do
  let name ← fileName? path
  let cut ← lastCut (· == '.') name.toList
  if cut.before.isEmpty then none else some (String.ofList cut.after)

end DocTree.Path
