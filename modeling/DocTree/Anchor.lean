import DocTree.Text.Alphanumeric
import DocTree.Text.Cut
import DocTree.Text.Lowercase
import DocTree.Text.Numeral

/-!
# Anchors and index links

Every record in a Markdown document has an anchor: the slug of its path. When a slug is taken
already, a number follows it, the first that makes it free. Of a slug and its numbered forms, no
more can be taken than there are anchors in use, so that many retries are enough.

The search counts its retries down, and would give an anchor that is in use if it ran out of them.
It does not: the forms of one slug are all different, so among one more of them than there are
anchors in use one is free (`Anchor.exists_free`). A counter that starts at the number of anchors in
use is therefore as good as a search without one, and it is a recursion that a proof can follow.
-/

set_option autoImplicit false

namespace DocTree

open DocTree.Text

/-! ## Slugs

A text is put in lower case first and filtered then. The other way round the mark that `İ` leaves
behind in lower case would stay in the slug, although it is no letter. -/

def isSlugChar (c : Char) : Bool := isAlphanumeric c || c == ' ' || c == '-'

/-- The slug of a text: in lower case, without characters other than letters, digits, blanks and
hyphens, and with a hyphen for each blank. -/
def slug (text : String) : String :=
  String.ofList
    (((lower text).toList.filter isSlugChar).map fun c => if c = ' ' then '-' else c)

/-! ## Anchors -/

namespace Anchor

/-- The slug of a path, or a word in place of an empty one. A path of marks alone has no slug, and
an anchor must not be empty. -/
def base (path : String) : String := if slug path = "" then "record" else slug path

/-- The numbered form of a slug; number zero is the slug itself. A form with a number can be the
slug of another path, so all forms are looked for among the anchors in use. -/
def candidate (base : String) : Nat → String
  | 0 => base
  | n + 1 => base ++ "-" ++ String.ofList (decimal (n + 1))

/-- The first form of a slug, from a number on, that is not in use; after some retries the next one
whether in use or not. -/
def firstFree (used : List String) (base : String) : Nat → Nat → String
  | 0, n => candidate base n
  | retries + 1, n =>
    if used.contains (candidate base n) then firstFree used base retries (n + 1)
    else candidate base n

/-- The first form of the path's slug that is not in use. It is found after as many retries as
there are anchors in use, if not before. -/
def fresh (used : List String) (path : String) : String :=
  firstFree used (base path) used.length 0

def assignFrom (used : List String) : List String → List String
  | [] => []
  | path :: rest =>
    let anchor := fresh used path
    anchor :: assignFrom (anchor :: used) rest

def assign (paths : List String) : List String := assignFrom [] paths

end Anchor

/-! ## Links to anchors

Brackets in a title would close the label of its link early, so each has a backslash put in front of
it. A backslash that the title has of its own is left alone. -/

/-- The text with a backslash in front of each bracket. A backslash that stands there already is not
escaped in turn. -/
def escapeBrackets (text : List Char) : List Char :=
  text.flatMap fun c => if c = '[' ∨ c = ']' then ['\\', c] else [c]

def indexLink (text anchor : String) : String :=
  "[" ++ String.ofList (escapeBrackets text.toList) ++ "](#" ++ anchor ++ ")"

def indexItem (text anchor : String) : String := "* " ++ indexLink text anchor

end DocTree
