import DocTree.Documentation.Json
import DocTree.Documentation.Markdown

/-!
# Output formats

The formats in which documentation is written, by the names under which a user asks for them.
Markdown has two names. Whether JSON stands on one line is a request of its own, and one that says
nothing where Markdown is asked for.
-/

set_option autoImplicit false

namespace DocTree

inductive Format where
  | json (layout : Json.Layout)
  | markdown
deriving DecidableEq, Repr

namespace Format

/-- The format of a name; JSON is on a single line if it is to be compact. -/
def ofName? (name : String) (compact : Bool) : Option Format :=
  match name with
  | "json" => some (.json (if compact then .compact else .pretty))
  | "markdown" => some .markdown
  | "md" => some .markdown
  | _ => none

def render : Format → Documentation → String
  | .json layout, doc => doc.json layout
  | .markdown, doc => doc.markdown

end Format

end DocTree
