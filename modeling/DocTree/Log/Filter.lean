import DocTree.Log.Directive

/-!
# Log filters

A filter is a list of directives separated by commas. Of the directives that care about an event,
the most specific decides: the one with the longest target, and among those one that asks for a
field; a repeated directive replaces the earlier one.

A filter with a malformed directive is no filter. One without any directive lets errors through, but
one whose directives are all for spans lets nothing through. The two are told apart by whether there
was anything to read between the commas, and not by whether a directive was left.
-/

set_option autoImplicit false

namespace DocTree.Log

open DocTree.Text

abbrev Filter := List Directive

namespace Filter

/-! ## Deciding -/

/-- The directive that decides: the most specific, of equals the last. -/
def deciding (filter : Filter) (event : Event) : Option Directive :=
  (filter.filter fun directive => directive.caresAbout event).foldl
    (fun best directive =>
      match best with
      | some other => if directive.yieldsTo other then best else some directive
      | none => some directive)
    none

def allows (filter : Filter) (event : Event) : Bool :=
  match filter.deciding event with
  | some directive => event.level.rank ≤ directive.rank
  | none => false

/-! ## Reading -/

def read (text : String) : Option Filter :=
  let parts := (text.toList.splitOn ',').filter fun part => !part.isEmpty
  match parts.mapM Directive.read with
  | none => none
  | some [] => some [⟨none, none, Level.error.rank⟩]
  | some directives => some (directives.filterMap id)

/-! ## The usual filters -/

/-- The filter without any request: warnings, and of this program all but the finest detail when
it is to be verbose. -/
def usual (verbose : Bool) : Filter :=
  let warnings : Directive := ⟨none, none, Level.warn.rank⟩
  if verbose then [⟨some Part.program.name, none, Level.debug.rank⟩, warnings] else [warnings]

def choose (request : Option String) (verbose : Bool) : Filter :=
  (request.bind read).getD (usual verbose)

def lines (filter : Filter) (events : List Event) : String :=
  String.join ((events.filter filter.allows).map Event.line)

end Filter

end DocTree.Log
