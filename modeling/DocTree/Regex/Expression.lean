import DocTree.Regex.Bracket
import DocTree.Text.Alphanumeric

/-!
# Regular expressions

Which texts are regular expressions: branches between bars, each a row of parts, and every part with
its repetitions after it. A group can have a name, or set flags for what is inside; flags can also
be set for the rest of a group. What looks ahead or behind is no part of an expression, and neither
is a count of repetitions.

Only the form is read here, and how deep it is nested: nothing is matched. The one place that needs
it is the value of a field in a directive of the log filter (`Log.Directive`), which has to be an
expression for the directive to be well formed, and is never applied to anything since the program
has no spans.
-/

set_option autoImplicit false

namespace DocTree.Regex

open DocTree.Text

/-! ## Groups

Two groups of one expression must not have one name, so the names that were given are carried
through the reading. A parenthesis that only sets flags begins no group and cannot be repeated. -/

/-- Whether a group's name may begin with the character: a letter or a low line. -/
def startsName (c : Char) : Bool := c == '_' || (isAlphanumeric c && !c.isDigit)

def continuesName (c : Char) : Bool :=
  c == '_' || c == '.' || c == '[' || c == ']' || isAlphanumeric c

def isName : List Char → Bool
  | [] => false
  | c :: rest => startsName c && rest.all continuesName

inductive Head where
  | group (flags : Flags) (name : Option (List Char))
  | setting (flags : Flags)
deriving DecidableEq, Repr

def readName (flags : Flags) (text : List Char) : Option (Head × List Char) :=
  match firstCut (· == '>') text with
  | some cut => if isName cut.before then some (.group flags cut.before, cut.after) else none
  | none => none

def readSetting (flags : Flags) (text : List Char) : Option (Head × List Char) := do
  let cut ← firstCut (fun c => c == ':' || c == ')') text
  let inner ← flags.set? cut.before
  if cut.mark = ':' then some (.group inner none, cut.after)
  else if cut.before.isEmpty then none
  else some (.setting inner, cut.after)

/-- Reads what follows an opening parenthesis, up to the group's first part. -/
def readHead (flags : Flags) : List Char → Option (Head × List Char)
  | '?' :: '=' :: _ | '?' :: '!' :: _ | '?' :: '<' :: '=' :: _ | '?' :: '<' :: '!' :: _ => none
  | '?' :: 'P' :: '<' :: rest | '?' :: '<' :: rest => readName flags rest
  | '?' :: rest => readSetting flags rest
  | text => some (.group flags none, text)

/-! ## Branches -/

/-- What was read of a group: the parts of the branch, how deep the last one is nested if it can be
repeated, and how deep the branches before are. -/
structure Branch where
  parts : Series
  last : Option Nat
  before : Option Nat
deriving DecidableEq, Repr

namespace Branch

def empty : Branch := ⟨.empty, none, none⟩

def add (branch : Branch) (depth : Nat) : Branch :=
  { branch with parts := branch.parts.add depth, last := some depth }

def addSetting (branch : Branch) : Branch :=
  { branch with parts := branch.parts.add 0, last := none }

def repeated? (branch : Branch) : Option Branch :=
  branch.last.map fun depth =>
    { branch with
      parts := { branch.parts with depth := max branch.parts.depth (depth + 1) }
      last := some (depth + 1) }

def deepest (branch : Branch) : Nat := max (branch.before.getD 0) branch.parts.whole

def next (branch : Branch) : Branch := ⟨.empty, none, some branch.deepest⟩

def whole (branch : Branch) : Nat :=
  if branch.before.isSome then branch.deepest + 1 else branch.deepest

end Branch

/-! ## Reading -/

/-- What was read of an expression or a group, up to its end or its closing parenthesis. -/
structure Body where
  depth : Nat
  /-- The names of the groups so far. -/
  names : List (List Char)
  rest : List Char
deriving DecidableEq, Repr

def readAtom (flags : Flags) : List Char → Option (List Char)
  | [] => none
  | '.' :: rest => if flags.unicode then some rest else none
  | '^' :: rest | '$' :: rest => some rest
  | '\\' :: rest => do
    let (atom, rest) ← readEscape flags rest
    if atom.fits flags then some rest else none
  | c :: rest => if Atom.fits flags (.literal c false) then some rest else none

/-- The text after the mark that makes a repetition match as little as it can. -/
def afterLazy : List Char → List Char
  | '?' :: rest => rest
  | text => text

/-- Reads on after what was read of a group, whose groups have these names so far. -/
def readBody : Nat → Flags → List (List Char) → Branch → List Char → Option Body
  | 0, _, _, _, _ => none
  | fuel + 1, flags, names, branch, text =>
    match flags.skip text with
    | [] => some ⟨branch.whole, names, []⟩
    | ')' :: rest => some ⟨branch.whole, names, ')' :: rest⟩
    | '|' :: rest => readBody fuel flags names branch.next rest
    | '(' :: rest => do
      match ← readHead flags (flags.skip rest) with
      | (.setting inner, rest) => readBody fuel inner names branch.addSetting rest
      | (.group inner name, rest) =>
        if name.any names.contains then none
        else
          let body ← readBody fuel inner (name.toList ++ names) .empty rest
          match body.rest with
          | ')' :: rest => readBody fuel flags body.names (branch.add (body.depth + 1)) rest
          | _ => none
    | '[' :: rest => do
      let (depth, rest) ← readClass flags rest
      readBody fuel flags names (branch.add depth) rest
    | '?' :: rest | '*' :: rest | '+' :: rest => do
      let repeated ← branch.repeated?
      readBody fuel flags names repeated (afterLazy rest)
    | '\x7b' :: _ => none
    | text => do
      let rest ← readAtom flags text
      readBody fuel flags names (branch.add 0) rest

def deepestNesting : Nat := 250

/-- Whether the text is a regular expression. Each step of the reading takes at least one
character. -/
def isExpression (text : List Char) : Bool :=
  match readBody (text.length + 1) .usual [] .empty text with
  | some body => body.rest.isEmpty && body.depth ≤ deepestNesting
  | none => false

end DocTree.Regex
