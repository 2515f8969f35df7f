import DocTree.Regex.Escape

/-!
# Bracketed classes in a regular expression

A class lists characters between brackets: single ones, ranges, classes by a name or an escape, and
classes within. Between two lists can stand an operator, for what is in both (`&&`), in the first
alone (`--`) or in one of them (`~~`); a list beside an operator may be empty. Operators are read
from the left.

Which characters a class has is not asked. What is kept of it is how deep it is nested, by the count
of members on each side of an operator, since the bound on expressions counts classes as well.
-/

set_option autoImplicit false

namespace DocTree.Regex

open DocTree.Text

/-! ## Sides of operators -/

/-- What was read of a class: the members since the last operator, and how deep all before it is
nested. -/
structure Side where
  members : Series
  before : Option Nat
deriving DecidableEq, Repr

namespace Side

def empty : Side := ⟨.empty, none⟩

def add (side : Side) (depth : Nat) : Side := { side with members := side.members.add depth }

def whole (side : Side) : Nat :=
  match side.before with
  | some depth => max depth side.members.whole + 1
  | none => side.members.whole

def operator (side : Side) : Side := ⟨.empty, some side.whole⟩

end Side

/-! ## Classes by name -/

def classNames : List String :=
  ["alnum", "alpha", "ascii", "blank", "cntrl", "digit", "graph", "lower", "print", "punct",
   "space", "upper", "word", "xdigit"]

/-- Reads a class by its name, after the opening bracket: whether it is negated, and the rest. -/
def readNamed : List Char → Option (Bool × List Char)
  | ':' :: text =>
    let (negated, text) := match text with
      | '^' :: rest => (true, rest)
      | _ => (false, text)
    match firstCut (· == ':') text with
    | some ⟨name, _, ']' :: rest⟩ =>
      if classNames.contains (String.ofList name) then some (negated, rest) else none
    | _ => none
  | _ => none

def namedFits (flags : Flags) (negated : Bool) : Bool :=
  if flags.unicode then !flags.caseless else !negated

/-! ## Reading

A hyphen is a member at the beginning of a class, a range between two ends, and half of an operator
in front of another hyphen; the readers try these in this order. The number that bounds the reading
of members counts rounds, and each round takes a character. -/

/-- Reads the hyphens with which a class begins, at most `fuel` of them. -/
def readHyphens (flags : Flags) : Nat → Side → List Char → Side × List Char
  | fuel + 1, side, '-' :: rest => readHyphens flags fuel (side.add 0) (flags.skip rest)
  | _, side, text => (side, text)

/-- Reads the beginning of a class after its opening bracket: a caret that negates it, hyphens,
and a closing bracket that is the first member. -/
def openClass (flags : Flags) (text : List Char) : Option (Side × List Char) :=
  let text := flags.skip text
  let (negated, text) := match text with
    | '^' :: rest => (true, flags.skip rest)
    | _ => (false, text)
  let (side, text) := readHyphens flags text.length .empty text
  let (side, text) := match side.members.count, text with
    | 0, ']' :: rest => (side.add 0, rest)
    | _, _ => (side, text)
  if (negated && !flags.unicode)
      || (side.members.count != 0 && !Atom.fitsClass flags (.literal '-' false)) then none
  else some (side, text)

def readMember (flags : Flags) : List Char → Option (Atom × List Char)
  | [] => none
  | '\\' :: rest => readEscape flags rest
  | c :: rest => some (.literal c false, rest)

def rangeFits (flags : Flags) (first last : Atom) : Bool :=
  match first, last with
  | .literal a _, .literal b _ => a ≤ b && first.fitsClass flags && last.fitsClass flags
  | _, _ => false

/-- Reads a member or a range. A hyphen makes no range before the closing bracket or before another
hyphen. -/
def readRange (flags : Flags) (text : List Char) : Option (List Char) := do
  let (first, rest) ← readMember flags text
  match flags.skip rest with
  | '-' :: after =>
    if flags.peek? after = some ']' ∨ flags.peek? after = some '-' then
      if first.fitsClass flags then some ('-' :: after) else none
    else
      let (last, rest) ← readMember flags (flags.skip after)
      if rangeFits flags first last then some rest else none
  | rest => if first.fitsClass flags then some rest else none

/-- Reads a class to its closing bracket: how deep it is nested, and the rest. -/
def readMembers (flags : Flags) : Nat → Side → List Char → Option (Nat × List Char)
  | 0, _, _ => none
  | fuel + 1, side, text =>
    match flags.skip text with
    | [] => none
    | ']' :: rest => some (side.whole + 1, rest)
    | '[' :: rest =>
      match readNamed rest with
      | some (negated, rest) =>
        if namedFits flags negated then readMembers flags fuel (side.add 0) rest else none
      | none => do
        let (inner, rest) ← openClass flags rest
        let (depth, rest) ← readMembers flags fuel inner rest
        readMembers flags fuel (side.add depth) rest
    | '&' :: '&' :: rest | '-' :: '-' :: rest | '~' :: '~' :: rest =>
      readMembers flags fuel side.operator rest
    | text => do
      let rest ← readRange flags text
      readMembers flags fuel (side.add 0) rest

/-- Reads a class after its opening bracket: how deep it is nested, and the rest. Each step of the
reading takes at least one character. -/
def readClass (flags : Flags) (text : List Char) : Option (Nat × List Char) := do
  let (side, rest) ← openClass flags text
  readMembers flags (text.length + 1) side rest

end DocTree.Regex
