import DocTree.Text.Blank
import DocTree.Text.Cut

/-!
# Flags of a regular expression

What an expression means depends on flags that it can set for the rest of a group. Three of them
decide whether a text is an expression at all: whether the case of letters is ignored, whether
characters beyond ASCII count as such, and whether blank space and comments may be put in.

No tables of the letters beyond ASCII are at hand. So ignoring case cannot be had together with such
characters, and neither can the classes that would need them. The other four flags are accepted and
say nothing about the form.
-/

set_option autoImplicit false

namespace DocTree.Regex

open DocTree.Text

structure Flags where
  caseless : Bool
  unicode : Bool
  spaced : Bool
deriving DecidableEq, Repr

namespace Flags

def usual : Flags := ⟨false, true, false⟩

/-! ## Setting -/

def letters : List Char := ['i', 'm', 's', 'U', 'u', 'R', 'x']

/-- Whether a flag is on, by the letters that turn flags on and off. -/
def choose (on off : List Char) (letter : Char) (before : Bool) : Bool :=
  on.contains letter || (!off.contains letter && before)

/-- The flags after a setting such as `i-u`: letters to turn on, and after a hyphen letters to turn
off. No letter may come twice, and the hyphen not at the end. -/
def set? (flags : Flags) (setting : List Char) : Option Flags :=
  if setting.all (fun c => c == '-' || letters.contains c) ∧ setting.Nodup
      ∧ setting.getLast? ≠ some '-' then
    let (on, off) := match firstCut (· == '-') setting with
      | some cut => (cut.before, cut.after)
      | none => (setting, [])
    some
      ⟨choose on off 'i' flags.caseless, choose on off 'u' flags.unicode,
       choose on off 'x' flags.spaced⟩
  else none

/-! ## Blank space -/

/-- The text after its blank space and comments; a comment goes from a hash to the end of its
line. -/
def skipComments : Bool → List Char → List Char
  | _, [] => []
  | true, c :: rest => skipComments (c != '\n') rest
  | false, c :: rest =>
    if isBlankSpace c then skipComments false rest
    else if c == '#' then skipComments true rest
    else c :: rest

def skip (flags : Flags) (text : List Char) : List Char :=
  if flags.spaced then skipComments false text else text

/-- The character of the next part. Of a comment, only the hash is passed over, and where nothing
else is left, the very next character counts. -/
def peek? (flags : Flags) (text : List Char) : Option Char :=
  if !flags.spaced then text.head?
  else
    let found := match text.dropWhile isBlankSpace with
      | '#' :: rest => rest.dropWhile isBlankSpace
      | other => other
    if found.isEmpty then text.head? else found.head?

end Flags

/-! ## Nesting

An expression may be nested to a bound only. What counts as a level is not what the eye sees: a row
of two parts is a level of its own and a single part is not, so the depth of a series depends on how
many parts it has. -/

/-- The parts of a series: how many there are, and how deep the deepest is nested. -/
structure Series where
  count : Nat
  depth : Nat
deriving DecidableEq, Repr

namespace Series

def empty : Series := ⟨0, 0⟩

def add (series : Series) (depth : Nat) : Series := ⟨series.count + 1, max series.depth depth⟩

/-- How deep the series is nested as a whole. A lone part needs no series around it. -/
def whole (series : Series) : Nat := if series.count ≤ 1 then series.depth else series.depth + 1

end Series

end DocTree.Regex
