import DocTree.Regex.Flags
import DocTree.Text.Numeral

/-!
# Escapes in a regular expression

What the backslash makes of the characters after it: a character as itself, a control, a character
by its code point, a class such as the digits, or a place such as the edge of a word. There are no
references to groups and no classes by the name of a property.

An escape is read the same way everywhere, and whether what it stands for may stand there is a
question of its own. So the reader gives an `Atom`, and the two contexts, outside of brackets and
inside, ask `Atom.fits` and `Atom.fitsClass`.
-/

set_option autoImplicit false

namespace DocTree.Regex

open DocTree.Text

/-- What a single part of an expression stands for. -/
inductive Atom where
  /-- A character; `asByte` when it is written by two hexadecimal digits. -/
  | literal (c : Char) (asByte : Bool)
  /-- The digits, the blanks or the word characters, or all others. -/
  | shorthand (negated : Bool)
  /-- A place between characters; `ofWords` when it depends on what a word is. -/
  | place (ofWords : Bool)
deriving DecidableEq, Repr

namespace Atom

/-- Whether the atom may stand on its own. A byte beyond ASCII is no character, and neither is what
a negated class matches where characters beyond ASCII do not count. -/
def fits (flags : Flags) : Atom → Bool
  | .literal c asByte => if flags.unicode then !flags.caseless else !asByte || c.toNat ≤ 0x7F
  | .shorthand negated => !flags.unicode && !negated
  | .place ofWords => !ofWords || !flags.unicode

def fitsClass (flags : Flags) : Atom → Bool
  | .literal c _ => if flags.unicode then !flags.caseless else c.toNat ≤ 0x7F
  | .shorthand negated => !flags.unicode && !negated
  | .place _ => false

end Atom

/-! ## Reading -/

/-- Reads a number of hexadecimal digits, after those that give `value`. -/
def readDigits (flags : Flags) : Nat → Nat → List Char → Option (Nat × List Char)
  | 0, value, text => some (value, text)
  | more + 1, value, text =>
    match flags.skip text with
    | [] => none
    | c :: rest =>
      match hexDigit? c with
      | some digit => readDigits flags more (value * 16 + digit) rest
      | none => none

def readCodePoint (flags : Flags) (digits : Nat) (text : List Char) : Option (Char × List Char) :=
  match readDigits flags digits 0 text with
  | some (value, rest) => if value.isValidChar then some (Char.ofNat value, rest) else none
  | none => none

def controlOf? : Char → Option Char
  | 'a' => some '\x07'
  | 't' => some '\t'
  | 'n' => some '\n'
  | 'v' => some '\x0b'
  | 'f' => some '\x0c'
  | 'r' => some '\r'
  | _ => none

/-- Whether the character stands for itself after a backslash: it is in ASCII and means nothing
else there. -/
def isEscapable (c : Char) : Bool := c.toNat ≤ 0x7F && !c.isAlphanum && c != '<' && c != '>'

def readEscape (flags : Flags) : List Char → Option (Atom × List Char)
  | [] => none
  | c :: rest =>
    match c with
    | 'x' => (readCodePoint flags 2 rest).map fun found => (.literal found.1 true, found.2)
    | 'u' => (readCodePoint flags 4 rest).map fun found => (.literal found.1 false, found.2)
    | 'U' => (readCodePoint flags 8 rest).map fun found => (.literal found.1 false, found.2)
    | 'd' | 's' | 'w' => some (.shorthand false, rest)
    | 'D' | 'S' | 'W' => some (.shorthand true, rest)
    | 'A' | 'z' => some (.place false, rest)
    | 'b' | 'B' | '<' | '>' => some (.place true, rest)
    | _ =>
      match controlOf? c with
      | some control => some (.literal control false, rest)
      | none => if isEscapable c then some (.literal c false, rest) else none

end DocTree.Regex
