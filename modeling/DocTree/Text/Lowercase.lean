import DocTree.Text.CapitalRuns
import DocTree.Text.Cased

/-!
# Lower-casing

The full lower-case mapping of a text. Every character but one is mapped on its own: a capital to
its lower-case form, `İ` to the two characters `i` and U+0307, all else to itself. The capital sigma
depends on its surroundings: at the end of a word it becomes `ς`, elsewhere `σ`.

The walk keeps the characters already passed, nearest first, since the rule of the sigma looks both
ways. That makes lower-casing no map over characters and no homomorphism either: the lower case of
two texts joined is not the two lower cases joined when a sigma stands where they meet. Whatever is
proved of the order of keys and of anchors has to get by without that equation, and `lowerAfter`,
with the text before as an argument, is the form in which the inductions go through.
-/

set_option autoImplicit false

namespace DocTree.Text

/-! ## One character

The two exceptions are named, and the tables say the rest. Since the runs ascend, the search can end
at the first run that begins beyond the character. -/

def dottedCapitalI : Char := '\u0130'

/-- The capital sigma, the one character whose lower-case form depends on the text around it. -/
def capitalSigma : Char := '\u03A3'

/-- The lower-case code point of `n` in runs that ascend; nothing for one that is no capital. -/
def lowerInRuns : List CapitalRun → Nat → Option Nat
  | [], _ => none
  | run :: rest, n =>
    if n < run.first then none
    else if n ≤ run.last && (n - run.first) % run.step == 0 then
      some (run.lowerFirst + (n - run.first))
    else lowerInRuns rest n

/-- The lower-case form of a character that stands alone. -/
def lowerChar (c : Char) : List Char :=
  if c = dottedCapitalI then ['i', '\u0307']
  else match lowerInRuns capitalRuns c.toNat with
    | some n => [Char.ofNat n]
    | none => [c]

/-! ## The sigma at the end of a word

A word ends at a sigma if a letter with a case stands before it and none stands after it. What can
be looked through is skipped on both sides. -/

def startsCased (cs : List Char) : Bool :=
  match cs.dropWhile isCaseIgnorable with
  | [] => false
  | c :: _ => isCased c

/-- Whether a letter between the two texts ends a word; `before` is read nearest first. Marks that
belong to no case are looked through on both sides. -/
def endsWord (before after : List Char) : Bool := startsCased before && !startsCased after

def smallSigma (before after : List Char) : Char :=
  if endsWord before after then '\u03C2' else '\u03C3'

/-! ## A text -/

/-- Lower-cases a text that follows `before`, which is read nearest first. The context is the text
as it was, so the result of one letter does not depend on those of others. -/
def lowerAfter (before : List Char) : List Char → List Char
  | [] => []
  | c :: rest =>
    (if c = capitalSigma then [smallSigma before rest] else lowerChar c)
      ++ lowerAfter (c :: before) rest

def lower (text : String) : String := String.ofList (lowerAfter [] text.toList)

end DocTree.Text
