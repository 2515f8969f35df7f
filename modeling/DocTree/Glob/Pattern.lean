import DocTree.Text.Numeral

/-!
# Glob patterns

A pattern is matched against a name as a whole. `?` stands for one character and `*` for any number
of them; `[abc]` and `[a-z]` stand for one character of a set and `[!…]` for one outside it. Two
stars, which may only be a whole component of a path, stand for any number of directories.

A pattern never matches across a slash: it is read once as a whole, for its faults, and then
component by component, and only the components are matched (`Glob.Expand`). Matching is a recursion
on the pattern, with a search over the ends of the name for each star. That is slow for many stars
and short for a proof.
-/

set_option autoImplicit false

namespace DocTree.Glob

open DocTree.Text

/-! ## Tokens -/

structure CharSpan where
  first : Char
  last : Char
deriving DecidableEq, Repr

def CharSpan.has (span : CharSpan) (c : Char) : Bool := span.first ≤ c && c ≤ span.last

inductive Token where
  | char (c : Char)
  | anyChar
  | anyText
  | anyDirectories
  | oneOf (spans : List CharSpan)
  | noneOf (spans : List CharSpan)
deriving DecidableEq, Repr

abbrev Pattern := List Token

/-! ## Faults -/

inductive Cause where
  | wildcards
  | recursiveWildcards
  | invalidRange
deriving DecidableEq, Repr

/-- A fault, and the number of characters in front of it. -/
structure Fault where
  cause : Cause
  position : Nat
deriving DecidableEq, Repr

def Cause.message : Cause → String
  | .wildcards => "wildcards are either regular `*` or recursive `**`"
  | .recursiveWildcards => "recursive wildcards must form a single path component"
  | .invalidRange => "invalid range pattern"

def Fault.message (fault : Fault) : String :=
  "Pattern syntax error near position " ++ String.ofList (decimal fault.position) ++ ": "
    ++ fault.cause.message

/-! ## Reading

The rounds are bounded by the length of the text, since a token takes a character at least. Where a
fault lies is counted from the length that is left, in characters. -/

/-- The spans of a set of characters. A hyphen between two characters makes one span of them. -/
def readSpans : List Char → List CharSpan
  | a :: '-' :: b :: rest => ⟨a, b⟩ :: readSpans rest
  | a :: rest => ⟨a, a⟩ :: readSpans rest
  | [] => []

/-- The characters up to the next closing bracket, of which there is at least one, and what follows
it. A bracket that comes first is one of the characters. -/
def bracketed : List Char → Option (List Char × List Char)
  | [] => none
  | first :: rest =>
    if rest.contains ']' then
      some (first :: rest.takeWhile (· != ']'), (rest.dropWhile (· != ']')).drop 1)
    else none

def readSet : List Char → Option (Token × List Char)
  | '!' :: rest => (bracketed rest).map fun found => (.noneOf (readSpans found.1), found.2)
  | text => (bracketed text).map fun found => (.oneOf (readSpans found.1), found.2)

def endsComponent : List Char → Bool
  | [] => true
  | c :: _ => c == '/'

/-- The wildcard of a number of stars that ends at `position`, and what is left of the text; two
stars take the slash after them. -/
def readStars (count position : Nat) (afterSlash : Bool) (rest : List Char) :
    Except Fault (Token × List Char) :=
  let start := position - count
  if 2 < count then .error ⟨.wildcards, start + 2⟩
  else if count < 2 then .ok (.anyText, rest)
  else if !afterSlash then .error ⟨.recursiveWildcards, start - 1⟩
  else if endsComponent rest then .ok (.anyDirectories, rest.drop 1)
  else .error ⟨.recursiveWildcards, position⟩

/-- Reads the tokens of a pattern from a position on, in at most a number of rounds. `afterSlash`
says whether a component begins here. -/
def readTokens (length : Nat) : Nat → Bool → List Char → Except Fault Pattern
  | _, _, [] => .ok []
  | 0, _, _ => .ok []
  | rounds + 1, afterSlash, c :: rest =>
    let position := length - (rest.length + 1)
    if c = '?' then do
      let tokens ← readTokens length rounds false rest
      .ok (.anyChar :: tokens)
    else if c = '*' then do
      let after := rest.dropWhile (· == '*')
      let count := rest.length + 1 - after.length
      let (token, after) ← readStars count (position + count) afterSlash after
      let tokens ← readTokens length rounds (token == .anyDirectories) after
      .ok (token :: tokens)
    else if c = '[' then
      match readSet rest with
      | some (token, after) => do
        let tokens ← readTokens length rounds false after
        .ok (token :: tokens)
      | none => .error ⟨.invalidRange, position⟩
    else do
      let tokens ← readTokens length rounds (c == '/') rest
      .ok (.char c :: tokens)

def Pattern.read (text : String) : Except Fault Pattern :=
  readTokens text.length text.length true text.toList

/-! ## Matching -/

def someEnd (p : List Char → Bool) : List Char → Bool
  | [] => p []
  | c :: rest => p (c :: rest) || someEnd p rest

def Token.has : Token → Char → Bool
  | .char c, d => c == d
  | .anyChar, _ => true
  | .oneOf spans, d => spans.any fun span => span.has d
  | .noneOf spans, d => !spans.any fun span => span.has d
  | .anyText, _ => false
  | .anyDirectories, _ => false

def Pattern.matchesName : Pattern → List Char → Bool
  | [], name => name.isEmpty
  | .anyText :: rest, name => someEnd (Pattern.matchesName rest) name
  | .anyDirectories :: rest, name => someEnd (Pattern.matchesName rest) name
  | _ :: _, [] => false
  | token :: rest, c :: name => token.has c && Pattern.matchesName rest name

/-- The text of a pattern without wildcards. -/
def Pattern.literal? (pattern : Pattern) : Option (List Char) :=
  pattern.mapM fun
    | .char c => some c
    | _ => none

end DocTree.Glob
