import DocTree.Json.Lexeme
import DocTree.Json.Value

/-!
# Reading JSON

Containers are read by loops over their contents that know nothing of the contents themselves: the
reader of an item, and a step that takes the name of a member and reads its value, are arguments.
The same loops so read a value of any shape and an object of a given one, in one pass from left to
right in which the first fault wins.

A loop takes at least a comma per round, hence the length of the text bounds it. The depth of nested
containers is bounded by a number that `readValue` recurses on.

That the loops are shared is what makes the typed readers comparable with the reader of values at
all. Proofs go through a relation between two steps, say a typed one and the one that keeps each
member (`keepMember`), and one lemma for each loop carries it to whole objects
(`Proofs.TypedReading`).
-/

set_option autoImplicit false

namespace DocTree.Json

/-! ## Arrays -/

def itemsAfter (item : Reader Value) : Nat → Reader (List Value)
  -- not reached: there are more rounds than commas
  | 0, _ => .error (.atEnd .list)
  | rounds + 1, text =>
    match skipBlanks text with
    | [] => .error (.atEnd .list)
    | ']' :: rest => .ok ([], rest)
    | ',' :: rest =>
      match skipBlanks rest with
      | [] => .error (.atEnd .value)
      | ']' :: after => .error (.next .trailingComma (']' :: after))
      | start => do
        let (value, rest) ← item start
        let (values, rest) ← itemsAfter item rounds rest
        .ok (value :: values, rest)
    | start => .error (.next .expectedCommaOrBracket start)

def readItems (item : Reader Value) : Reader (List Value) := fun text =>
  match skipBlanks text with
  | [] => .error (.atEnd .list)
  | ']' :: rest => .ok ([], rest)
  | start => do
    let (value, rest) ← item start
    let (values, rest) ← itemsAfter item (rest.length + 1) rest
    .ok (value :: values, rest)

/-! ## Objects

A comma has to be followed by another member, and there the two loops differ from a list with
separators between: after a comma, a closing brace is a fault of its own. -/

def colon : Reader Unit := fun text =>
  match skipBlanks text with
  | [] => .error (.atEnd .object)
  | ':' :: rest => .ok ((), rest)
  | start => .error (.next .expectedColon start)

/-- What the members read so far make, the name of the next one, and a reader for the rest of it,
which begins at its colon. -/
abbrev MemberStep (σ : Type) := σ → String → Reader σ

def readMember {σ : Type} (step : MemberStep σ) (state : σ) : Reader σ := fun text => do
  let (name, rest) ← readString text
  step state name rest

def membersAfter {σ : Type} (step : MemberStep σ) : Nat → σ → Reader σ
  | 0, _, _ => .error (.atEnd .object)
  | rounds + 1, state, text =>
    match skipBlanks text with
    | [] => .error (.atEnd .object)
    | '\x7d' :: rest => .ok (state, rest)
    | ',' :: rest =>
      match skipBlanks rest with
      | [] => .error (.atEnd .value)
      | '"' :: rest => do
        let (state, rest) ← readMember step state rest
        membersAfter step rounds state rest
      | '\x7d' :: after => .error (.next .trailingComma ('\x7d' :: after))
      | start => .error (.next .keyMustBeString start)
    | start => .error (.next .expectedCommaOrBrace start)

def readMembers {σ : Type} (step : MemberStep σ) (state : σ) : Reader σ := fun text =>
  match skipBlanks text with
  | [] => .error (.atEnd .object)
  | '\x7d' :: rest => .ok (state, rest)
  | '"' :: rest => do
    let (state, rest) ← readMember step state rest
    membersAfter step (rest.length + 1) state rest
  | start => .error (.next .keyMustBeString start)

def readObject {σ : Type} (expected : Expected) (step : MemberStep σ) (state : σ) : Reader σ :=
  fun text => do
  let (_, rest) ← scalar expected (fun | .openObject => some () | _ => none) text
  readMembers step state rest

/-! ## Values

The depth is an argument of the reader and no counter in its state. At depth zero there is no reader
for contents, and an opening bracket is a fault. -/

/-- The step that keeps each member as it is, the last one first. Whether a name comes twice is not
looked at here. -/
def keepMember (value : Reader Value) : MemberStep Members := fun members name text => do
  let (_, rest) ← colon text
  let (value, rest) ← value rest
  .ok ((name, value) :: members, rest)

/-- Reads a value whose contents, if it is a container, are read by `inner`; without one, no
container may open. -/
def valueOver (inner : Option (Reader Value)) : Reader Value := fun text => do
  let (found, rest) ← lexeme (skipBlanks text)
  match found, inner with
  | .null, _ => .ok (.null, rest)
  | .bool b, _ => .ok (.bool b, rest)
  | .number n, _ => .ok (.number n, rest)
  | .string s, _ => .ok (.string s, rest)
  | .openArray, some inner => do
    let (items, rest) ← readItems inner rest
    .ok (.array items, rest)
  | .openObject, some inner => do
    let (members, rest) ← readMembers (keepMember inner) [] rest
    .ok (.object members.reverse, rest)
  -- what is left are the two brackets
  | _, none => .error (.here .tooDeep rest)

/-- Reads a value in which up to `depth` containers lie inside one another. The recursion is on the
depth, and within a container it is bounded by the text. -/
def readValue : Nat → Reader Value
  | 0 => valueOver none
  | depth + 1 => valueOver (some (readValue depth))

def deepest : Nat := 127

/-! ## Whole texts -/

/-- Reads a whole text: after it, only blanks are allowed. -/
def whole {α : Type} (reader : Reader α) (text : String) : Except Fault α := do
  let (value, rest) ← reader text.toList
  match skipBlanks rest with
  | [] => .ok value
  | start => .error (.next .trailingCharacters start)

def Value.read (text : String) : Except Fault Value := whole (readValue deepest) text

end DocTree.Json
