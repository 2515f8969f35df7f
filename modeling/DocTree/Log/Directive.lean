import DocTree.Log.Event
import DocTree.Regex.Expression
import DocTree.Text.Alphanumeric
import DocTree.Text.Blank
import DocTree.Text.Cut

/-!
# Directives of a log filter

A directive says how much is shown of some events. It is a level, or a target with or without a
level, as `ndoc::registry=trace`; it may also ask for a field, as `ndoc[{records}]=debug`. A
directive that names a span, or the value of a field, is for spans alone, and decides no event; the
value is a regular expression, or a number with a plus sign, which is none.

Blank space around a directive does not count when its parts are looked for, but they are taken from
the text with that space, at the same offsets: space in front moves each part to the front, and
space behind belongs to a part that goes to the end. So a word with blank space around it is a
target that matches no event, and a level after an equals sign is malformed with it.

Directives for spans are read with the same care as the others although they show nothing, because a
malformed one makes the whole filter malformed, and then the usual filter takes its place. For that
reason alone this project reads regular expressions.
-/

set_option autoImplicit false

namespace DocTree.Log

open DocTree.Text

/-- The most detail that is shown of the events that a directive cares about. -/
structure Directive where
  target : Option String
  field : Option String
  /-- The rank of the highest level shown; zero for none. -/
  rank : Nat
deriving DecidableEq, Repr

namespace Directive

/-! ## Events

What a directive is asked about an event: whether it has a say, and how specific it is compared with
another that has one too. -/

def hasField (event : Event) (field : String) : Bool :=
  field == "message" || event.fields.any fun entry => entry.1 == field

def caresAbout (directive : Directive) (event : Event) : Bool :=
  (match directive.target with
    | some target => target.toList.isPrefixOf event.part.name.toList
    | none => true)
  && match directive.field with
    | some field => hasField event field
    | none => true

/-- How much of an event's part the target tells; nothing without a target. -/
def reach (directive : Directive) : Nat :=
  match directive.target with
  | some target => byteLength target.toList + 1
  | none => 0

/-- Whether the directive is less specific than another: by its target, then by whether it asks for
a field, and last by the field's name. -/
def yieldsTo (directive other : Directive) : Bool :=
  directive.reach < other.reach
    || (directive.reach == other.reach
      && match directive.field, other.field with
        | none, some _ => true
        | some a, some b => a < b
        | _, none => false)

/-! ## Levels

A level may be a number, with or without a plus sign, from zero for none to five for all. -/

def numberRank? (text : List Char) : Option Nat :=
  let digits := match text with
    | '+' :: rest => rest
    | _ => text
  if digits.isEmpty || !digits.all Char.isDigit then none
  else
    let rank := digits.foldl (fun n c => n * 10 + (c.toNat - '0'.toNat)) 0
    if rank ≤ Level.trace.rank then some rank else none

/-- The rank of a level, given as a number or a word, in capitals or not. -/
def rank? (text : List Char) : Option Nat :=
  match numberRank? text with
  | some rank => some rank
  | none =>
    match String.ofList (text.map Char.toLower) with
    | "off" => some 0
    | "error" => some Level.error.rank
    | "warn" => some Level.warn.rank
    | "info" => some Level.info.rank
    | "debug" => some Level.debug.rank
    | "trace" => some Level.trace.rank
    | _ => none

def givenRank? (text : List Char) : Option Nat :=
  if text.isEmpty then some Level.trace.rank else rank? text

/-! ## Values of fields

A value that looks like a number is a number, but for one with a sign in front. Everything else has
to be a regular expression; the numbers without a sign are ones already, so only the plus sign makes
a case of its own. -/

def isPlainDecimal (text : List Char) : Bool :=
  let (whole, part) := match firstCut (· == '.') text with
    | some cut => (cut.before, cut.after)
    | none => (text, [])
  whole.all Char.isDigit && part.all Char.isDigit && !(whole.isEmpty && part.isEmpty)

def isExponent (text : List Char) : Bool :=
  let digits := match text with
    | '+' :: rest | '-' :: rest => rest
    | _ => text
  !digits.isEmpty && digits.all Char.isDigit

/-- Whether the text is a number without a sign; infinity is one, and so is what is none. -/
def isNumber (text : List Char) : Bool :=
  ["inf", "infinity", "nan"].contains (String.ofList (text.map Char.toLower))
  || match firstCut (fun c => c == 'e' || c == 'E') text with
    | some cut => isPlainDecimal cut.before && isExponent cut.after
    | none => isPlainDecimal text

def isValue (text : List Char) : Bool :=
  (match text with
    | '+' :: rest => isNumber rest
    | _ => false)
  || Regex.isExpression text

/-! ## Reading

What is left to read comes without the blank space around the directive; `text` comes with it, and
`offset` is where what is left begins in the former. -/

inductive Scope where
  | events (field : String)
  | spans
deriving DecidableEq, Repr

/-- Reads what follows the closing bracket of a span: a level or nothing. -/
def readLevel (text : List Char) (offset : Nat) : List Char → Option Nat
  | [] => some Level.trace.rank
  | '=' :: _ => (dropBytes (offset + 1) text).bind givenRank?
  | _ => none

def scopeOf? (span field : List Char) : Option Scope :=
  match field.splitOn '=' with
  | [] => none
  | [name] => some (if span.isEmpty then .events (String.ofList name) else .spans)
  | _ :: value :: _ => if isValue value then some .spans else none

/-- Reads a span after its opening bracket, and the level. -/
def readSpan (text : List Char) (offset : Nat) (left : List Char) : Option (Scope × Nat) := do
  let head ← firstCut (fun c => c == ']' || c == '\x7b') left
  let mark := offset + byteLength head.before
  let span ← slice offset mark text
  if head.mark = ']' then
    let rank ← readLevel text (mark + 1) head.after
    some (.spans, rank)
  else
    let body ← firstCut (· == '\x7d') head.after
    let stop := mark + 1 + byteLength body.before
    let field ← slice (mark + 1) stop text
    let scope ← if field.isEmpty then none else scopeOf? span field
    match body.after with
    | ']' :: after =>
      let rank ← readLevel text (stop + 2) after
      some (scope, rank)
    | _ => none

def ofScope (target : Option String) : Scope × Nat → Option Directive
  | (.events field, rank) => some ⟨target, some field, rank⟩
  | (.spans, _) => none

/-- The directive of a text without an equals sign and a bracket: of a level, or else of a target,
all of whose events are shown. -/
def ofWord (text : List Char) : Directive :=
  match rank? text with
  | some rank => ⟨none, none, rank⟩
  | none => ⟨some (String.ofList text), none, Level.trace.rank⟩

def startsTarget (c : Char) : Bool := c == '-' || c == ':' || c == '_' || isAlphanumeric c

def trim (text : List Char) : List Char :=
  ((text.dropWhile isBlankSpace).reverse.dropWhile isBlankSpace).reverse

/-- Reads a directive: nothing when it is malformed, and no directive when it is for spans alone. -/
def read (text : List Char) : Option (Option Directive) :=
  match trim text with
  | [] => none
  | '[' :: left => (readSpan text 1 left).map (ofScope none)
  | c :: left =>
    if !startsTarget c then none
    else
      match firstCut (fun c => c == '=' || c == '[') (c :: left) with
      | none => some (some (ofWord text))
      | some cut => do
        let mark := byteLength cut.before
        let target ← slice 0 mark text
        if cut.mark = '=' then
          let rank ← (dropBytes (mark + 1) text).bind givenRank?
          some (some ⟨some (String.ofList target), none, rank⟩)
        else
          let found ← readSpan text (mark + 1) cut.after
          some (ofScope (some (String.ofList target)) found)

end Directive

end DocTree.Log
