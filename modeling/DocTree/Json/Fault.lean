import DocTree.Json.Number
import DocTree.Text.Cut
import DocTree.Text.Quoted

/-!
# Faults in a JSON text

What can be wrong with a text that should be JSON of a given shape, and where. A fault is of one of
three kinds: the text ends too early, it breaks the grammar, or it is JSON of another shape. Its
place is kept as the text that was not read yet, so that no reader has to count; the line and the
column are worked out once, from the whole text.

Causes are data and are worded here only. A reader chooses among them, and what a message says can
be compared and proved about without its words: that reading fails, and whether for the shape or for
the grammar, is the constructor of the cause.
-/

set_option autoImplicit false

namespace DocTree.Json

open DocTree.Text

/-! ## Causes

What was expected and what was found are types of their own, since every reader of a scalar gives a
fault from the two. -/

/-- What a text was in the middle of when it ended. -/
inductive Unfinished where
  | value
  | string
  | list
  | object
deriving DecidableEq, Repr

/-- What stands in a text where something else was expected. -/
inductive Found where
  | null
  | bool (b : Bool)
  | number (n : Number)
  | string (s : String)
  | array
  | object
deriving DecidableEq, Repr

inductive Expected where
  | recordSet
  | record
  | string
  | lineNumber
  | flag
  | nothing
deriving DecidableEq, Repr

inductive Cause where
  | unfinished (inside : Unfinished)
  | expectedColon
  | expectedCommaOrBracket
  | expectedCommaOrBrace
  | expectedWord
  | expectedValue
  | keyMustBeString
  | trailingComma
  | trailingCharacters
  | invalidNumber
  | numberOutOfRange
  | invalidEscape
  | controlCharacter
  | loneSurrogate
  | unfinishedSurrogates
  | tooDeep
  | missingField (name : String)
  | duplicateField (name : String)
  | invalidType (found : Found) (expected : Expected)
  | invalidValue (found : Found) (expected : Expected)
deriving DecidableEq, Repr

inductive FaultKind where
  | endOfText
  | grammar
  | shape
deriving DecidableEq, Repr

def Cause.kind : Cause → FaultKind
  | .unfinished _ => .endOfText
  | .missingField _ | .duplicateField _ | .invalidType _ _ | .invalidValue _ _ => .shape
  | _ => .grammar

/-! ## Wording -/

def Unfinished.text : Unfinished → String
  | .value => "a value"
  | .string => "a string"
  | .list => "a list"
  | .object => "an object"

def accented (text : String) : String := "`" ++ text ++ "`"

def Found.text : Found → String
  | .null => "null"
  | .bool b => "boolean " ++ accented (if b then "true" else "false")
  | .number (.integer n) => "integer " ++ accented (String.ofList (Number.integer n).text)
  | .number (.real s m) => "floating point " ++ accented (String.ofList (Number.real s m).text)
  | .string s => "string " ++ quote s
  | .array => "sequence"
  | .object => "map"

def Expected.text : Expected → String
  | .recordSet => "a map"
  | .record => "struct RawRecord"
  | .string => "a string"
  | .lineNumber => "usize"
  | .flag => "a boolean"
  | .nothing => "unit"

def Cause.message : Cause → String
  | .unfinished inside => "EOF while parsing " ++ inside.text
  | .expectedColon => "expected `:`"
  | .expectedCommaOrBracket => "expected `,` or `]`"
  | .expectedCommaOrBrace => "expected `,` or `\x7d`"
  | .expectedWord => "expected ident"
  | .expectedValue => "expected value"
  | .keyMustBeString => "key must be a string"
  | .trailingComma => "trailing comma"
  | .trailingCharacters => "trailing characters"
  | .invalidNumber => "invalid number"
  | .numberOutOfRange => "number out of range"
  | .invalidEscape => "invalid escape"
  | .controlCharacter => "control character (\\u0000-\\u001F) found while parsing a string"
  | .loneSurrogate => "lone leading surrogate in hex escape"
  | .unfinishedSurrogates => "unexpected end of hex escape"
  | .tooDeep => "recursion limit exceeded"
  | .missingField name => "missing field " ++ accented name
  | .duplicateField name => "duplicate field " ++ accented name
  | .invalidType found expected =>
    "invalid type: " ++ found.text ++ ", expected " ++ expected.text
  | .invalidValue found expected =>
    "invalid value: " ++ found.text ++ ", expected " ++ expected.text

/-! ## Places

A place is counted in bytes, and a few causes lie inside what was not read or beyond it: a fault at
a character includes that character, and one in an escape the four bytes that should have been
digits. The text may be shorter than that, hence the minimum. -/

/-- A cause and its place: `past` bytes into `rest`, what was not read of the text. The place in the
whole text is worked out when a fault is reported. -/
structure Fault where
  cause : Cause
  rest : List Char
  past : Nat
deriving DecidableEq, Repr

def Fault.here (cause : Cause) (rest : List Char) : Fault := ⟨cause, rest, 0⟩

/-- A fault at the next character, which the place includes. -/
def Fault.next (cause : Cause) (rest : List Char) : Fault := ⟨cause, rest, 1⟩

def Fault.atEnd (inside : Unfinished) : Fault := ⟨.unfinished inside, [], 0⟩

def Fault.offset (text : List Char) (fault : Fault) : Nat :=
  min (byteLength text) (byteLength text - byteLength fault.rest + fault.past)

/-- The line and the column that lie a number of bytes on from a line and a column. -/
def placeAfter (line column : Nat) : List Char → Nat → Nat × Nat
  | [], _ => (line, column)
  | c :: rest, bytes =>
    if bytes < c.utf8Size then (line, column + bytes)
    else if c = '\n' then placeAfter (line + 1) 0 rest (bytes - c.utf8Size)
    else placeAfter line (column + c.utf8Size) rest (bytes - c.utf8Size)

/-- The message of a fault with its line, counted from one, and its column, the number of bytes
that the fault lies beyond the start of the line. -/
def Fault.report (text : String) (fault : Fault) : String :=
  let place := placeAfter 1 0 text.toList (fault.offset text.toList)
  fault.cause.message ++ " at line " ++ toString place.1 ++ " column " ++ toString place.2

end DocTree.Json
