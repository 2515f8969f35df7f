import DocTree.Json.Literal

/-!
# Lexemes of a JSON text

What a JSON value begins with: a whole scalar, or the bracket that opens an array or an object. All
readers take the text from its lexemes, so that whatever the expected shape, the scalar is read to
its end before its kind is looked at.

A reader is a function on the text that is left, and returns what is left of it then. There is no
state beside that, and in particular no position; readers compose by the bind of `Except`, and a
proof takes a composed reader apart by the one equivalence `bind_eq_ok_iff`.
-/

set_option autoImplicit false

namespace DocTree.Json

open DocTree.Text

/-- A reader takes something from the front of a text and leaves the rest. It never looks behind, so
what it takes depends on the text from there on only. -/
abbrev Reader (α : Type) := List Char → Except Fault (α × List Char)

/-- The reader that makes something of what another one takes. -/
def Reader.map {α β : Type} (f : α → β) (reader : Reader α) : Reader β := fun text =>
  (reader text).map fun found => (f found.1, found.2)

/-! ## Blanks and words -/

def isBlank (c : Char) : Bool := c == ' ' || c == '\n' || c == '\t' || c == '\r'

def skipBlanks (text : List Char) : List Char := text.dropWhile isBlank

def word : List Char → Reader Unit
  | [], text => .ok ((), text)
  | _ :: _, [] => .error (.atEnd .value)
  | e :: expected, c :: rest =>
    if c = e then word expected rest else .error (.next .expectedWord (c :: rest))

/-! ## Strings

An escape is understood before its characters are passed over: `escape` says what stands there and
how many characters that takes, and the loop skips these. So the loop is a recursion on the text,
one character at a time, also where an escape is twelve characters long. -/

/-- The unit that the next four hexadecimal digits give. Four bytes have to be left at all. -/
def hexUnit (text : List Char) : Except Fault Nat :=
  if byteLength text < 4 then .error (.atEnd .string)
  else
    let digits := text.take 4
    match hexValue? 0 digits with
    | some unit => if digits.length = 4 then .ok unit else .error ⟨.invalidEscape, text, 4⟩
    | none => .error ⟨.invalidEscape, text, 4⟩

def isLeadingUnit (unit : Nat) : Bool := 0xD800 ≤ unit && unit ≤ 0xDBFF

def isTrailingUnit (unit : Nat) : Bool := 0xDC00 ≤ unit && unit ≤ 0xDFFF

def pairedChar (leading trailing : Nat) : Char :=
  Char.ofNat (0x10000 + (leading - 0xD800) * 0x400 + (trailing - 0xDC00))

/-- The second unit of a pair, when the text begins with its escape. -/
def trailingUnit : List Char → Except Fault Nat
  | [] => .error (.atEnd .string)
  | '\\' :: [] => .error (.atEnd .string)
  | '\\' :: 'u' :: rest => do
    let unit ← hexUnit rest
    if isTrailingUnit unit then .ok unit else .error (.here .loneSurrogate (rest.drop 4))
  | '\\' :: rest => .error (.next .unfinishedSurrogates rest)
  | text => .error (.next .unfinishedSurrogates text)

/-- What the digits of a `\u` stand for, and how many characters they take; for a pair, these are
the digits of both units and the two characters between. -/
def codeEscape (text : List Char) : Except Fault (Char × Nat) := do
  let unit ← hexUnit text
  let rest := text.drop 4
  if isTrailingUnit unit then .error (.here .loneSurrogate rest)
  else if isLeadingUnit unit then
    let trailing ← trailingUnit rest
    .ok (pairedChar unit trailing, 10)
  else .ok (Char.ofNat unit, 4)

/-- What a single letter stands for after a backslash. -/
def letterEscape? (c : Char) : Option Char :=
  if c = '"' ∨ c = '\\' ∨ c = '/' then some c
  else if c = 'b' then some '\x08'
  else if c = 'f' then some '\x0c'
  else if c = 'n' then some '\n'
  else if c = 'r' then some '\r'
  else if c = 't' then some '\t'
  else none

def escape : List Char → Except Fault (Char × Nat)
  | [] => .error (.atEnd .string)
  | c :: rest =>
    match letterEscape? c with
    | some meant => .ok (meant, 1)
    | none =>
      if c = 'u' then do
        let (meant, taken) ← codeEscape rest
        .ok (meant, taken + 1)
      else .error (.next .invalidEscape (c :: rest))

/-- Reads a string to its closing quote, after passing over `skip` characters of an escape that is
already understood. -/
def stringAfter : Nat → Reader (List Char)
  | _, [] => .error (.atEnd .string)
  | skip + 1, _ :: rest => stringAfter skip rest
  | 0, c :: rest =>
    if c = '"' then .ok ([], rest)
    else if c = '\\' then do
      let (meant, taken) ← escape rest
      let (cs, after) ← stringAfter taken rest
      .ok (meant :: cs, after)
    else if c.toNat < 0x20 then .error (.next .controlCharacter (c :: rest))
    else do
      let (cs, after) ← stringAfter 0 rest
      .ok (c :: cs, after)

def readString : Reader String := Reader.map String.ofList (stringAfter 0)

/-! ## Lexemes

The fault of a scalar of the wrong kind lies behind it, and that of a container before its bracket,
because the container is not read. -/

/-- A scalar, or the bracket that opens a container. The brackets that close one are looked for
where a container is read. -/
inductive Lexeme where
  | null
  | bool (b : Bool)
  | number (n : Number)
  | string (s : String)
  | openArray
  | openObject
deriving DecidableEq, Repr

def lexeme : Reader Lexeme
  | [] => .error (.atEnd .value)
  | c :: rest =>
    if c = 'n' then Reader.map (fun _ => .null) (word "ull".toList) rest
    else if c = 't' then Reader.map (fun _ => .bool true) (word "rue".toList) rest
    else if c = 'f' then Reader.map (fun _ => .bool false) (word "alse".toList) rest
    else if c = '-' then Reader.map .number (readNumber true) rest
    else if c.isDigit then Reader.map .number (readNumber false) (c :: rest)
    else if c = '"' then Reader.map .string readString rest
    else if c = '[' then .ok (.openArray, rest)
    else if c = '\x7b' then .ok (.openObject, rest)
    else .error (.next .expectedValue (c :: rest))

def Lexeme.found : Lexeme → Found
  | .null => .null
  | .bool b => .bool b
  | .number n => .number n
  | .string s => .string s
  | .openArray => .array
  | .openObject => .object

def Lexeme.opens : Lexeme → Bool
  | .openArray | .openObject => true
  | _ => false

/-- The fault of a lexeme of the wrong kind: after a scalar, and before a bracket. -/
def Lexeme.mismatch (lexeme : Lexeme) (expected : Expected) (start rest : List Char) : Fault :=
  .here (.invalidType lexeme.found expected) (if lexeme.opens then start else rest)

/-- Reads a value of an expected kind that is a single lexeme, `accept` telling what it gives. A
lexeme that is not accepted is a fault of the kind that was expected. -/
def scalar {α : Type} (expected : Expected) (accept : Lexeme → Option α) : Reader α :=
  fun text => do
  let start := skipBlanks text
  let (found, rest) ← lexeme start
  match accept found with
  | some value => .ok (value, rest)
  | none => .error (found.mismatch expected start rest)

end DocTree.Json
