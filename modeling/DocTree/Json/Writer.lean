import DocTree.Json.Value

/-!
# Writing JSON

A value as text, in one of two layouts: on a single line without a blank, or with each item of an
array and each member of an object on a line of its own, two blanks deeper than its container. A
container without contents is written as a pair of brackets in both.

Only the quote, the backslash and the controls below the blank are escaped in a string.

The two layouts differ in what stands between lexemes and in nothing else, and a reader skips blanks
there. That is the whole of why both are read back as the same value, and it is how
`Proofs.ReadBack` is organised: a layout enters its proofs only through what `Layout.lineBreak` and
`Layout.colon` put between two lexemes.
-/

set_option autoImplicit false

namespace DocTree.Json

open DocTree.Text

/-! ## Strings

Five controls have a letter, and the others are written with the code point in four digits. -/

def escapeControl (c : Char) : List Char :=
  let digits := hexadecimal c.toNat
  ['\\', 'u', '0', '0'] ++ List.replicate (2 - digits.length) '0' ++ digits

def escapeChar (c : Char) : List Char :=
  if c = '"' then ['\\', '"']
  else if c = '\\' then ['\\', '\\']
  else if c = '\x08' then ['\\', 'b']
  else if c = '\x0c' then ['\\', 'f']
  else if c = '\n' then ['\\', 'n']
  else if c = '\r' then ['\\', 'r']
  else if c = '\t' then ['\\', 't']
  else if c.toNat < 0x20 then escapeControl c
  else [c]

def stringText (s : String) : List Char := '"' :: s.toList.flatMap escapeChar ++ ['"']

/-! ## Values -/

inductive Layout where
  | compact
  | pretty
deriving DecidableEq, Repr

/-- What stands before an item at a depth: nothing, or a new line and its indentation. -/
def Layout.lineBreak : Layout → Nat → List Char
  | .compact, _ => []
  | .pretty, depth => '\n' :: List.replicate (2 * depth) ' '

def Layout.colon : Layout → List Char
  | .compact => [':']
  | .pretty => [':', ' ']

def comma (first : Bool) : List Char := if first then [] else [',']

mutual

def Value.textAt (layout : Layout) (depth : Nat) : Value → List Char
  | .null => "null".toList
  | .bool b => if b then "true".toList else "false".toList
  | .number n => n.text
  | .string s => stringText s
  | .array items =>
    if items.isEmpty then ['[', ']']
    else '[' :: itemsText layout (depth + 1) true items ++ layout.lineBreak depth ++ [']']
  | .object members =>
    if members.isEmpty then ['\x7b', '\x7d']
    else '\x7b' :: membersText layout (depth + 1) true members ++ layout.lineBreak depth ++ ['\x7d']

def itemsText (layout : Layout) (depth : Nat) (first : Bool) : List Value → List Char
  | [] => []
  | item :: rest =>
    comma first ++ layout.lineBreak depth ++ item.textAt layout depth
      ++ itemsText layout depth false rest

def membersText (layout : Layout) (depth : Nat) (first : Bool) :
    List (String × Value) → List Char
  | [] => []
  | (name, value) :: rest =>
    comma first ++ layout.lineBreak depth ++ stringText name ++ layout.colon
      ++ value.textAt layout depth ++ membersText layout depth false rest

end

def Value.text (layout : Layout) (value : Value) : String :=
  String.ofList (value.textAt layout 0)

end DocTree.Json
