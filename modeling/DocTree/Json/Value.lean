import DocTree.Json.Number

/-!
# JSON values

A value keeps the members of an object as they stand in the text, in order and with repeats. Where a
value is kept for its meaning only, `Value.canonical` brings every object in it to one form: the
members ascending by name, and of a repeated name the last.

Two needs meet here. Which of two members of one name counts can only be said if both are there, so
the type does not exclude repeats. And two texts that differ in the order of such members should
have one output, so that order is given up where a value is kept. The canonical form is a value like
any other, and no type says which values are in it.
-/

set_option autoImplicit false

namespace DocTree.Json

/-- A JSON value, with the members of its objects in the order of the text. A name may come twice in
an object, since texts can say so. -/
inductive Value where
  | null
  | bool (b : Bool)
  | number (n : Number)
  | string (s : String)
  | array (items : List Value)
  | object (members : List (String × Value))

abbrev Members := List (String × Value)

/-- Puts a member into members that ascend by name, in place of one of the same name. -/
def Members.insert (name : String) (value : Value) : Members → Members
  | [] => [(name, value)]
  | (other, kept) :: rest =>
    if name = other then (name, value) :: rest
    else if name < other then (name, value) :: (other, kept) :: rest
    else (other, kept) :: Members.insert name value rest

mutual

/-- The value with the members of each object ascending by name and a repeated name kept once,
with its last value. -/
def Value.canonical : Value → Value
  | .array items => .array (canonicalItems items)
  | .object members => .object (canonicalMembers members [])
  | .null => .null
  | .bool b => .bool b
  | .number n => .number n
  | .string s => .string s

def canonicalItems : List Value → List Value
  | [] => []
  | item :: rest => item.canonical :: canonicalItems rest

def canonicalMembers : List (String × Value) → Members → Members
  | [], kept => kept
  | (name, value) :: rest, kept => canonicalMembers rest (kept.insert name value.canonical)

end

end DocTree.Json
