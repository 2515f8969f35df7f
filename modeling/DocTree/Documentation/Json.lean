import DocTree.Documentation.Basic

/-!
# Documentation as JSON

The documentation as one object: `list` has every record that is no section under its identifier,
and `tree` the top-level records, each with the records below it inside. A record in the list refers
to the records below it by their keys.

A listed record is thus written twice, but the two copies differ in one member only, `children`.
They are made by one function, `recordValue`, with the children as an argument, and whatever is said
of the object of a record holds for both. The nested copy is made from `Documentation.trees`, by
recursion on the tree, so writing it needs no bound.
-/

set_option autoImplicit false

namespace DocTree

open DocTree.Json

namespace Documentation

/-- The members of a node's record with the given children last. In the list these are names, and in
the tree they are objects. -/
def recordValue (doc : Documentation) (n : Nat) (children : List Value) : Value :=
  match doc.record? n with
  | some record => .object (record.members ++ [("children", .array children)])
  | none => .null

def childKeys (doc : Documentation) (n : Nat) : List String :=
  (doc.children n).filterMap fun c => doc.nodes[c]?.map Node.key

def listValue (doc : Documentation) (n : Nat) : Value :=
  doc.recordValue n ((doc.childKeys n).map Value.string)

mutual

def treeValue (doc : Documentation) : Tree → Value
  | .node n children => doc.recordValue n (treeValues doc children)

def treeValues (doc : Documentation) : List Tree → List Value
  | [] => []
  | tree :: rest => treeValue doc tree :: treeValues doc rest

end

def value (doc : Documentation) : Value :=
  .object
    [("list", .object (doc.list.entries.map fun entry => (entry.1, doc.listValue entry.2))),
     ("tree", .object [("children", .array (treeValues doc doc.trees))])]

/-- The documentation as JSON text, with a line end. The line end belongs to the text, not to the
program that prints it. -/
def json (layout : Layout) (doc : Documentation) : String := doc.value.text layout ++ "\n"

end Documentation

end DocTree
