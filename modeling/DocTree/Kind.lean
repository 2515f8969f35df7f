import DocTree.Json.Reader

/-!
# Kinds of documented symbols

The kind of a record says what it documents. Comments give the coarse kinds; a method or a prototype
member is told apart further, by the side of its type that it lives on, once its final identifier is
known. A kind that is not known is no fault: it is read as `unknown`.

So there are two sets of names in one type. The coarse names are what an author writes; the fine
ones (`class method`, `instance prototype`, …) are what is published, and they are accepted from an
author as well. `property` is the one name that is read and never written.
-/

set_option autoImplicit false

namespace DocTree

open DocTree.Json

/-! ## The kinds -/

inductive Kind where
  | sectionKind
  | namespaceKind
  | classKind
  | mixin
  | constructor
  | method
  | prototype
  | constant
  | event
  | utility
  | classMethod
  | instanceMethod
  | classPrototype
  | instancePrototype
  | unknown
deriving DecidableEq, Repr

inductive Side where
  | onClass
  | onInstance
deriving DecidableEq, Repr

namespace Kind

def name : Kind → String
  | .sectionKind => "section"
  | .namespaceKind => "namespace"
  | .classKind => "class"
  | .mixin => "mixin"
  | .constructor => "constructor"
  | .method => "method"
  | .prototype => "prototype"
  | .constant => "constant"
  | .event => "event"
  | .utility => "utility"
  | .classMethod => "class method"
  | .instanceMethod => "instance method"
  | .classPrototype => "class prototype"
  | .instancePrototype => "instance prototype"
  | .unknown => "unknown"

def known : List Kind :=
  [.sectionKind, .namespaceKind, .classKind, .mixin, .constructor, .method, .prototype, .constant,
   .event, .utility, .classMethod, .instanceMethod, .classPrototype, .instancePrototype]

/-- The kind of a name. A property is another word for a prototype member, and whatever is no name
at all stands for the unknown kind, so this is total. -/
def ofName (text : String) : Kind :=
  if text = "property" then .prototype
  else (known.find? fun kind => kind.name == text).getD .unknown

/-- Whether the kind is still to be told apart by the form of the identifier. A record is a member
of a type or of its instances, which the comment does not say. -/
def isMember (kind : Kind) : Bool := kind == .method || kind == .prototype

/-- A member kind told apart by its side; any other kind as it is. That an identifier is one of an
event or a utility is asked before this (`Record.memberKind`). -/
def onSide : Kind → Side → Kind
  | .method, .onClass => .classMethod
  | .method, .onInstance => .instanceMethod
  | .prototype, .onClass => .classPrototype
  | .prototype, .onInstance => .instancePrototype
  | kind, _ => kind

/-! ## Reading

A kind may also be given as an object with one member and a null in it. That is the form in which a
variant with contents would be written, and a variant without any is accepted in it too. -/

/-- Reads a kind: its name, or an object whose single member has that name and no value. -/
def reader : Reader Kind := fun text =>
  match skipBlanks text with
  | [] => .error (.atEnd .value)
  | '"' :: rest => do
    let (text, rest) ← readString rest
    .ok (ofName text, rest)
  | '\x7b' :: rest =>
    match skipBlanks rest with
    | [] => .error (.atEnd .object)
    | '"' :: rest => do
      let (text, rest) ← readString rest
      let (_, rest) ← colon rest
      let (_, rest) ← scalar .nothing (fun | .null => some () | _ => none) rest
      match skipBlanks rest with
      | [] => .error (.atEnd .object)
      | '\x7d' :: rest => .ok (ofName text, rest)
      | start => .error (.here .expectedValue start)
    | '\x7d' :: rest => .error (.next .expectedValue ('\x7d' :: rest))
    | start => .error (.next .keyMustBeString start)
  | start => .error (.next .expectedValue start)

def read (text : String) : Except Fault Kind := whole reader text

end Kind

end DocTree
