import DocTree.Json.Writer
import DocTree.Kind

/-!
# Records

A record documents one symbol. It comes from a comment as a `RawRecord`, under an identifier that
does not say to which section it belongs; as a `Record` it then takes up what is found out about
it: its links to other records, its address in the source, its final identifier, name and path.

Fields that depend on the kind of symbol (signatures, arguments, …) are not looked into. They are
kept with their names ascending and go into the output as they came.
-/

set_option autoImplicit false

namespace DocTree

open DocTree.Json

/-! ## The two forms of a record

What a comment says and what is found out are kept apart in two types. The first is only ever read;
the second begins as a copy (`Record.ofRaw`), and each later step of the assembly fills in fields of
it. Three of them are empty until then, and stay out of the output while they are: the name, the
path and the counterpart of a bound method. -/

/-- A record as a comment gives it. Its identifier and its section are those that are documented,
and nothing is qualified yet. -/
structure RawRecord where
  id : String
  kind : Kind
  sectionName : Option String
  line : Nat
  description : Option String
  shortDescription : Option String
  aliasOf : Option String
  superclass : Option String
  /-- Whether the method is declared with its instance as an argument. -/
  bound : Bool
  /-- The other fields, names ascending. -/
  extra : Members

/-- A record with what is found out about it. Its identifier changes twice on the way, to the
qualified one and to the final one. -/
structure Record where
  id : String
  kind : Kind
  name : String
  sectionName : Option String
  path : String
  line : Nat
  href : Option String
  description : Option String
  shortDescription : Option String
  aliasOf : Option String
  superclass : Option String
  /-- The identifiers of the records that are aliases of this one. -/
  aliases : List String
  /-- The identifiers of the classes derived from this one; classes only have a list. -/
  subclasses : Option (List String)
  /-- The final identifier of the other one of a bound method and its instance method. -/
  bound : Option String
  /-- The other fields, names ascending. -/
  extra : Members

namespace Record

/-- The record of a comment, with its address. An empty section counts as none. A class begins with
an empty list of derived classes and every other record with no list, which is how a reader of the
output tells them apart. -/
def ofRaw (raw : RawRecord) (href : Option String) : Record where
  id := raw.id
  kind := raw.kind
  name := ""
  sectionName := raw.sectionName.filter fun text => text != ""
  path := ""
  line := raw.line
  href := href
  description := raw.description
  shortDescription := raw.shortDescription
  aliasOf := raw.aliasOf
  superclass := raw.superclass
  aliases := []
  subclasses := if raw.kind = .classKind then some [] else none
  bound := none
  extra := raw.extra

def blank (id : String) (kind : Kind) : Record where
  id := id
  kind := kind
  name := ""
  sectionName := none
  path := ""
  line := 0
  href := none
  description := none
  shortDescription := none
  aliasOf := none
  superclass := none
  aliases := []
  subclasses := none
  bound := none
  extra := []

/-- The section without a name, under which records without a section gather. It is never published;
its children come to the top level. -/
def root : Record := blank "" .sectionKind

def isSection (record : Record) : Bool := record.kind == .sectionKind

/-! ## As JSON

The members come in a fixed order, with the fields that were not looked into behind those that were.
A record that carries a field called `name` or `path` would give its object two members of one name,
and no part of the program prevents that; the theorem on the output names these fields
(`reservedNames`) and assumes them away. -/

def textMember (name text : String) : Members :=
  if text = "" then [] else [(name, .string text)]

def optionMember (name : String) : Option String → Members
  | some text => [(name, .string text)]
  | none => []

def textList (texts : List String) : Value := .array (texts.map Value.string)

def members (record : Record) : Members :=
  [("id", .string record.id), ("type", .string record.kind.name)]
    ++ textMember "name" record.name
    ++ optionMember "section" record.sectionName
    ++ textMember "path" record.path
    ++ [("line", .number (.integer record.line))]
    ++ optionMember "href" record.href
    ++ optionMember "description" record.description
    ++ optionMember "short_description" record.shortDescription
    ++ optionMember "alias_of" record.aliasOf
    ++ optionMember "superclass" record.superclass
    ++ [("aliases", textList record.aliases)]
    ++ (match record.subclasses with
      | some subclasses => [("subclasses", textList subclasses)]
      | none => [])
    ++ optionMember "bound" record.bound
    ++ record.extra

end Record

end DocTree
