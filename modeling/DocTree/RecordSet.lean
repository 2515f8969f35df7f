import DocTree.Catalog
import DocTree.Record

/-!
# Record sets

The records of one file, as a JSON object whose members are records under their identifiers:

    {"Ajax": {"type": "namespace", "section": "Utilities", "line": 3}}

Reading is one pass from left to right: the first fault wins, whether the text breaks the grammar or
only the shape of a record. The fields that a record has of its own may stand in it once each and
have one kind of value each; any other field is taken as it is.

The pass is typed from the start. A number in the place of a text is refused where it stands, and
not after the value has been read, so the position in a message is that of the first character that
cannot be right. `Proofs.TypedReading` compares this with reading a value first and decoding it
then: the two accept the same texts and give the same records, and it is only in the fault that they
differ.
-/

set_option autoImplicit false

namespace DocTree

open DocTree.Json

/-! ## Fields

The names of the fields are data, so that the reader has one case for all of them and a name that
comes twice is found by one test. -/

inductive Field where
  | id
  | kind
  | sectionName
  | line
  | description
  | shortDescription
  | aliasOf
  | superclass
  | bound
deriving DecidableEq, Repr

def Field.name : Field → String
  | .id => "id"
  | .kind => "type"
  | .sectionName => "section"
  | .line => "line"
  | .description => "description"
  | .shortDescription => "short_description"
  | .aliasOf => "alias_of"
  | .superclass => "superclass"
  | .bound => "bound"

def Field.all : List Field :=
  [.id, .kind, .sectionName, .line, .description, .shortDescription, .aliasOf, .superclass, .bound]

def Field.ofName? (text : String) : Option Field := Field.all.find? fun field => field.name == text

/-! ## The values of fields

There are five kinds of them: a text, a text or null, a flag, the number of a line, and the kind of
the record, which has a reader of its own (`Kind.reader`). -/

def readText : Reader String :=
  scalar .string fun
    | .string s => some s
    | _ => none

def readOptionalText : Reader (Option String) :=
  scalar .string fun
    | .string s => some (some s)
    | .null => some none
    | _ => none

def readFlag : Reader Bool :=
  scalar .flag fun
    | .bool b => some b
    | _ => none

/-- Reads the number of a line. A negative integer has the right type and is refused for its
value. -/
def readLine : Reader Nat := fun text => do
  let (n, rest) ← scalar .lineNumber (fun | .number (.integer n) => some n | _ => none) text
  if n < 0 then .error (.here (.invalidValue (.number (.integer n)) .lineNumber) rest)
  else .ok (n.toNat, rest)

/-! ## Records

A record is read into a draft, in which every field is there or not yet. Whether a field came
already and whether the kind came at all are then questions to the draft, and defaults are filled in
once, at the end. -/

structure Draft where
  id : Option String
  kind : Option Kind
  sectionName : Option (Option String)
  line : Option Nat
  description : Option (Option String)
  shortDescription : Option (Option String)
  aliasOf : Option (Option String)
  superclass : Option (Option String)
  bound : Option Bool
  extra : Members

namespace Draft

def empty : Draft := ⟨none, none, none, none, none, none, none, none, none, []⟩

def has (draft : Draft) : Field → Bool
  | .id => draft.id.isSome
  | .kind => draft.kind.isSome
  | .sectionName => draft.sectionName.isSome
  | .line => draft.line.isSome
  | .description => draft.description.isSome
  | .shortDescription => draft.shortDescription.isSome
  | .aliasOf => draft.aliasOf.isSome
  | .superclass => draft.superclass.isSome
  | .bound => draft.bound.isSome

def readField (draft : Draft) : Field → Reader Draft
  | .id => readText.map fun value => { draft with id := some value }
  | .kind => Kind.reader.map fun value => { draft with kind := some value }
  | .sectionName => readOptionalText.map fun value => { draft with sectionName := some value }
  | .line => readLine.map fun value => { draft with line := some value }
  | .description => readOptionalText.map fun value => { draft with description := some value }
  | .shortDescription =>
    readOptionalText.map fun value => { draft with shortDescription := some value }
  | .aliasOf => readOptionalText.map fun value => { draft with aliasOf := some value }
  | .superclass => readOptionalText.map fun value => { draft with superclass := some value }
  | .bound => readFlag.map fun value => { draft with bound := some value }

/-- The number of containers that may lie inside one another in another field: those of the set
and of the record itself are open around it. -/
def deepestExtra : Nat := deepest - 2

/-- Where a field that comes a second time is reported: after its name, or after the brace that
closes the record right there. -/
def afterRepeat (text : List Char) : List Char :=
  match skipBlanks text with
  | '\x7d' :: rest => rest
  | start => start

def step : MemberStep Draft := fun draft name text =>
  match Field.ofName? name with
  | some field =>
    if draft.has field then .error (.here (.duplicateField name) (afterRepeat text))
    else do
      let (_, rest) ← colon text
      draft.readField field rest
  | none => do
    let (_, rest) ← colon text
    let (value, rest) ← readValue deepestExtra rest
    .ok ({ draft with extra := draft.extra.insert name value.canonical }, rest)

/-- The record, if its kind was given. What was not given is empty, zero or absent. The kind is the
one field without a default, so a record that says nothing at all is a fault. -/
def finish? (draft : Draft) : Option RawRecord :=
  draft.kind.map fun kind =>
    { id := draft.id.getD ""
      kind := kind
      sectionName := draft.sectionName.getD none
      line := draft.line.getD 0
      description := draft.description.getD none
      shortDescription := draft.shortDescription.getD none
      aliasOf := draft.aliasOf.getD none
      superclass := draft.superclass.getD none
      bound := draft.bound.getD false
      extra := draft.extra }

end Draft

def RawRecord.reader : Reader RawRecord := fun text => do
  let (draft, rest) ← readObject .record Draft.step Draft.empty text
  match draft.finish? with
  | some raw => .ok (raw, rest)
  | none => .error (.here (.missingField Field.kind.name) rest)

/-! ## Sets -/

abbrev RecordSet := Catalog RawRecord

namespace RecordSet

/-- The record with the given identifier in place of an empty one, which is also what a record
without one has. -/
def withDefaultId (key : String) (raw : RawRecord) : RawRecord :=
  if raw.id = "" then { raw with id := key } else raw

/-- Reads a member of a record set after its name. A later record of the same name takes the place
of the earlier one. -/
def step : MemberStep RecordSet := fun records key text => do
  let (_, rest) ← colon text
  let (raw, rest) ← RawRecord.reader rest
  .ok (records.insert key (withDefaultId key raw), rest)

def reader : Reader RecordSet := readObject .recordSet step Catalog.empty

def read (text : String) : Except Fault RecordSet := whole reader text

end RecordSet

end DocTree
