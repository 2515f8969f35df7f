import DocTree.Proofs.ReadRecords
import DocTree.Proofs.TypedReading

/-!
# Record sets decoded from values

Which texts hold a record set, and which one, said of the value that stands in the text: an object
whose members are all records, each of them an object that has no field of its own twice and a value
of the right type in each that it has. The proof goes through decoding functions, which the readers
agree with (`Reader.Decodes`); what a run over members has put into a draft or a set is then an
invariant of one more member (`Members.run_induction`).

There are thus three descriptions of the same thing. The readers go over the text once, check every
field as they meet it, and never have the value of the whole. The decoding functions take a value
that has been read before; they fold over its members in the same order and fail at the same ones.
The statement, finally, has no order in it: it says of a record and a list of members whether they
belong together, field by field.

From readers to functions one goes reader by reader (`readField_decodes`, `reader_decodes`,
`step_decodes`), with nothing but the rules for readers. From functions to the statement there are
two directions. What a run gives satisfies the statement, by induction on the members from the right
(`Draft.Holds`); an invariant of the members so far is needed because a repeated field, or a later
member of the same name, concerns those before it. Conversely members of which the statement speaks
are such that the run goes through, and since they say one record only (`DecodesFrom.unique`), it
gives the right one. So the second direction never looks at what a run computes.
-/

set_option autoImplicit false

namespace DocTree

open DocTree.Json

/-! ## The statement

Everything that a text has to have is written out here once more: the names of the fields, the words
for the kinds, and which record stands under a key. None of the helpers of the reader is used in it,
so a reader that kept a field under another name, or left an empty identifier as it is, would not
have this property. Two notions are shared with the reader on purpose. The grammar of values is
`Value.read`, which is taken as given, and `Value.canonical` is the form in which an object is kept
that is not looked into. -/

def RawRecord.ownFields : List (String × Field) :=
  [("id", .id), ("type", .kind), ("section", .sectionName), ("line", .line),
   ("description", .description), ("short_description", .shortDescription),
   ("alias_of", .aliasOf), ("superclass", .superclass), ("bound", .bound)]

/-- The words for the kinds. Only one kind has two of them: a property is a prototype member.
`unknown` is no word, and it need not be one, since any text that is none stands for that kind. -/
def Kind.words : List (String × Kind) :=
  [("section", .sectionKind), ("namespace", .namespaceKind), ("class", .classKind),
   ("mixin", .mixin), ("constructor", .constructor), ("method", .method),
   ("prototype", .prototype), ("property", .prototype), ("constant", .constant),
   ("event", .event), ("utility", .utility), ("class method", .classMethod),
   ("instance method", .instanceMethod), ("class prototype", .classPrototype),
   ("instance prototype", .instancePrototype)]

def Kind.NamedBy (kind : Kind) (text : String) : Prop :=
  (text, kind) ∈ words ∨ kind = .unknown ∧ text ∉ words.map Prod.fst

def Json.Value.ofOptionalText : Option String → Value
  | some s => .string s
  | none => .null

/-- What stands in a field that the record has of its own. A null is the absence of a text, but not
of a line or a flag. -/
def Field.Gives (raw : RawRecord) : Field → Value → Prop
  | .id, value => value = .string raw.id
  | .kind, value =>
    ∃ text, raw.kind.NamedBy text ∧ (value = .string text ∨ value = .object [(text, .null)])
  | .sectionName, value => value = Value.ofOptionalText raw.sectionName
  | .line, value => value = .number (.integer raw.line)
  | .description, value => value = Value.ofOptionalText raw.description
  | .shortDescription, value => value = Value.ofOptionalText raw.shortDescription
  | .aliasOf, value => value = Value.ofOptionalText raw.aliasOf
  | .superclass, value => value = Value.ofOptionalText raw.superclass
  | .bound, value => value = .bool raw.bound

/-- What the record is like without the field: empty, zero, absent or unset. The kind cannot be
missing, so without it there is no record at all. -/
def Field.Omitted (raw : RawRecord) : Field → Prop
  | .id => raw.id = ""
  | .kind => False
  | .sectionName => raw.sectionName = none
  | .line => raw.line = 0
  | .description => raw.description = none
  | .shortDescription => raw.shortDescription = none
  | .aliasOf => raw.aliasOf = none
  | .superclass => raw.superclass = none
  | .bound => raw.bound = false

/-- The record that the members of an object say. A field of its own may come once only, and then
with a value of its type. Of any other name it is the last value that counts, and the record keeps
these in the order of their names. -/
structure RawRecord.DecodesFrom (raw : RawRecord) (members : Members) : Prop where
  once : ∀ name field, (name, field) ∈ ownFields → (members.map Prod.fst).count name ≤ 1
  given : ∀ name field, (name, field) ∈ ownFields →
    ∀ value, (name, value) ∈ members → field.Gives raw value
  omitted : ∀ name field, (name, field) ∈ ownFields →
    name ∉ members.map Prod.fst → field.Omitted raw
  ascending : raw.extra.Ascending
  mem_extra : ∀ (name : String) (value : Value), (name, value) ∈ raw.extra ↔
    name ∉ ownFields.map Prod.fst ∧
      ∃ last, Catalog.lastValue name members = some last ∧ value = last.canonical

/-- The record set that the members of an object say. A member that a later one replaces is a record
all the same. What the set has under a key is the record of its last member, whose identifier is the
key if it is missing or empty. -/
structure RecordSet.DecodesFrom (records : RecordSet) (members : Members) : Prop where
  every : ∀ member ∈ members, ∃ fields raw, member.2 = .object fields ∧
    RawRecord.DecodesFrom raw fields
  keys : records.keys = (members.map Prod.fst).eraseDups
  get? : ∀ (key : String) (fields : Members),
    Catalog.lastValue key members = some (.object fields) →
      ∃ raw, RawRecord.DecodesFrom raw fields ∧
        Catalog.get? records key = some { raw with id := if raw.id = "" then key else raw.id }

/-! ## Fields and kinds by name

The reader looks names up, in a list of fields and in a list of kinds. The tables above are related
to these lookups here, and the proofs below use the lookups only. That a table and a lookup agree is
checked over the entries, of which there are a few; that nothing else is found needs an argument, as
it is about all other texts. -/

namespace Field

theorem ofName?_name (field : Field) : ofName? field.name = some field := by
  cases field <;> decide

theorem name_of_ofName? {name : String} {field : Field} (h : ofName? name = some field) :
    field.name = name := by
  have found := List.find?_some h
  exact beq_iff_eq.1 found

theorem name_inj {field other : Field} (h : field.name = other.name) : field = other := by
  have hname := ofName?_name field
  rw [h, ofName?_name other] at hname
  exact (Option.some.inj hname).symm

theorem name_mem_ownFields (field : Field) : (field.name, field) ∈ RawRecord.ownFields := by
  cases field <;> decide

theorem name_of_mem_ownFields {name : String} {field : Field}
    (h : (name, field) ∈ RawRecord.ownFields) : field.name = name := by
  have table : ∀ entry ∈ RawRecord.ownFields, entry.2.name = entry.1 := by decide
  exact table _ h

theorem not_mem_ownFields_iff {name : String} :
    name ∉ RawRecord.ownFields.map Prod.fst ↔ ofName? name = none := by
  rw [Option.eq_none_iff_forall_ne_some]
  constructor
  · intro h field found
    apply h
    rw [← name_of_ofName? found]
    exact List.mem_map_of_mem (name_mem_ownFields field)
  · intro h hm
    obtain ⟨⟨own, field⟩, hentry, rfl⟩ := List.mem_map.1 hm
    apply h field
    rw [← name_of_mem_ownFields hentry]
    exact ofName?_name field

end Field

namespace Kind

theorem ofName_of_mem_words {text : String} {kind : Kind} (h : (text, kind) ∈ words) :
    ofName text = kind := by
  have table : ∀ word ∈ words, ofName word.1 = word.2 := by decide
  exact table _ h

theorem ofName_of_not_mem_words {text : String} (h : text ∉ words.map Prod.fst) :
    ofName text = .unknown := by
  have named : ∀ kind ∈ known, kind.name ∈ words.map Prod.fst := by decide
  have property : "property" ∈ words.map Prod.fst := by decide
  have different : text ≠ "property" := by
    rintro rfl
    exact h property
  have nothing : known.find? (fun kind => kind.name == text) = none := by
    rw [List.find?_eq_none]
    intro kind hkind same
    exact h (beq_iff_eq.1 same ▸ named kind hkind)
  rw [ofName, if_neg different, nothing, Option.getD_none]

/-- **Looking a kind up** is finding the kind for which the text stands. The words are distinct, and
so at most one kind is named by a text, and there is always one. -/
theorem namedBy_iff {kind : Kind} {text : String} : kind.NamedBy text ↔ ofName text = kind := by
  constructor
  · rintro (h | ⟨rfl, h⟩)
    · exact ofName_of_mem_words h
    · exact ofName_of_not_mem_words h
  · rintro rfl
    by_cases h : text ∈ words.map Prod.fst
    · obtain ⟨⟨word, kind⟩, hword, rfl⟩ := List.mem_map.1 h
      exact Or.inl (ofName_of_mem_words hword ▸ hword)
    · exact Or.inr ⟨ofName_of_not_mem_words h, h⟩

end Kind

namespace Field

/-! ## At most one record

Two records with the same members agree in each field: either the members give it, or they omit it
in both. The fields of a record are not a family in the program, so agreement in a field is a case
distinction (`Same`), and it is put together once, at the end. -/

def Same (raw other : RawRecord) : Field → Prop
  | .id => raw.id = other.id
  | .kind => raw.kind = other.kind
  | .sectionName => raw.sectionName = other.sectionName
  | .line => raw.line = other.line
  | .description => raw.description = other.description
  | .shortDescription => raw.shortDescription = other.shortDescription
  | .aliasOf => raw.aliasOf = other.aliasOf
  | .superclass => raw.superclass = other.superclass
  | .bound => raw.bound = other.bound

theorem ofOptionalText_inj {text other : Option String}
    (h : Value.ofOptionalText text = Value.ofOptionalText other) : text = other := by
  cases text <;> cases other <;> cases h <;> rfl

theorem Gives.same {raw other : RawRecord} {field : Field} {value : Value}
    (h : field.Gives raw value) (h' : field.Gives other value) : field.Same raw other := by
  cases field with
  | id => exact Value.string.inj (h.symm.trans h')
  | kind =>
    obtain ⟨text, hkind, hvalue⟩ := h
    obtain ⟨text', hkind', hvalue'⟩ := h'
    have htext : text = text' := by
      rcases hvalue with rfl | rfl <;> rcases hvalue' with he | he <;> cases he <;> rfl
    rw [Kind.namedBy_iff] at hkind hkind'
    exact hkind.symm.trans (htext ▸ hkind')
  | line => exact Int.ofNat.inj (Number.integer.inj (Value.number.inj (h.symm.trans h')))
  | bound => exact Value.bool.inj (h.symm.trans h')
  | _ => exact ofOptionalText_inj (h.symm.trans h')

theorem Omitted.same {raw other : RawRecord} {field : Field} (h : field.Omitted raw)
    (h' : field.Omitted other) : field.Same raw other := by
  cases field with
  | kind => cases h
  | _ => exact Eq.trans h (Eq.symm h')

end Field

theorem Json.Members.Ascending.eq_of_mem_iff {members other : Members} (h : members.Ascending)
    (h' : other.Ascending)
    (same : ∀ (name : String) (value : Value), (name, value) ∈ members ↔ (name, value) ∈ other) :
    members = other := by
  have distinct : ∀ {members : Members}, members.Ascending → members.Nodup := by
    intro members ascending
    exact List.Nodup.of_map Prod.fst (List.Pairwise.imp ne_of_lt ascending)
  have sorted : ∀ {members : Members}, members.Ascending →
      members.Pairwise fun a b => a.1 < b.1 := fun ascending => List.pairwise_map.1 ascending
  have perm : members.Perm other := by
    rw [List.perm_ext_iff_of_nodup (distinct h) (distinct h')]
    intro member
    exact same member.1 member.2
  apply List.Perm.eq_of_pairwise _ (sorted h) (sorted h') perm
  intro a b _ _ hab hba
  exact absurd hba (lt_asymm hab)

/-- **The members say one record only.** What is given determines a field and so does its absence,
and the further members are determined by what is in them since they ascend. -/
theorem RawRecord.DecodesFrom.unique {raw other : RawRecord} {members : Members}
    (h : raw.DecodesFrom members) (h' : other.DecodesFrom members) : raw = other := by
  have same : ∀ field : Field, field.Same raw other := by
    intro field
    have own := field.name_mem_ownFields
    by_cases hm : field.name ∈ members.map Prod.fst
    · obtain ⟨member, hmem, hname⟩ := List.mem_map.1 hm
      have hmem' : (field.name, member.2) ∈ members := by
        rw [← hname]
        exact hmem
      exact (h.given _ field own _ hmem').same (h'.given _ field own _ hmem')
    · exact (h.omitted _ field own hm).same (h'.omitted _ field own hm)
  have extra : raw.extra = other.extra := by
    apply Members.Ascending.eq_of_mem_iff h.ascending h'.ascending
    intro name value
    rw [h.mem_extra, h'.mem_extra]
  obtain ⟨id, kind, sectionName, line, description, shortDescription, aliasOf, superclass, bound,
    extras⟩ := raw
  obtain rfl := same .id
  obtain rfl := same .kind
  obtain rfl := same .sectionName
  obtain rfl := same .line
  obtain rfl := same .description
  obtain rfl := same .shortDescription
  obtain rfl := same .aliasOf
  obtain rfl := same .superclass
  obtain rfl := same .bound
  obtain rfl := extra
  rfl

/-! ## Decoding a field

What a field makes of a value, for the types that fields have. Each reader agrees with its function
on scalars by going through the kinds of values; of these only the line asks for more than the kind,
since it has to be a natural number. -/

namespace Json.Value

def text? : Value → Option String
  | .string s => some s
  | _ => none

def optionalText? : Value → Option (Option String)
  | .string s => some (some s)
  | .null => some none
  | _ => none

def flag? : Value → Option Bool
  | .bool b => some b
  | _ => none

def lineNumber? : Value → Option Nat
  | .number (.integer n) => if n < 0 then none else some n.toNat
  | _ => none

theorem text?_eq_some_iff {value : Value} {s : String} :
    value.text? = some s ↔ value = .string s := by
  cases value <;> simp [text?]

theorem optionalText?_eq_some_iff {value : Value} {text : Option String} :
    value.optionalText? = some text ↔ value = ofOptionalText text := by
  cases value <;> cases text <;> simp [optionalText?, ofOptionalText]

theorem flag?_eq_some_iff {value : Value} {b : Bool} :
    value.flag? = some b ↔ value = .bool b := by
  cases value <;> simp [flag?]

theorem lineNumber?_eq_some_iff {value : Value} {line : Nat} :
    value.lineNumber? = some line ↔ value = .number (.integer line) := by
  unfold lineNumber?
  split
  case h_1 n =>
    rw [Value.number.injEq, Number.integer.injEq]
    split
    case isTrue negative =>
      constructor
      · intro h
        cases h
      · rintro rfl
        omega
    case isFalse natural =>
      rw [Option.some.injEq]
      omega
  case h_2 other =>
    constructor
    · intro h
      cases h
    · intro h
      exact absurd h (other _)

end Json.Value

theorem Kind.ofValue?_eq_some_iff {value : Value} {kind : Kind} :
    Kind.ofValue? value = some kind ↔
      ∃ text, kind.NamedBy text ∧ (value = .string text ∨ value = .object [(text, .null)]) := by
  simp only [namedBy_iff]
  constructor
  · intro h
    unfold ofValue? at h
    split at h
    · exact ⟨_, Option.some.inj h, Or.inl rfl⟩
    · exact ⟨_, Option.some.inj h, Or.inr rfl⟩
    · cases h
  · rintro ⟨text, rfl, rfl | rfl⟩
    · rfl
    · rfl

theorem readText_decodes (depth : Nat) : readText.Decodes (readValue depth) Value.text? := by
  apply (scalar_decodes _ rfl rfl depth).congr
  intro value
  cases value <;> rfl

theorem readOptionalText_decodes (depth : Nat) :
    readOptionalText.Decodes (readValue depth) Value.optionalText? := by
  apply (scalar_decodes _ rfl rfl depth).congr
  intro value
  cases value <;> rfl

theorem readFlag_decodes (depth : Nat) : readFlag.Decodes (readValue depth) Value.flag? := by
  apply (scalar_decodes _ rfl rfl depth).congr
  intro value
  cases value <;> rfl

theorem readLine_decodes (depth : Nat) :
    readLine.Decodes (readValue depth) Value.lineNumber? := by
  intro text line rest
  constructor
  · intro h
    obtain ⟨⟨n, after⟩, hscalar, h⟩ := bind_eq_ok_iff.1 h
    obtain ⟨value, hvalue, hdecode⟩ := (scalar_decodes _ rfl rfl depth _ _ _).1 hscalar
    dsimp only at h
    split at h
    · cases h
    case isFalse natural =>
      cases h
      refine ⟨value, hvalue, ?_⟩
      obtain ⟨taken, htaken, haccept⟩ := Option.bind_eq_some_iff.1 hdecode
      split at haccept
      · cases haccept
        cases value <;> cases htaken
        exact if_neg natural
      · cases haccept
  · rintro ⟨value, hvalue, hdecode⟩
    unfold Value.lineNumber? at hdecode
    split at hdecode
    · split at hdecode
      · cases hdecode
      case isFalse natural =>
        cases hdecode
        refine bind_eq_ok_iff.2 ⟨_, (scalar_decodes _ rfl rfl depth _ _ _).2 ⟨_, hvalue, rfl⟩, ?_⟩
        exact if_neg natural
    · cases hdecode

/-! ## Decoding a record

A draft takes members one by one and fails at the first that it cannot take. A name of no field is
never refused, and its value is kept in canonical form, as the reader keeps it. -/

namespace Draft

def putField (draft : Draft) : Field → Value → Option Draft
  | .id, value => value.text?.map fun text => { draft with id := some text }
  | .kind, value => (Kind.ofValue? value).map fun kind => { draft with kind := some kind }
  | .sectionName, value =>
    value.optionalText?.map fun text => { draft with sectionName := some text }
  | .line, value => value.lineNumber?.map fun line => { draft with line := some line }
  | .description, value =>
    value.optionalText?.map fun text => { draft with description := some text }
  | .shortDescription, value =>
    value.optionalText?.map fun text => { draft with shortDescription := some text }
  | .aliasOf, value => value.optionalText?.map fun text => { draft with aliasOf := some text }
  | .superclass, value => value.optionalText?.map fun text => { draft with superclass := some text }
  | .bound, value => value.flag?.map fun flag => { draft with bound := some flag }

/-- Puts a member into a draft, unless it is a field that is there already. That it is there is all
that matters, not what its value was. -/
def put (draft : Draft) (member : String × Value) : Option Draft :=
  match Field.ofName? member.1 with
  | some field => if draft.has field then none else draft.putField field member.2
  | none => some { draft with extra := draft.extra.insert member.1 member.2.canonical }

theorem readField_decodes (draft : Draft) (field : Field) (depth : Nat) :
    (draft.readField field).Decodes (readValue (depth + 1)) (draft.putField field) := by
  cases field <;> rw [readField]
  case id => exact ((readText_decodes _).map _).congr fun _ => rfl
  case kind => exact ((Kind.reader_decodes _).map _).congr fun _ => rfl
  case line => exact ((readLine_decodes _).map _).congr fun _ => rfl
  case bound => exact ((readFlag_decodes _).map _).congr fun _ => rfl
  all_goals exact ((readOptionalText_decodes _).map _).congr fun _ => rfl

/-- **A member is read into a draft** by reading its value and putting that in. A field of its own
reads only values of its type, so the two differ in where they fail and not in whether they do. -/
theorem step_decodes : MemberStep.Decodes Draft.step (readValue deepestExtra) put := by
  apply MemberStep.decodes_of
  intro draft name text found rest
  cases hname : Field.ofName? name with
  | some field =>
    by_cases twice : draft.has field = true
    · simp [step, put, hname, twice]
    · simp only [step, put, hname, if_neg twice]
      constructor
      · intro h
        obtain ⟨⟨_, after⟩, hcolon, hread⟩ := bind_eq_ok_iff.1 h
        obtain ⟨value, hvalue, hput⟩ := (readField_decodes draft field _ _ _ _).1 hread
        exact ⟨value, after, hcolon, hvalue, hput⟩
      · rintro ⟨value, after, hcolon, hvalue, hput⟩
        have hread := (readField_decodes draft field _ _ _ _).2 ⟨value, hvalue, hput⟩
        exact bind_eq_ok_iff.2 ⟨((), after), hcolon, hread⟩
  | none =>
    simp only [step, put, hname]
    constructor
    · intro h
      obtain ⟨⟨_, after⟩, hcolon, hread⟩ := bind_eq_ok_iff.1 h
      obtain ⟨⟨value, behind⟩, hvalue, hread⟩ := bind_eq_ok_iff.1 hread
      cases hread
      exact ⟨value, after, hcolon, hvalue, rfl⟩
    · rintro ⟨value, after, hcolon, hvalue, hput⟩
      cases hput
      exact bind_eq_ok_iff.2 ⟨((), after), hcolon, bind_eq_ok_iff.2 ⟨(value, rest), hvalue, rfl⟩⟩

end Draft

def RawRecord.ofValue? (value : Value) : Option RawRecord :=
  value.members?.bind fun members => (members.foldlM Draft.put Draft.empty).bind Draft.finish?

theorem RawRecord.reader_decodes :
    Reader.Decodes RawRecord.reader (readValue (Draft.deepestExtra + 1)) RawRecord.ofValue? := by
  have draft := readObject_decodes Draft.step_decodes .record Draft.empty
  intro text raw rest
  constructor
  · intro h
    obtain ⟨⟨found, after⟩, hread, h⟩ := bind_eq_ok_iff.1 h
    obtain ⟨value, hvalue, hdraft⟩ := (draft _ _ _).1 hread
    dsimp only at h
    split at h
    case h_1 hfinish =>
      cases h
      obtain ⟨members, hmembers, hfold⟩ := Option.bind_eq_some_iff.1 hdraft
      refine ⟨value, hvalue, Option.bind_eq_some_iff.2 ⟨members, hmembers, ?_⟩⟩
      exact Option.bind_eq_some_iff.2 ⟨found, hfold, hfinish⟩
    case h_2 => cases h
  · rintro ⟨value, hvalue, hraw⟩
    obtain ⟨members, hmembers, hraw⟩ := Option.bind_eq_some_iff.1 hraw
    obtain ⟨found, hfold, hfinish⟩ := Option.bind_eq_some_iff.1 hraw
    have hread := (draft text found rest).2
      ⟨value, hvalue, Option.bind_eq_some_iff.2 ⟨members, hmembers, hfold⟩⟩
    refine bind_eq_ok_iff.2 ⟨(found, rest), hread, ?_⟩
    simp only [hfinish]

/-! ## Decoding a set

The same once more, one level up: a member of the outer object is a record under its name. -/

namespace RecordSet

/-- Puts a record into a set, under its name and with that for its identifier if it has none. -/
def put (records : RecordSet) (member : String × Value) : Option RecordSet :=
  (RawRecord.ofValue? member.2).map fun raw =>
    records.insert member.1 (withDefaultId member.1 raw)

def ofValue? (value : Value) : Option RecordSet :=
  value.members?.bind fun members => members.foldlM put Catalog.empty

theorem step_decodes :
    MemberStep.Decodes RecordSet.step (readValue (Draft.deepestExtra + 1)) put := by
  apply MemberStep.decodes_of
  intro records key text found rest
  constructor
  · intro h
    obtain ⟨⟨_, after⟩, hcolon, h⟩ := bind_eq_ok_iff.1 h
    obtain ⟨⟨raw, behind⟩, hread, h⟩ := bind_eq_ok_iff.1 h
    cases h
    obtain ⟨value, hvalue, hraw⟩ := (RawRecord.reader_decodes _ _ _).1 hread
    exact ⟨value, after, hcolon, hvalue, Option.map_eq_some_iff.2 ⟨raw, hraw, rfl⟩⟩
  · rintro ⟨value, after, hcolon, hvalue, hput⟩
    obtain ⟨raw, hraw, rfl⟩ := Option.map_eq_some_iff.1 hput
    have hread := (RawRecord.reader_decodes _ _ _).2 ⟨value, hvalue, hraw⟩
    exact bind_eq_ok_iff.2 ⟨((), after), hcolon, bind_eq_ok_iff.2 ⟨(raw, rest), hread, rfl⟩⟩

/-- **One pass over the text is reading a value and decoding it.** The one pass never has the whole
value in hand, and it refuses a text at the first place where either of the two would. -/
theorem read_iff_ofValue? {text : String} {records : RecordSet} :
    read text = .ok records ↔ ∃ value, Value.read text = .ok value ∧ ofValue? value = some records :=
  (readObject_decodes step_decodes .recordSet Catalog.empty).whole

end RecordSet

/-! ## Runs over members

A draft and a set are made in the same way: the members are put in one after the other, and the
first that cannot be put in ends the run. What such a state holds is said of the members so far, so
the induction adds a member at the end. It is done once, here, for any state and any such saying. -/

namespace Json.Members

section Runs

variable {σ : Type} {put : σ → String × Value → Option σ} {start done : σ} {members : Members}

theorem run_concat_eq_some_iff {member : String × Value} :
    (members ++ [member]).foldlM put start = some done ↔
      ∃ before, members.foldlM put start = some before ∧ put before member = some done := by
  rw [List.foldlM_append, ← Option.bind_eq_some_iff]
  simp only [List.foldlM_cons, List.foldlM_nil, bind_pure]
  rfl

/-- **What holds before the first member and is kept by each holds of the whole run.** -/
theorem run_induction {Holds : σ → Members → Prop} (first : Holds start [])
    (kept : ∀ {before next : σ} {members : Members} {member : String × Value},
      Holds before members → put before member = some next → Holds next (members ++ [member]))
    (h : members.foldlM put start = some done) : Holds done members := by
  induction members using List.reverseRecOn generalizing done with
  | nil =>
    cases h
    exact first
  | append_singleton members member ih =>
    obtain ⟨before, hbefore, hput⟩ := run_concat_eq_some_iff.1 h
    exact kept (ih hbefore) hput

end Runs

end Json.Members

/-! ## What members put into a draft

A draft knows which fields it has. Together with the record that it would make as it is (`view`)
this is enough to say what the members so far have put in, and the statement about records is what
remains of it when there are no more members. -/

namespace Json.Members

/-- Inserting a member replaces the one of its name and leaves the others. That the names ascend is
needed, for otherwise the place of the name could be missed. -/
theorem Ascending.mem_insert_iff {members : Members} (h : members.Ascending) {name other : String}
    {value kept : Value} :
    (other, kept) ∈ members.insert name value ↔
      (other = name ∧ kept = value) ∨ (other ≠ name ∧ (other, kept) ∈ members) := by
  induction members with
  | nil => simp [Members.insert]
  | cons first members ih =>
    obtain ⟨first, held⟩ := first
    obtain ⟨above, hrest⟩ := List.pairwise_cons.1 h
    have later : (other, kept) ∈ members → first < other := fun hm =>
      above other (List.mem_map_of_mem hm)
    rw [Members.insert]
    split
    case isTrue same =>
      subst same
      have apart : (other, kept) ∈ members → other ≠ name := fun hm => (ne_of_lt (later hm)).symm
      grind
    case isFalse different =>
      split
      case isTrue before =>
        have apart : (other, kept) ∈ members → other ≠ name := fun hm =>
          (ne_of_lt (before.trans (later hm))).symm
        grind
      case isFalse behind =>
        rw [List.mem_cons, ih hrest]
        grind

end Json.Members

namespace Draft

/-- The record that a draft makes, whether or not it has a kind. It has a value for every field, so
the clauses on fields can be stated of it at any time. -/
def view (draft : Draft) : RawRecord where
  id := draft.id.getD ""
  kind := draft.kind.getD .unknown
  sectionName := draft.sectionName.getD none
  line := draft.line.getD 0
  description := draft.description.getD none
  shortDescription := draft.shortDescription.getD none
  aliasOf := draft.aliasOf.getD none
  superclass := draft.superclass.getD none
  bound := draft.bound.getD false
  extra := draft.extra

theorem finish?_eq (draft : Draft) :
    draft.finish? = if draft.has .kind then some draft.view else none := by
  cases hkind : draft.kind <;> simp [finish?, view, has, hkind]

theorem omitted_view {draft : Draft} {field : Field} (h : draft.has field = false)
    (hne : field ≠ .kind) : field.Omitted draft.view := by
  cases field with
  | kind => exact absurd rfl hne
  | _ => simp_all [has, Field.Omitted, view]

/-- What has changed when the value of a field was put in. This is all that the induction needs to
know about the nine fields and their types. -/
structure Changes (draft next : Draft) (field : Field) (value : Value) : Prop where
  has : next.has field = true
  gives : field.Gives next.view value
  /-- The other fields are as they were. -/
  frame : ∀ other : Field, other ≠ field →
    next.has other = draft.has other ∧ other.Gives next.view = other.Gives draft.view
  extra : next.extra = draft.extra

theorem changes_of_putField {draft next : Draft} {field : Field} {value : Value}
    (h : draft.putField field value = some next) : draft.Changes next field value := by
  cases field <;> obtain ⟨found, hfound, rfl⟩ := Option.map_eq_some_iff.1 h
  all_goals
    refine ⟨rfl, ?_, fun other hne => ?_, rfl⟩
    rotate_left
    · cases other <;> first | exact ⟨rfl, rfl⟩ | exact absurd rfl hne
  case id => exact Value.text?_eq_some_iff.1 hfound
  case kind => exact Kind.ofValue?_eq_some_iff.1 hfound
  case line => exact Value.lineNumber?_eq_some_iff.1 hfound
  case bound => exact Value.flag?_eq_some_iff.1 hfound
  all_goals exact Value.optionalText?_eq_some_iff.1 hfound

/-- Whatever a record can have in a field can be put in. The draft does not matter, as it is only
asked for the field that is missing before this. -/
theorem exists_putField {raw : RawRecord} {field : Field} {value : Value}
    (h : field.Gives raw value) (draft : Draft) :
    ∃ next, draft.putField field value = some next := by
  have mapped : ∀ {α : Type} {found : Option α} {a : α} (f : α → Draft), found = some a →
      ∃ next, found.map f = some next := by
    rintro α _ a f rfl
    exact ⟨f a, rfl⟩
  cases field with
  | id => exact mapped _ (Value.text?_eq_some_iff.2 h)
  | kind => exact mapped _ (Kind.ofValue?_eq_some_iff.2 h)
  | line => exact mapped _ (Value.lineNumber?_eq_some_iff.2 h)
  | bound => exact mapped _ (Value.flag?_eq_some_iff.2 h)
  | _ => exact mapped _ (Value.optionalText?_eq_some_iff.2 h)

/-- What members have put into a draft. It is the statement about records with the lookup of names
in place of the table, and with the fields that are there in place of those that are omitted: as
long as members are still to come, nothing can be called omitted. -/
structure Holds (draft : Draft) (members : Members) : Prop where
  once : ∀ field : Field, (members.map Prod.fst).count field.name ≤ 1
  has_iff : ∀ field : Field, draft.has field = true ↔ field.name ∈ members.map Prod.fst
  given : ∀ (field : Field) (value : Value), (field.name, value) ∈ members →
    field.Gives draft.view value
  ascending : draft.extra.Ascending
  mem_extra : ∀ (name : String) (value : Value), (name, value) ∈ draft.extra ↔
    Field.ofName? name = none ∧
      ∃ last, Catalog.lastValue name members = some last ∧ value = last.canonical

theorem holds_empty : empty.Holds [] where
  once _ := Nat.zero_le _
  has_iff field := by cases field <;> simp [has, empty]
  given _ _ h := nomatch h
  ascending := .nil
  mem_extra name value := by simp [empty, Catalog.lastValue]

/-- A field put in. Its name was not among the members, for the draft did not have it, so every
other clause is about other names. -/
theorem Holds.putField {draft next : Draft} {members : Members} (h : draft.Holds members)
    {field : Field} {value : Value} (fresh : ¬ draft.has field = true)
    (changes : draft.Changes next field value) : next.Holds (members ++ [(field.name, value)]) := by
  rw [h.has_iff] at fresh
  -- so any field that the members give already is another one
  have other_of_mem : ∀ {other : Field}, other.name ∈ members.map Prod.fst → other ≠ field := by
    rintro other hm rfl
    exact fresh hm
  constructor
  case once =>
    intro other
    have hcount := h.once other
    rw [List.map_append, List.count_append]
    by_cases he : other = field
    · rw [he, List.count_eq_zero_of_not_mem fresh]
      simp
    · have hne : field.name ≠ other.name := fun hname => he (Field.name_inj hname).symm
      simpa [hne] using hcount
  case has_iff =>
    intro other
    by_cases he : other = field
    · simp [he, changes.has]
    · have hne : other.name ≠ field.name := fun hname => he (Field.name_inj hname)
      rw [(changes.frame other he).1, h.has_iff]
      simp [hne]
  case given =>
    intro other kept hm
    rcases List.mem_append.1 hm with hm | hm
    · have hne := other_of_mem (List.mem_map_of_mem hm)
      rw [(changes.frame other hne).2]
      exact h.given other kept hm
    · obtain ⟨hname, rfl⟩ := Prod.mk.inj (List.mem_singleton.1 hm)
      cases Field.name_inj hname
      exact changes.gives
  case ascending =>
    rw [changes.extra]
    exact h.ascending
  case mem_extra =>
    intro name kept
    rw [changes.extra, h.mem_extra, Catalog.lastValue_append]
    apply and_congr_right
    intro foreign
    have hne : field.name ≠ name := by
      rintro rfl
      rw [Field.ofName?_name] at foreign
      cases foreign
    simp [Catalog.lastValue, hne]

theorem Holds.putExtra {draft : Draft} {members : Members} (h : draft.Holds members)
    {name : String} (foreign : Field.ofName? name = none) (value : Value) :
    Holds { draft with extra := draft.extra.insert name value.canonical }
      (members ++ [(name, value)]) := by
  have apart : ∀ field : Field, field.name ≠ name := by
    rintro field rfl
    rw [Field.ofName?_name] at foreign
    cases foreign
  constructor
  case once =>
    intro field
    have hcount := h.once field
    simpa [(apart field).symm] using hcount
  case has_iff =>
    intro field
    have same : has { draft with extra := draft.extra.insert name value.canonical } field
        = draft.has field := by cases field <;> rfl
    rw [same, h.has_iff]
    simp [apart field]
  case given =>
    intro field kept hm
    have same : field.Gives (view { draft with extra := draft.extra.insert name value.canonical })
        = field.Gives draft.view := by cases field <;> rfl
    rw [same]
    rcases List.mem_append.1 hm with hm | hm
    · exact h.given field kept hm
    · exact absurd (Prod.mk.inj (List.mem_singleton.1 hm)).1 (apart field)
  case ascending => exact h.ascending.insert name _
  case mem_extra =>
    intro other kept
    rw [Members.Ascending.mem_insert_iff h.ascending, h.mem_extra, Catalog.lastValue_append]
    by_cases he : other = name
    · simp [he, foreign, Catalog.lastValue]
    · simp [he, Ne.symm he, Catalog.lastValue]

/-- **One more member**: it is a field that was not there and has a value of its type, or it is none
of the record's own. -/
theorem Holds.put {draft next : Draft} {members : Members} (h : draft.Holds members)
    {member : String × Value} (hput : draft.put member = some next) :
    next.Holds (members ++ [member]) := by
  obtain ⟨name, value⟩ := member
  cases hname : Field.ofName? name with
  | some field =>
    simp only [Draft.put, hname] at hput
    cases Field.name_of_ofName? hname
    split at hput
    · cases hput
    case isFalse fresh => exact h.putField fresh (changes_of_putField hput)
  | none =>
    simp only [Draft.put, hname] at hput
    cases hput
    exact h.putExtra hname value

theorem holds_of_foldlM {members : Members} {draft : Draft}
    (h : members.foldlM Draft.put empty = some draft) : draft.Holds members :=
  Members.run_induction holds_empty (fun holds hput => holds.put hput) h

/-- A member can be put in that is no field of its own or a new one with a value of its type. Which
record the value belongs to does not matter. -/
theorem Holds.exists_put {draft : Draft} {members : Members} (h : draft.Holds members)
    {member : String × Value}
    (once : ∀ field : Field, ((members ++ [member]).map Prod.fst).count field.name ≤ 1)
    (typed : ∀ field : Field, field.name = member.1 → ∃ raw, field.Gives raw member.2) :
    ∃ next, draft.put member = some next := by
  obtain ⟨name, value⟩ := member
  cases hname : Field.ofName? name with
  | some field =>
    cases Field.name_of_ofName? hname
    have fresh : ¬ draft.has field = true := by
      rw [h.has_iff]
      intro hm
      have hcount := once field
      have hpos := List.count_pos_iff.2 hm
      simp only [List.map_append, List.count_append, List.map_cons, List.map_nil,
        List.count_singleton_self] at hcount
      omega
    obtain ⟨raw, gives⟩ := typed field rfl
    obtain ⟨next, hnext⟩ := exists_putField gives draft
    exact ⟨next, by simp only [Draft.put, hname, if_neg fresh, hnext]⟩
  | none => simp [Draft.put, hname]

theorem exists_foldlM {members : Members}
    (once : ∀ field : Field, (members.map Prod.fst).count field.name ≤ 1)
    (typed : ∀ (field : Field) (value : Value), (field.name, value) ∈ members →
      ∃ raw, field.Gives raw value) :
    ∃ draft, members.foldlM Draft.put empty = some draft := by
  induction members using List.reverseRecOn with
  | nil => exact ⟨empty, rfl⟩
  | append_singleton members member ih =>
    have onceBefore : ∀ field : Field, (members.map Prod.fst).count field.name ≤ 1 := by
      intro field
      have hcount := once field
      rw [List.map_append, List.count_append] at hcount
      omega
    obtain ⟨draft, hdraft⟩ := ih onceBefore fun field value hm =>
      typed field value (List.mem_append_left _ hm)
    have hmember : ∀ field : Field, field.name = member.1 → ∃ raw, field.Gives raw member.2 := by
      intro field hname
      apply typed
      rw [hname]
      exact List.mem_append_right _ List.mem_cons_self
    obtain ⟨next, hnext⟩ := (holds_of_foldlM hdraft).exists_put once hmember
    exact ⟨next, Members.run_concat_eq_some_iff.2 ⟨draft, hdraft, hnext⟩⟩

theorem Holds.decodesFrom {draft : Draft} {members : Members} (h : draft.Holds members)
    (hkind : draft.has .kind = true) : draft.view.DecodesFrom members where
  once name field own := Field.name_of_mem_ownFields own ▸ h.once field
  given name field own value hm := by
    cases Field.name_of_mem_ownFields own
    exact h.given field value hm
  omitted name field own hm := by
    cases Field.name_of_mem_ownFields own
    have absent : draft.has field = false := Bool.eq_false_iff.2 fun hhas =>
      hm ((h.has_iff field).1 hhas)
    apply omitted_view absent
    rintro rfl
    rw [hkind] at absent
    cases absent
  ascending := h.ascending
  mem_extra name value := by
    rw [Field.not_mem_ownFields_iff]
    exact h.mem_extra name value

end Draft

/-- **A value says a record exactly when it is an object that a record decodes from.** From right to
left, the members can be put in one by one, and the draft that they make can only be this record. -/
theorem RawRecord.ofValue?_eq_some_iff {value : Value} {raw : RawRecord} :
    RawRecord.ofValue? value = some raw ↔
      ∃ members, value = .object members ∧ raw.DecodesFrom members := by
  constructor
  · intro h
    obtain ⟨members, hmembers, h⟩ := Option.bind_eq_some_iff.1 h
    obtain ⟨draft, hfold, hfinish⟩ := Option.bind_eq_some_iff.1 h
    rw [Draft.finish?_eq] at hfinish
    split at hfinish
    case isTrue hkind =>
      cases hfinish
      refine ⟨members, ?_, (Draft.holds_of_foldlM hfold).decodesFrom hkind⟩
      cases value <;> cases hmembers
      rfl
    case isFalse => cases hfinish
  · rintro ⟨members, rfl, h⟩
    obtain ⟨draft, hfold⟩ :=
      Draft.exists_foldlM (fun field => h.once _ field field.name_mem_ownFields)
        fun field value hm => ⟨raw, h.given _ field field.name_mem_ownFields value hm⟩
    have holds := Draft.holds_of_foldlM hfold
    -- a record has a kind, so its members cannot lack it
    have hkind : draft.has .kind = true := by
      rw [holds.has_iff]
      by_contra missing
      exact h.omitted _ .kind (Field.name_mem_ownFields .kind) missing
    refine Option.bind_eq_some_iff.2 ⟨members, rfl, Option.bind_eq_some_iff.2 ⟨draft, hfold, ?_⟩⟩
    rw [Draft.finish?_eq, if_pos hkind, h.unique (holds.decodesFrom hkind)]

/-! ## What members put into a set

A set is described by the keys in the order in which they first come, and by what is under each of
them. The record of a member that is replaced later has no trace in it, and still it must have been
a record; the first clause keeps this. -/

namespace RecordSet

theorem withDefaultId_eq (key : String) (raw : RawRecord) :
    withDefaultId key raw = { raw with id := if raw.id = "" then key else raw.id } := by
  rw [withDefaultId]
  split
  · rfl
  · rfl

theorem decodesFrom_empty : RecordSet.DecodesFrom Catalog.empty [] where
  every _ h := nomatch h
  keys := rfl
  get? _ _ h := nomatch h

/-- **One more record** takes the place of an earlier one under its key, or comes last. Keys stay in
the order in which they came first. -/
theorem DecodesFrom.put {records next : RecordSet} {members : Members}
    (h : records.DecodesFrom members) {member : String × Value}
    (hput : put records member = some next) : next.DecodesFrom (members ++ [member]) := by
  obtain ⟨raw, hraw, rfl⟩ := Option.map_eq_some_iff.1 hput
  obtain ⟨fields, hvalue, decodes⟩ := RawRecord.ofValue?_eq_some_iff.1 hraw
  constructor
  case every =>
    intro other hm
    rcases List.mem_append.1 hm with hm | hm
    · exact h.every other hm
    · rw [List.mem_singleton.1 hm]
      exact ⟨fields, raw, hvalue, decodes⟩
  case keys =>
    rw [List.map_append]
    exact Catalog.keys_insert_eraseDups h.keys _ _
  case get? =>
    intro key others hlast
    rw [Catalog.lastValue_append] at hlast
    rw [Catalog.get?_insert]
    by_cases he : member.1 = key
    · simp only [Catalog.lastValue, he, if_true, Option.none_or, Option.some_or,
        Option.some.injEq] at hlast
      obtain rfl : fields = others := by
        rw [hvalue] at hlast
        exact Value.object.inj hlast
      exact ⟨raw, decodes, by rw [if_pos he, he, withDefaultId_eq]⟩
    · simp only [Catalog.lastValue, he, if_false, Option.none_or] at hlast
      rw [if_neg he]
      exact h.get? key others hlast

theorem decodesFrom_of_foldlM {members : Members} {records : RecordSet}
    (h : members.foldlM put Catalog.empty = some records) : records.DecodesFrom members :=
  Members.run_induction decodesFrom_empty (fun decodes hput => decodes.put hput) h

theorem exists_foldlM {members : Members}
    (every : ∀ member ∈ members, ∃ raw, RawRecord.ofValue? member.2 = some raw)
    (records : RecordSet) : ∃ next, members.foldlM put records = some next := by
  induction members generalizing records with
  | nil => exact ⟨records, rfl⟩
  | cons member members ih =>
    obtain ⟨raw, hraw⟩ := every member List.mem_cons_self
    obtain ⟨next, hnext⟩ := ih (fun other hm => every other (List.mem_cons_of_mem _ hm))
      (records.insert member.1 (withDefaultId member.1 raw))
    refine ⟨next, ?_⟩
    rw [List.foldlM_cons]
    exact Option.bind_eq_some_iff.2 ⟨_, Option.map_eq_some_iff.2 ⟨raw, hraw, rfl⟩, hnext⟩

/-- **The members say one set only.** The order of its keys is given, and under each of them is the
record of one object. -/
theorem DecodesFrom.unique {records other : RecordSet} {members : Members}
    (h : records.DecodesFrom members) (h' : other.DecodesFrom members) : records = other := by
  apply Catalog.ext_of_get? (h.keys.trans h'.keys.symm)
  intro key hkey
  rw [h.keys, List.mem_eraseDups] at hkey
  obtain ⟨value, hlast⟩ := Option.isSome_iff_exists.1 (Catalog.lastValue_isSome hkey)
  obtain ⟨fields, _, hvalue, -⟩ := h.every _ (Catalog.mem_of_lastValue hlast)
  dsimp only at hvalue
  rw [hvalue] at hlast
  obtain ⟨raw, decodes, hget⟩ := h.get? key fields hlast
  obtain ⟨raw', decodes', hget'⟩ := h'.get? key fields hlast
  rw [hget, hget', decodes.unique decodes']

end RecordSet

/-! ## Whole texts

Reading a value stays on the right hand side: which texts are values is described by the grammar,
and here only what they say. -/

/-- **A text is read as a record set exactly when its value is an object of records**, and then as
the one that these members say. -/
theorem RecordSet.read_iff_decodesFrom (text : String) (records : RecordSet) :
    RecordSet.read text = .ok records ↔
      ∃ members, Value.read text = .ok (.object members) ∧ records.DecodesFrom members := by
  rw [read_iff_ofValue?]
  constructor
  · rintro ⟨value, hvalue, h⟩
    obtain ⟨members, hmembers, hfold⟩ := Option.bind_eq_some_iff.1 h
    cases value <;> cases hmembers
    exact ⟨members, hvalue, decodesFrom_of_foldlM hfold⟩
  · rintro ⟨members, hvalue, h⟩
    have every : ∀ member ∈ members, ∃ raw, RawRecord.ofValue? member.2 = some raw := by
      intro member hm
      obtain ⟨fields, raw, hfields, decodes⟩ := h.every member hm
      exact ⟨raw, RawRecord.ofValue?_eq_some_iff.2 ⟨fields, hfields, decodes⟩⟩
    obtain ⟨other, hfold⟩ := exists_foldlM every Catalog.empty
    refine ⟨.object members, hvalue, Option.bind_eq_some_iff.2 ⟨members, rfl, ?_⟩⟩
    rw [hfold, h.unique (decodesFrom_of_foldlM hfold)]

end DocTree
