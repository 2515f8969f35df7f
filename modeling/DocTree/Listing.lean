import DocTree.Ident
import DocTree.Link
import DocTree.RecordSet
import DocTree.Text.Lowercase

/-!
# The listing of all records

The records of all files in one catalog, under their qualified identifiers. It is made in two steps
and then read in a third way:

* `Listing.merge` puts the records of the files together, the later ones over the earlier;
* `Listing.inferSections` finds a section for records that came without one;
* `Listing.canonicalOrder` is the order in which the records are published.

The first two keep records under keys, and both can lose one: a record whose key comes again is
replaced, and a record that is moved to a key that is there takes its place. Which is lost, and
whether the loss depends on the order of the files, are questions about the keys alone, and the
theorems on these steps are stated about the keys first and about the records from there
(`Proofs.SourceRecords`, `Proofs.OnePass`, `Proofs.MovedRecords`).
-/

set_option autoImplicit false

namespace DocTree

structure SourceFile where
  path : String
  records : RecordSet

abbrev Listing := Catalog Record

namespace Listing

/-! ## Merging files

A section stands under its own identifier and is not qualified; everything else stands under its
section and a point. The nameless section comes in front of all files, so it is there even when
nothing else is. -/

def place (record : Record) : String × Record :=
  let key := Ident.qualify record.sectionName record.id
  (key, { record with id := key })

/-- The instance method that goes with a method declared as bound. Only methods have one, and only
those whose identifier has a point. -/
def boundInstance (raw : RawRecord) : Option String :=
  if raw.bound ∧ raw.kind = .method then Ident.instanceMember raw.id else none

/-- The records that one record of a file makes: a section stands under its own identifier; a
bound method comes with its instance method, each naming the other. -/
def placedRecords (href : Option String) (raw : RawRecord) : List (String × Record) :=
  let record := Record.ofRaw raw href
  if record.isSection then [(record.id, record)]
  else match boundInstance raw with
    | some instanceId =>
      [place { record with bound := some instanceId },
       place { record with id := instanceId, bound := some record.id }]
    | none => [place record]

def fileRecords (options : Options) (file : SourceFile) : List (String × Record) :=
  file.records.values.flatMap fun raw => placedRecords (options.href file.path raw.line) raw

/-- The records of all files and, in front, the section without a name. A record takes the place
of an earlier one with the same qualified identifier. -/
def merge (options : Options) (files : List SourceFile) : Listing :=
  Catalog.ofList (("", Record.root) :: files.flatMap (fileRecords options))

/-! ## Inferring sections

A record without a section may share its outermost name with a record that has one: a member that
was documented in another file than its class. It then moves to that section. The first key with the
name decides, in the order of the listing, and what a record was moved to never helps another. -/

def sectionOf (key : String) : String := (Ident.segments key).headD ""

/-- The segment after the section, the outermost name of the symbol. A key of one segment has none.
-/
def headOf (key : String) : Option String := (Ident.segments key)[1]?

def lacksSection (key : String) : Bool := key != "" && sectionOf key == ""

/-- The outermost names of the keys that have a section, each with that section. A name may come
several times, and then the first entry is the one that is found. -/
def knownSections (keys : List String) : List (Option String × String) :=
  (keys.filter fun key => sectionOf key != "").map fun key => (headOf key, sectionOf key)

/-- The section of the first key that has one and shares the outermost name. -/
def inferredSection (known : List (Option String × String)) (key : String) : Option String :=
  known.lookup (headOf key)

def moveTo (sectionName : String) (listing : Listing) (key : String) : Listing :=
  match listing.get? key with
  | some record =>
    let moved := sectionName ++ key
    (listing.erase key).insert moved { record with id := moved }
  | none => listing

def inferSection (known : List (Option String × String)) (listing : Listing) (key : String) :
    Listing :=
  match inferredSection known key with
  | some sectionName => moveTo sectionName listing key
  | none => listing

/-- Each record without a section moved to an inferred one. What is inferred comes from the keys
as they were before, so a moved record never helps another. -/
def inferSections (listing : Listing) : Listing :=
  (listing.keys.filter lacksSection).foldl (inferSection (knownSections listing.keys)) listing

/-! ## The canonical order

The order is that of the keys in lower case, and of the keys themselves where these agree. It is
total on texts, so it does not depend on the order in which the records came. -/

def orderedBefore (a b : String × String) : Bool :=
  a.1 < b.1 || (a.1 == b.1 && (a.2 < b.2 || a.2 == b.2))

/-- Keys in order, whatever their case; keys that differ in case alone by their exact text. The
lower-case forms are made once for each key and not at each comparison. -/
def sortKeys (keys : List String) : List String :=
  ((keys.map fun key => (Text.lower key, key)).mergeSort orderedBefore).map Prod.snd

def canonicalOrder (listing : Listing) : List String := sortKeys listing.keys

end Listing

end DocTree
