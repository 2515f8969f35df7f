import DocTree.Proofs.ChildReferences
import DocTree.Proofs.ReadBack
import DocTree.Proofs.ReadRecords
import DocTree.Proofs.WalkOrder

/-!
# The JSON output means the documentation

What is written is read back as the same value, so what is left is that the value says what the
documentation says. The other fields of a record are copied into its object, next to the fields that
it has of its own, and a name that came twice would lose one of the two values to a reader of
objects. A record that was read from a text keeps the names of its own fields apart already; the
names that the object has besides are reserved.

What an object says is put as a reader of objects would: each field is looked up by its name and has
this value or is not there, names are distinct, and there are no other members (`Describes`). The
order of the members is not part of it. The two halves of the output say the same of a record and
differ in its children, which are names in the list and objects in the tree.

The tree is a nested value of unbounded depth, so what it means is an inductive relation between
nodes and objects (`TreeObjects`). It is proved over the unfolding of the documentation (`Nested`),
which has run out of depth nowhere, because below a node there are nodes of greater numbers only.

Numbers need care. An integer that fits is read back as it was written, and of other numbers nothing
is said here; so the values of other fields are asked to have no others (`Integral`). The line of a
record is an integer and fits, since it has been read from a text.
-/

set_option autoImplicit false

namespace DocTree

open DocTree.Json

/-! ## The statement

The fields of a record are a table of names and values, in the order in which they are written. The
texts in it are the names that readers of the output rely on; a value that is left out is written as
absent here, so the table says when a member is missing as well. -/

namespace Record

/-- The fields that a record has of its own as they are written, each with its value if it has one.
The name and the path are written unless they are empty. -/
def fields (record : Record) : List (String × Option Value) :=
  [("id", some (.string record.id)),
   ("type", some (.string record.kind.name)),
   ("name", if record.name = "" then none else some (.string record.name)),
   ("section", record.sectionName.map Value.string),
   ("path", if record.path = "" then none else some (.string record.path)),
   ("line", some (.number (.integer record.line))),
   ("href", record.href.map Value.string),
   ("description", record.description.map Value.string),
   ("short_description", record.shortDescription.map Value.string),
   ("alias_of", record.aliasOf.map Value.string),
   ("superclass", record.superclass.map Value.string),
   ("aliases", some (.array (record.aliases.map .string))),
   ("subclasses", record.subclasses.map fun names => .array (names.map .string)),
   ("bound", record.bound.map Value.string)]

/-- An object with these members says of the record what is to be said of it, and nothing else. No
name comes twice, so looking a name up is all that there is to an object. -/
structure Describes (record : Record) (children : List Value) (members : Members) : Prop where
  distinct : (members.map Prod.fst).Nodup
  field : ∀ entry ∈ record.fields, members.lookup entry.1 = entry.2
  other : ∀ member ∈ record.extra, members.lookup member.1 = some member.2
  children : members.lookup "children" = some (.array children)
  only : ∀ member ∈ members, (∃ entry ∈ record.fields, entry.1 = member.1) ∨
    member ∈ record.extra ∨ member.1 = "children"

end Record

/-- Names in the object of a record that are no fields of a record in a text, where other fields may
have them. -/
def reservedNames : List String := ["name", "path", "href", "aliases", "subclasses", "children"]

namespace Documentation

/-- The member of the list for a node: under its key an object that refers to its children by their
keys. -/
def ListMember (doc : Documentation) (entry : String × Nat) (member : String × Value) : Prop :=
  member.1 = entry.1 ∧ ∃ record names members,
    doc.record? entry.2 = some record ∧
    List.Forall₂ (fun c name => ∃ node, doc.nodes[c]? = some node ∧ node.key = name)
      (doc.children entry.2) names ∧
    member.2 = .object members ∧ record.Describes (names.map Value.string) members

/-- The objects of nodes in the tree, each with the objects of its children inside, and so on down.
One constructor follows the lists of numbers and of objects side by side. -/
inductive TreeObjects (doc : Documentation) : List Nat → List Value → Prop where
  | none : TreeObjects doc [] []
  | node {n : Nat} {record : Record} {numbers : List Nat} {inner items : List Value}
      {members : Members} (shown : doc.record? n = some record)
      (inside : TreeObjects doc (doc.children n) inner)
      (described : record.Describes inner members) (rest : TreeObjects doc numbers items) :
      TreeObjects doc (n :: numbers) (.object members :: items)

/-- The value says what the documentation says: a list with a member for each listed node, and the
objects of the tree from the top level on. -/
def Means (doc : Documentation) (value : Value) : Prop :=
  ∃ list items,
    value = .object [("list", .object list), ("tree", .object [("children", .array items)])] ∧
    List.Forall₂ doc.ListMember doc.list.entries list ∧ doc.TreeObjects doc.topLevel items

end Documentation

/-! ## One record

The members that are written are those of the table that have a value, and the other fields behind
them. All names are different; from this everything that is said of the object follows by looking
names up. -/

theorem lookup_of_mem {β : Type} {entries : List (String × β)}
    (distinct : (entries.map Prod.fst).Nodup) {name : String} {value : β}
    (h : (name, value) ∈ entries) : entries.lookup name = some value := by
  induction entries with
  | nil => cases h
  | cons first entries ih =>
    obtain ⟨other, kept⟩ := first
    rw [List.map_cons, List.nodup_cons] at distinct
    rcases List.mem_cons.1 h with he | h
    · cases he
      exact List.lookup_cons_self
    · have different : (name == other) = false :=
        beq_eq_false_iff_ne.2 fun he => distinct.1 (List.mem_map.2 ⟨_, h, he⟩)
      rw [List.lookup_cons, different]
      exact ih distinct.2 h

/-- What is copied from a text can be written next to the fields that a record has of its own: no
name of these comes again, and every number is one that is read back. -/
structure Content.Writable (content : Content) : Prop where
  line_le : content.line ≤ Number.greatestInteger
  ascending : content.extra.Ascending
  apart : ∀ member ∈ content.extra, Field.ofName? member.1 = none ∧ member.1 ∉ reservedNames
  integral : ∀ member ∈ content.extra, member.2.Integral

namespace Record

def present (entry : String × Option Value) : Option (String × Value) :=
  entry.2.map fun value => (entry.1, value)

theorem filterMap_present_cons (entry : String × Option Value)
    (entries : List (String × Option Value)) :
    (entry :: entries).filterMap present = (present entry).toList ++ entries.filterMap present := by
  rw [List.filterMap_cons]
  cases present entry <;> rfl

theorem members_eq (record : Record) :
    record.members = record.fields.filterMap present ++ record.extra := by
  have given : ∀ name value, [(name, value)] = (present (name, some value)).toList :=
    fun _ _ => rfl
  have text : ∀ name text, textMember name text
      = (present (name, if text = "" then none else some (.string text))).toList := by
    intro name text
    rw [textMember]
    split <;> rfl
  have option : ∀ name text?, optionMember name text?
      = (present (name, text?.map Value.string)).toList := by
    intro name text?
    cases text? <;> rfl
  rw [members, fields]
  simp only [given, text, option, filterMap_present_cons, List.filterMap_nil, List.append_assoc,
    List.append_nil]
  cases record.subclasses <;> rfl

theorem names_fields (record : Record) :
    record.fields.map Prod.fst = ["id", "type", "name", "section", "path", "line", "href",
      "description", "short_description", "alias_of", "superclass", "aliases", "subclasses",
      "bound"] := rfl

theorem nodup_names_fields (record : Record) : (record.fields.map Prod.fst).Nodup := by
  rw [names_fields]
  decide

theorem children_not_mem_names (record : Record) : "children" ∉ record.fields.map Prod.fst := by
  rw [names_fields]
  decide

theorem names_present_sublist (entries : List (String × Option Value)) :
    ((entries.filterMap present).map Prod.fst).Sublist (entries.map Prod.fst) := by
  induction entries with
  | nil => exact .slnil
  | cons entry entries ih =>
    obtain ⟨name, value?⟩ := entry
    cases value? with
    | none => exact ih.cons _
    | some value => exact ih.cons_cons _

theorem field_of_mem_present {entries : List (String × Option Value)} {member : String × Value}
    (h : member ∈ entries.filterMap present) : (member.1, some member.2) ∈ entries := by
  obtain ⟨entry, he, hp⟩ := List.mem_filterMap.1 h
  obtain ⟨value, hvalue, rfl⟩ := Option.map_eq_some_iff.1 hp
  rw [← hvalue]
  exact he

section Writable

variable {record : Record} (h : record.content.Writable)
include h

theorem extra_apart {member : String × Value} (hm : member ∈ record.extra) :
    member.1 ∉ record.fields.map Prod.fst ∧ member.1 ≠ "children" := by
  -- every name in the object is that of a field in a text or reserved
  have own : ∀ name ∈ "children" :: record.fields.map Prod.fst,
      (∃ field ∈ Field.all, field.name = name) ∨ name ∈ reservedNames := by
    rw [names_fields]
    decide
  obtain ⟨hforeign, hreserved⟩ := h.apart member hm
  rw [Field.ofName?, List.find?_eq_none] at hforeign
  have other : member.1 ∉ "children" :: record.fields.map Prod.fst := by
    intro hname
    rcases own _ hname with ⟨field, hf, he⟩ | hname
    · exact hforeign field hf (beq_iff_eq.2 he)
    · exact hreserved hname
  rw [List.mem_cons, not_or] at other
  exact ⟨other.2, other.1⟩

theorem nodup_names_members (children : List Value) :
    ((record.members ++ [("children", Value.array children)]).map Prod.fst).Nodup := by
  have sub := names_present_sublist record.fields
  have extra : (record.extra.map Prod.fst).Nodup := h.ascending.imp ne_of_lt
  rw [members_eq, List.map_append, List.map_append, List.nodup_append, List.nodup_append]
  refine ⟨⟨sub.nodup (nodup_names_fields record), extra, ?_⟩, List.nodup_singleton _, ?_⟩
  · intro name hname other ho he
    obtain ⟨member, hm, rfl⟩ := List.mem_map.1 ho
    exact (extra_apart h hm).1 (he ▸ sub.subset hname)
  · intro name hname other ho he
    cases List.mem_singleton.1 ho
    replace he : name = "children" := he
    rcases List.mem_append.1 hname with hname | hname
    · exact children_not_mem_names record (he ▸ sub.subset hname)
    · obtain ⟨member, hm, rfl⟩ := List.mem_map.1 hname
      exact (extra_apart h hm).2 he

/-- **The object of a record describes it.** The members that are written are those of the table
that have a value; that the names are distinct makes each lookup find the right one. -/
theorem describes (children : List Value) :
    record.Describes children (record.members ++ [("children", .array children)]) := by
  have distinct := nodup_names_members h children
  have cases_mem : ∀ member ∈ record.members ++ [("children", .array children)],
      (member.1, some member.2) ∈ record.fields ∨ member ∈ record.extra ∨
        member = ("children", .array children) := by
    intro member hm
    rw [members_eq, List.append_assoc, List.mem_append, List.mem_append, List.mem_singleton] at hm
    exact hm.imp_left field_of_mem_present
  constructor
  case distinct => exact distinct
  case field =>
    rintro ⟨name, value?⟩ he
    cases value? with
    | some value =>
      have hm : (name, value) ∈ record.fields.filterMap present :=
        List.mem_filterMap.2 ⟨_, he, rfl⟩
      rw [members_eq] at distinct ⊢
      exact lookup_of_mem distinct (List.mem_append_left _ (List.mem_append_left _ hm))
    | none =>
      -- another member of the name would be of the same field, of another one, or the children
      refine List.lookup_eq_none_iff.2 fun member hm => ?_
      have absent : name ≠ member.1 := by
        intro hname
        rcases cases_mem member hm with hfield | hextra | rfl
        · have same := List.inj_on_of_nodup_map (nodup_names_fields record) he hfield hname
          cases same
        · exact (extra_apart h hextra).1 (hname ▸ List.mem_map_of_mem he)
        · replace hname : name = "children" := hname
          exact children_not_mem_names record (hname ▸ List.mem_map_of_mem he)
      exact bne_iff_ne.2 absent
  case other =>
    intro member hm
    rw [members_eq] at distinct ⊢
    exact lookup_of_mem distinct (List.mem_append_left _ (List.mem_append_right _ hm))
  case children =>
    exact lookup_of_mem distinct (List.mem_append_right _ List.mem_cons_self)
  case only =>
    intro member hm
    rcases cases_mem member hm with hfield | hextra | rfl
    · exact Or.inl ⟨_, hfield, rfl⟩
    · exact Or.inr (Or.inl hextra)
    · exact Or.inr (Or.inr rfl)

omit h in
theorem integral_texts (texts : List String) :
    (Value.array (texts.map Value.string)).Integral := by
  refine .array fun item hi => ?_
  obtain ⟨text, -, rfl⟩ := List.mem_map.1 hi
  exact .string text

theorem integral_fields : ∀ entry ∈ record.fields, ∀ value ∈ entry.2, value.Integral := by
  have given : ∀ {value : Value}, value.Integral → ∀ other ∈ some value, other.Integral := by
    intro value hvalue other ho
    exact Option.some.inj ho ▸ hvalue
  have option : ∀ {text? : Option String}, ∀ value ∈ text?.map Value.string, value.Integral := by
    intro text? value he
    obtain ⟨text, -, rfl⟩ := Option.map_eq_some_iff.1 he
    exact .string text
  have text : ∀ {text : String}, ∀ value ∈ (if text = "" then none else some (Value.string text)),
      value.Integral := by
    intro text value he
    split at he
    · cases he
    · exact given (.string text) value he
  have line : FitsInteger record.line :=
    ⟨Int.le_trans (by decide) (Int.natCast_nonneg _), Int.ofNat_le.2 h.line_le⟩
  have subclasses :
      ∀ value ∈ record.subclasses.map fun names => Value.array (names.map Value.string),
        value.Integral := by
    intro value he
    obtain ⟨texts, -, rfl⟩ := Option.map_eq_some_iff.1 he
    exact integral_texts texts
  simp only [fields, List.forall_mem_cons]
  exact ⟨given (.string _), given (.string _), text, option, text, given (.integer line), option,
    option, option, option, option, given (integral_texts _), subclasses, option, nofun⟩

/-- The object of a record can be read back if the values of the children can. The fields of its own
are texts, lists of texts and the line, which is small enough. -/
theorem integral_object {children : List Value} (inside : ∀ child ∈ children, child.Integral) :
    (Value.object (record.members ++ [("children", .array children)])).Integral := by
  refine .object fun member hm => ?_
  rw [members_eq, List.append_assoc, List.mem_append, List.mem_append, List.mem_singleton] at hm
  rcases hm with hfield | hextra | rfl
  · exact integral_fields h _ (field_of_mem_present hfield) _ rfl
  · exact h.integral member hextra
  · exact .array inside

end Writable

end Record

/-! ## What the nodes show

A record that is shown has the content of one that was read, so what has been checked when it was
read still holds: of the line, of the order of the other fields, and of their names. -/

namespace Documentation

def WritableNode (doc : Documentation) (n : Nat) : Prop :=
  ∀ record, doc.record? n = some record → record.content.Writable

/-- **The objects of the tree say what its nodes are**, and can be read back. The induction is on
how the trees are nested, which has one constructor for a node with its subtree. -/
theorem Nested.treeObjects {doc : Documentation}
    (below : ∀ p, ∀ c ∈ doc.children p, doc.WritableNode c) {depth : Nat} {numbers : List Nat}
    {items : List Value} {out : List (Nat × Nat)} (h : Nested doc depth numbers items out)
    (writable : ∀ n ∈ numbers, doc.WritableNode n) :
    doc.TreeObjects numbers items ∧ ∀ item ∈ items, item.Integral := by
  induction h with
  | none => exact ⟨.none, nofun⟩
  | @node depth n record numbers inner items out after shown inside rest ihinside ihrest =>
    have hrecord := writable n List.mem_cons_self record shown
    obtain ⟨hinner, hintegral⟩ := ihinside (below n)
    obtain ⟨hrest, hafter⟩ := ihrest fun m hm => writable m (List.mem_cons_of_mem _ hm)
    refine ⟨.node shown hinner (Record.describes hrecord inner) hrest, ?_⟩
    exact List.forall_mem_cons.2 ⟨Record.integral_object hrecord hintegral, hafter⟩

end Documentation

namespace Listing

theorem Origin.writable {options : Options} {files : List SourceFile}
    (writable : ∀ source ∈ sourceRecords files,
      (source.2.content (options.href source.1 source.2.line)).Writable)
    {key : String} {record : Record} (h : Origin options files key record) :
    record.content.Writable := by
  cases h with
  | nameless => exact ⟨Nat.zero_le _, .nil, nofun, nofun⟩
  | keptSection mem => exact writable _ mem
  | movedSection mem => exact writable _ mem
  | symbol mem => exact writable _ mem

end Listing

/-! ## The documentation

Every node that is listed or in the tree is reached by a walk, and is therefore shown. With all of
them writable the two halves are described one after the other, and the value as a whole can be read
back. -/

namespace Documentation

section Written

variable {options : Options} {files : List SourceFile}
  (writable : ∀ source ∈ sourceRecords files,
    (source.2.content (options.href source.1 source.2.line)).Writable)
include writable

theorem writableNode_of_mem_walk {n : Nat} (h : n ∈ (ofFiles options files).walk.map Prod.snd) :
    (ofFiles options files).WritableNode n := by
  have labelled := Listing.labelled_resolved options files
  obtain ⟨key, record, hshows⟩ := (Listing.mem_walk_iff labelled).1 h
  obtain ⟨node, hnode, -, -, -, -, hcontent⟩ := hshows.fixed labelled
  intro found hfound
  rw [record?, Listing.ofFiles_eq_publish, hnode] at hfound
  cases hfound
  rw [hcontent]
  exact (Listing.origin_of_get? hshows.entry).writable writable

theorem writableNode_of_mem_children {p c : Nat} (h : c ∈ (ofFiles options files).children p) :
    (ofFiles options files).WritableNode c := by
  have labelled := Listing.labelled_resolved options files
  obtain ⟨key, parent, record, hshows, -⟩ := Listing.exists_shows_of_mem_children labelled h
  exact writableNode_of_mem_walk writable
    ((Listing.mem_walk_iff labelled).2 ⟨key, record, hshows⟩)

theorem writableNode_of_mem_topLevel {n : Nat} (h : n ∈ (ofFiles options files).topLevel) :
    (ofFiles options files).WritableNode n := by
  refine writableNode_of_mem_walk writable ?_
  rw [Assembly.map_snd_walk]
  exact (Forest.mem_visited_iff (Assembly.nameless_root options files)).2
    ((Assembly.spans options files).start_owner n h)

theorem listMember_of_lookup {key : String} {n : Nat}
    (h : (ofFiles options files).lookup key = some n) :
    (ofFiles options files).ListMember (key, n) (key, (ofFiles options files).listValue n) ∧
      ((ofFiles options files).listValue n).Integral := by
  have labelled := Listing.labelled_resolved options files
  obtain ⟨first, found, hshows, -⟩ := Listing.shows_of_lookup labelled h
  obtain ⟨node, hnode, -⟩ := hshows.fixed labelled
  have hrecord : (ofFiles options files).record? n = some node.record := by
    rw [record?, Listing.ofFiles_eq_publish, hnode]
    rfl
  -- what is listed is walked as well, and so it can be written
  have hwritable := writableNode_of_mem_walk writable
    ((Listing.mem_walk_iff labelled).2 ⟨first, found, hshows⟩) _ hrecord
  have keys : List.Forall₂ (fun c name => ∃ node, (ofFiles options files).nodes[c]? = some node ∧
      node.key = name) ((ofFiles options files).children n) ((ofFiles options files).childKeys n) := by
    refine forall₂_filterMap fun c hc => ?_
    obtain ⟨_, _, _, hchild, -⟩ := Listing.exists_shows_of_mem_children labelled hc
    obtain ⟨child, hnode, -⟩ := hchild.fixed labelled
    exact ⟨child.key, congrArg (Option.map Node.key) hnode, child, hnode, rfl⟩
  have hvalue : (ofFiles options files).listValue n = .object (node.record.members
      ++ [("children", .array (((ofFiles options files).childKeys n).map Value.string))]) := by
    rw [listValue, recordValue, hrecord]
  have hstrings : ∀ child ∈ ((ofFiles options files).childKeys n).map Value.string,
      child.Integral := by
    intro child hc
    obtain ⟨name, -, rfl⟩ := List.mem_map.1 hc
    exact .string name
  rw [hvalue]
  exact ⟨⟨rfl, _, _, _, hrecord, keys, rfl, Record.describes hwritable _⟩,
    Record.integral_object hwritable hstrings⟩

/-- **The value of a documentation says what it says**, and can be read back. Nothing is said about
a text yet; the layouts come in when the value is written. -/
theorem means_value : (ofFiles options files).Means (ofFiles options files).value ∧
    (ofFiles options files).value.Integral := by
  have spans := Assembly.spans options files
  have top : ∀ n ∈ (ofFiles options files).topLevel, n < (ofFiles options files).nodes.size :=
    fun n hn => spans.owner_lt n (spans.start_owner n hn)
  have nested : Nested (ofFiles options files) 0 _ _ _ :=
    nested_unfold spans.descends fun n hn => ⟨top n hn, Nat.sub_le _ _⟩
  obtain ⟨objects, hitems⟩ := nested.treeObjects
    (fun _ _ hc => writableNode_of_mem_children writable hc)
    fun n hn => writableNode_of_mem_topLevel writable hn
  have listed : ∀ entry ∈ (ofFiles options files).list.entries,
      (ofFiles options files).ListMember entry (entry.1, (ofFiles options files).listValue entry.2) ∧
        ((ofFiles options files).listValue entry.2).Integral :=
    fun entry he => listMember_of_lookup writable (Catalog.get?_of_mem he)
  constructor
  · refine ⟨_, _, rfl, ?_, objects⟩
    rw [List.forall₂_map_right_iff]
    exact List.forall₂_same.2 fun entry he => (listed entry he).1
  · refine .object fun member hm => ?_
    rcases List.mem_cons.1 hm with rfl | hm
    · refine .object fun member hm => ?_
      obtain ⟨entry, he, rfl⟩ := List.mem_map.1 hm
      exact (listed entry he).2
    · cases List.mem_singleton.1 hm
      refine .object fun member hm => ?_
      cases List.mem_singleton.1 hm
      exact .array hitems

end Written

/-- **The JSON output decodes to the documentation**, in either layout, when the records were read
from texts whose other fields hold no numbers but integers and have no reserved name. -/
theorem json_ofFiles (options : Options) {files : List SourceFile}
    (read : ∀ file ∈ files, ∃ text, RecordSet.read text = .ok file.records)
    (other : ∀ source ∈ sourceRecords files, ∀ member ∈ source.2.extra,
      member.2.Integral ∧ member.1 ∉ reservedNames) :
    ∃ value, (ofFiles options files).Means value ∧ ∀ layout,
      value.ReadsFrom ((ofFiles options files).json layout) ∧
      ∃ front, (ofFiles options files).json layout = front ++ "\x7d\n" := by
  have writable : ∀ source ∈ sourceRecords files,
      (source.2.content (options.href source.1 source.2.line)).Writable := by
    intro source hs
    obtain ⟨file, hf, hraw⟩ := List.mem_flatMap.1 hs
    obtain ⟨raw, hr, rfl⟩ := List.mem_map.1 hraw
    obtain ⟨text, htext⟩ := read file hf
    have sound := RecordSet.sound_of_read htext raw hr
    exact ⟨sound.line_le, sound.ascending,
      fun member hm => ⟨sound.foreign member hm, (other _ hs member hm).2⟩,
      fun member hm => (other _ hs member hm).1⟩
  obtain ⟨means, integral⟩ := means_value writable
  refine ⟨_, means, fun layout => ⟨integral.readsFrom layout, ?_⟩⟩
  obtain ⟨front, hfront⟩ := Value.exists_text_object layout
    ("list", .object ((ofFiles options files).list.entries.map fun entry =>
      (entry.1, (ofFiles options files).listValue entry.2)))
    [("tree", .object [("children", .array (treeValues _ (ofFiles options files).trees))])]
  refine ⟨front, ?_⟩
  rw [json, value, hfront, String.append_assoc]
  rfl

/-- A class with a quotation in its description and with a field of its own that nests. -/
def libraryText : String :=
  "\x7b\"Foo\": \x7b\"type\": \"class\", \"line\": 7, \"description\": \"a \\\"foo\\\"\\u0001\", "
    ++ "\"since\": [-1, \x7b\"a\": 18446744073709551615, \"b\": []\x7d]\x7d\x7d"

def recordsOf (text : String) : RecordSet := (RecordSet.read text).toOption.getD Catalog.empty

def libraryFiles : List SourceFile := [⟨"library.json", recordsOf libraryText⟩]

theorem json_libraryFiles :
    (sourceRecords libraryFiles).map (fun source => (source.2.id, source.2.extra.map Prod.fst))
        = [("Foo", ["since"])] ∧
      (∀ file ∈ libraryFiles, ∃ text, RecordSet.read text = .ok file.records) ∧
      (∀ source ∈ sourceRecords libraryFiles, ∀ member ∈ source.2.extra,
        member.2.Integral ∧ member.1 ∉ reservedNames) ∧
      ∃ value, (ofFiles Options.plain libraryFiles).Means value ∧ ∀ layout,
        value.ReadsFrom ((ofFiles Options.plain libraryFiles).json layout) ∧
        ∃ front, (ofFiles Options.plain libraryFiles).json layout = front ++ "\x7d\n" := by
  -- one evaluation, so that the text is read once
  obtain ⟨names, readable, other⟩ :
      (sourceRecords libraryFiles).map (fun source => (source.2.id, source.2.extra.map Prod.fst))
          = [("Foo", ["since"])] ∧
        (RecordSet.read libraryText).toOption.isSome = true ∧
        ∀ source ∈ sourceRecords libraryFiles, ∀ member ∈ source.2.extra,
          member.2.Integral ∧ member.1 ∉ reservedNames := by
    decide +kernel
  have read : ∀ file ∈ libraryFiles, ∃ text, RecordSet.read text = .ok file.records := by
    refine List.forall_mem_singleton.2 ⟨libraryText, ?_⟩
    rw [recordsOf]
    cases h : RecordSet.read libraryText with
    | error fault =>
      rw [h] at readable
      cases readable
    | ok records => rfl
  exact ⟨names, read, other, json_ofFiles Options.plain read other⟩

end Documentation

end DocTree
