import DocTree.Proofs.DocumentedSymbols

/-!
# The two halves of a bound method

A bound method is entered twice, and each entry names the identifier of the other one as it will be
in the end. From there on the halves go their own ways: sections are inferred for each of them, the
keys are sorted, and the point of the one sorts apart from the hash of the other. What keeps them
together is that their identifiers have the same segments (`Ident.segments_instanceMember`), and
inference looks at nothing but segments. So they stand behind the same front (`Front.congr`), and
the identifiers that they name are those under which they are found.

That no other record documents either identifier is needed throughout: a record with the same
identifier in another section would take the place of a half in the list. It is asked of the files
and not of the finished documentation (`DocumentsAlone`), so that it can be seen to hold before
anything is computed; in a tree that is already cut to one node for each name it would say nothing.

The pair is first proved half by half. `half_of_alone` says of one half everything that does not
mention the other: its node, the name under which the list has it, its content, and the identifier
that it is bound to. The two are then put side by side, and only the last clause, that they are
children of one node, compares them. It asks for the point to be the last separator: in `A.b#c` the
hash would stand in front of the last segment, the parents would be called `A.b` and `A#b`, and one
of them may be documented without the other.
-/

set_option autoImplicit false

namespace DocTree

/-! ## The statement

What it is to be a pair is said about the finished documentation only: by what its list has for the
two names and by the records of the two nodes. Neither the keys nor the forest occur in it. -/

/-- No other record documents an identifier that this one documents. Otherwise the record that comes
last would overwrite a half, and the other half would be left with a stranger. -/
def DocumentsAlone (files : List SourceFile) (source : String × RawRecord) : Prop :=
  ∀ other ∈ sourceRecords files, ∀ id, source.2.Documents id → other.2.Documents id →
    other = source

/-- Whether two nodes are children of one node that is reached, or both at the top level. -/
def Documentation.Siblings (doc : Documentation) (n m : Nat) : Prop :=
  (∃ p ∈ doc.walk.map Prod.snd, n ∈ doc.children p ∧ m ∈ doc.children p) ∨
    (n ∈ doc.topLevel ∧ m ∈ doc.topLevel)

/-- Nodes `n` and `m` are the halves of a bound method: `method` under `id` and `onInstance` under
`member`. The first seven clauses hold of every such method; the last two have their own conditions,
since an identifier may have separators that neither half accounts for. -/
structure IsPair (doc : Documentation) (id member : String) (n m : Nat)
    (method onInstance : Record) : Prop where
  lookup_id : doc.lookup id = some n
  lookup_member : doc.lookup member = some m
  record_id : doc.record? n = some method
  record_member : doc.record? m = some onInstance
  bound_id : method.bound = some member
  bound_member : onInstance.bound = some id
  content : method.content = onInstance.content
  /-- This takes no more than that the point is the last separator. -/
  siblings : Ident.lastSeparator id = some '.' → doc.Siblings n m
  kinds : '#' ∉ id.toList → '@' ∉ id.toList → id.toList.head? ≠ some '$' →
    method.kind = .classMethod ∧ onInstance.kind = .instanceMethod

/-! ## The same front

Two keys with the same segments are treated alike by inference: whether a key lacks a section and
which section is inferred for it can both be read from its segments. So a front, which stands for
the outcome of inference, goes over from one identifier to the other. -/

namespace Listing

section Fronts

variable {listing : Listing} {sectionText : String}

theorem Moves.of_segments {key other s : String} (h : Moves listing key s)
    (mem : other ∈ listing.keys) (nonempty : other ≠ "")
    (same : Ident.segments key = Ident.segments other) : Moves listing other s where
  mem_keys := mem
  lacks := by
    have hlacks := h.lacks
    rw [lacksSection, sectionOf, same, Bool.and_eq_true] at hlacks
    rw [lacksSection, sectionOf, hlacks.2, bne_iff_ne.2 nonempty]
    rfl
  inferred := by
    rw [inferredSection, headOf, ← same]
    exact h.inferred

theorem Moves.unique {key s t : String} (h : Moves listing key s) (h' : Moves listing key t) :
    s = t := Option.some.inj (h.inferred.symm.trans h'.inferred)

theorem Front.unique {id front other : String} (h : Front listing sectionText id front)
    (h' : Front listing sectionText id other) : front = other := by
  cases h with
  | kept stays =>
    cases h' with
    | kept => rfl
    | moved s moves => exact absurd moves (stays s)
  | moved s moves =>
    cases h' with
    | kept stays => exact absurd moves (stays s)
    | moved t moves' => rw [moves.unique moves']

/-- **Identifiers of the same segments get the same front** in the same section. The two halves of a
bound method have the same segments and differ in a separator only. -/
theorem Front.congr {id other front : String} (h : Front listing sectionText id front)
    (hid : Ident.qualify (some sectionText) id ∈ listing.keys)
    (hother : Ident.qualify (some sectionText) other ∈ listing.keys)
    (same : Ident.segments id = Ident.segments other) :
    Front listing sectionText other front := by
  have keys := Ident.segments_qualify_congr same sectionText
  cases h with
  | kept stays =>
    apply Front.kept
    intro s moves
    exact stays s (moves.of_segments hid (qualify_ne_empty sectionText id) keys.symm)
  | moved s moves =>
    exact Front.moved s (moves.of_segments hother (qualify_ne_empty sectionText other) keys)

end Fronts

/-! ## The entry of a lone identifier

Of a key it is known only that its entry was made from *some* record that documents the identifier
behind *some* front. With nothing else documenting the identifier it is this record, and then the
front is determined, because a front has no point in it and can be split off again. -/

section Alone

variable {options : Options} {files : List SourceFile} (points : PointFree files)
  {source : String × RawRecord} (hs : source ∈ sourceRecords files)
  (alone : DocumentsAlone files source)
include points hs alone

/-- Where nothing else documents an identifier, its own entry is the one behind its front. That
there is an entry under this key is inference keeping keys; that it is this one takes the
hypothesis, since a later record would have overwritten it without a trace. -/
theorem entry_of_alone {id front : String} (hd : source.2.Documents id)
    (behind : Front (merge options files) source.2.sectionText id front) :
    (merge options files).inferSections.get? (Ident.qualify (some front) id)
      = some { Record.ofRaw source.2 (options.href source.1 source.2.line) with
          id := Ident.qualify (some front) id
          bound := counterpart source.2 id } := by
  have point := points.sectionText hs
  obtain ⟨found, hfound, hm⟩ := exists_front (qualify_mem_keys_merge options hs hd)
  cases behind.unique hfound
  obtain ⟨record, hr⟩ := Catalog.mem_keys_iff_exists.1 hm
  have hsection := not_section_of_point points hr (point_mem_qualify front id)
  obtain ⟨other, ho, id', front', hd', behind', hkey, hrecord⟩ :=
    (origin_of_get? hr).of_symbol hsection
  obtain ⟨rfl, rfl⟩ := Ident.qualify_inj (behind.point_not_mem point)
    (behind'.point_not_mem (points.sectionText ho)) hkey
  cases alone other ho id hd hd'
  rw [hr, hrecord]

theorem lookup_of_alone {id front : String} (hd : source.2.Documents id)
    (behind : Front (merge options files) source.2.sectionText id front) {n : Nat}
    {record : Record} (hn : Shows (merge options files).inferSections n
      (Ident.qualify (some front) id) record) (hsection : record.isSection = false) :
    (Documentation.ofFiles options files).lookup id = some n := by
  have labelled := labelled_resolved options files
  have point := points.sectionText hs
  obtain ⟨m, hm⟩ := hn.lookup labelled hsection
  rw [Ident.stripSection_qualify (behind.point_not_mem point)] at hm
  obtain ⟨key, kept, hshows, hkept, hid⟩ := shows_of_lookup labelled hm
  obtain ⟨other, ho, id', front', hd', behind', rfl, -⟩ :=
    (origin_of_get? hshows.entry).of_symbol hkept
  rw [Ident.stripSection_qualify (behind'.point_not_mem (points.sectionText ho))] at hid
  subst hid
  cases alone other ho id' hd hd'
  cases behind.unique behind'
  rw [hn.number_unique hshows]
  exact hm

end Alone

end Listing

/-! ## The shown kinds

The files call both halves a method. Which side they are on is read from the identifier when the
record is shown, so here the point and the hash make the difference that they make nowhere else. -/

namespace Record

theorem shape_shown_of_method {record : Record} (h : record.kind = .method) :
    record.settled.shown.shape
      = (memberKind .method (Ident.stripSection record.id), Ident.stripSection record.id,
          record.bound) := by
  have hsection : record.isSection = false := by
    rw [isSection, h]
    rfl
  simp [shown, settled, hsection, h, shape, Kind.isMember]

theorem memberKind_of_point {id : String} (point : '.' ∈ id.toList) (hash : '#' ∉ id.toList)
    (event : '@' ∉ id.toList) (dollar : id.toList.head? ≠ some '$') :
    memberKind .method id = .classMethod := by
  simp [memberKind, point, hash, event, dollar, Kind.onSide]

theorem memberKind_of_hash {id : String} (hash : '#' ∈ id.toList) (event : '@' ∉ id.toList)
    (dollar : id.toList.head? ≠ some '$') : memberKind .method id = .instanceMethod := by
  simp [memberKind, hash, event, dollar, Kind.onSide]

end Record

theorem Ident.exists_instanceMember {id : String} (point : '.' ∈ id.toList) :
    ∃ member before after, Ident.instanceMember id = some member ∧
      id.toList = before ++ '.' :: after ∧ member.toList = before ++ '#' :: after := by
  obtain ⟨before, after, hcut, hid⟩ := Text.exists_lastCut point
  refine ⟨String.ofList (before ++ '#' :: after), before, after, ?_, hid, String.toList_ofList⟩
  rw [Ident.instanceMember, hcut]
  rfl

/-- So the one is a method of the class and the other one of its instances, unless the identifier is
that of an event or a utility. Those are recognised before either separator is looked at, and a `#`
that stands there already would make both halves instance methods; the three conditions are these
three cases. -/
theorem Ident.memberKinds {id member : String} {before after : List Char}
    (hid : id.toList = before ++ '.' :: after) (hmember : member.toList = before ++ '#' :: after)
    (hash : '#' ∉ id.toList) (event : '@' ∉ id.toList) (dollar : id.toList.head? ≠ some '$') :
    Record.memberKind .method id = .classMethod ∧
      Record.memberKind .method member = .instanceMethod := by
  constructor
  · refine Record.memberKind_of_point ?_ hash event dollar
    rw [hid]
    exact List.mem_append_right _ List.mem_cons_self
  · refine Record.memberKind_of_hash ?_ ?_ ?_
    · rw [hmember]
      exact List.mem_append_right _ List.mem_cons_self
    · rw [hid] at event
      rw [hmember]
      simpa using event
    · rw [hid] at dollar
      rw [hmember]
      -- a dollar in front of the point is in front of the hash as well; with nothing in front, the
      -- hash itself comes first
      cases before with
      | nil => simp
      | cons c rest => exact dollar

/-! ## The finished documentation

Each half is followed from its record to its node, and the two nodes are then compared. -/

/-- A half of a bound method in the finished documentation. It is stated for whichever of the two
identifiers, and used for both with the same front. -/
theorem Listing.half_of_alone {options : Options} {files : List SourceFile}
    (points : PointFree files) {source : String × RawRecord} (hs : source ∈ sourceRecords files)
    (alone : DocumentsAlone files source) (method : source.2.kind = .method) {id front : String}
    (hd : source.2.Documents id)
    (behind : Front (merge options files) source.2.sectionText id front) :
    ∃ n entry record, Shows (merge options files).inferSections n
        (Ident.qualify (some front) id) entry ∧
      (Documentation.ofFiles options files).lookup id = some n ∧
      (Documentation.ofFiles options files).record? n = some record ∧
      record.bound = counterpart source.2 id ∧
      record.content = source.2.content (options.href source.1 source.2.line) ∧
      record.kind = Record.memberKind .method id := by
  have labelled := labelled_resolved options files
  have hentry := entry_of_alone points hs alone hd behind
  have hsection := not_section_of_point points hentry (point_mem_qualify front id)
  -- only a section could be the nameless root
  obtain ⟨n, hn⟩ := exists_shows hentry fun hnameless => by
    rw [hsection] at hnameless
    cases hnameless.1
  obtain ⟨node, hnode, -, -, -, -, hcontent⟩ := hn.fixed labelled
  obtain ⟨same, hsame, hshape⟩ := hn.shape labelled
  cases Option.some.inj (hnode.symm.trans hsame)
  rw [Record.shape_shown_of_method method] at hshape
  simp only [Record.shape, Prod.mk.injEq,
    Ident.stripSection_qualify (behind.point_not_mem (points.sectionText hs))] at hshape
  obtain ⟨hkind, -, hbound⟩ := hshape
  refine ⟨n, _, node.record, hn, ?_, ?_, hbound, hcontent, hkind⟩
  · exact lookup_of_alone points hs alone hd behind hn hsection
  · rw [Documentation.record?, ofFiles_eq_publish, hnode]
    rfl

/-- **A bound method ends as a linked pair**: both halves are found, each names the other, they say
the same, and they stand side by side. The bound identifiers are those that merging wrote before any
section was inferred; that they are still right is the point of the theorem. -/
theorem Documentation.exists_isPair (options : Options) {files : List SourceFile}
    (points : PointFree files) {source : String × RawRecord} (hs : source ∈ sourceRecords files)
    (bound : source.2.bound = true) (method : source.2.kind = .method)
    (point : '.' ∈ source.2.id.toList) (alone : DocumentsAlone files source) :
    ∃ member n m first second, Ident.instanceMember source.2.id = some member ∧
      IsPair (Documentation.ofFiles options files) source.2.id member n m first second := by
  obtain ⟨member, before, after, hmember, hid, hm⟩ := Ident.exists_instanceMember point
  have own : source.2.Documents source.2.id := by
    refine Or.inl ⟨?_, rfl⟩
    rw [method]
    decide
  have other : source.2.Documents member := Or.inr ⟨bound, method, hmember⟩
  have hown := Listing.qualify_mem_keys_merge options hs own
  have hother := Listing.qualify_mem_keys_merge options hs other
  obtain ⟨front, behind, -⟩ := Listing.exists_front hown
  have behind' := behind.congr hown hother (Ident.segments_instanceMember hmember).symm
  -- both halves stand behind the same front, so each can be followed on its own
  obtain ⟨n, entry, first, hn, hlookup, hrecord, hbound, hcontent, hkind⟩ :=
    Listing.half_of_alone points hs alone method own behind
  obtain ⟨m, entry', second, hn', hlookup', hrecord', hbound', hcontent', hkind'⟩ :=
    Listing.half_of_alone points hs alone method other behind'
  refine ⟨member, n, m, first, second, hmember, ?_⟩
  constructor
  case lookup_id => exact hlookup
  case lookup_member => exact hlookup'
  case record_id => exact hrecord
  case record_member => exact hrecord'
  case bound_id =>
    rw [hbound, Listing.counterpart, if_pos rfl]
    exact Listing.boundInstance_eq_some_iff.2 ⟨bound, method, hmember⟩
  case bound_member =>
    rw [hbound', Listing.counterpart, if_neg (Ident.ne_of_instanceMember hmember)]
  case content => rw [hcontent, hcontent']
  case siblings =>
    intro last
    exact hn.siblings (Listing.labelled_resolved options files) hn'
      (Ident.parentKey_qualify_instanceMember front hmember last)
  case kinds =>
    intro hash event dollar
    rw [hkind, hkind']
    exact Ident.memberKinds hid hm hash event dollar

def hiddenMethod : RawRecord :=
  { RawRecord.brief "Element.Methods.hide" .method none with line := 7, bound := true }

def hiddenMethodFiles : List SourceFile :=
  [SourceFile.ofRecords "hide.json" [hiddenMethod],
   SourceFile.ofRecords "dom.json"
    [RawRecord.brief "DOM" .sectionKind none, RawRecord.brief "Element.Methods" .mixin (some "DOM")]]

/-- The mixin documents neither half: it lacks their last segment. -/
theorem documentsAlone_hiddenMethod :
    DocumentsAlone hiddenMethodFiles ("hide.json", hiddenMethod) := by
  intro other ho id hd hd'
  have sources : sourceRecords hiddenMethodFiles
      = [("hide.json", hiddenMethod), ("dom.json", RawRecord.brief "DOM" .sectionKind none),
         ("dom.json", RawRecord.brief "Element.Methods" .mixin (some "DOM"))] := rfl
  rw [sources] at ho
  simp only [List.mem_cons, List.not_mem_nil, or_false] at ho
  rcases ho with rfl | rfl | rfl
  · rfl
  · exact absurd rfl hd'.not_section
  · have same := hd.segments_eq.trans hd'.segments_eq.symm
    exact absurd same (by decide)

theorem Documentation.isPair_hiddenMethod :
    PointFree hiddenMethodFiles ∧
      ("hide.json", hiddenMethod) ∈ sourceRecords hiddenMethodFiles ∧
      hiddenMethod.bound = true ∧ hiddenMethod.kind = .method ∧ '.' ∈ hiddenMethod.id.toList ∧
      DocumentsAlone hiddenMethodFiles ("hide.json", hiddenMethod) ∧
      ∃ member n m first second, Ident.instanceMember hiddenMethod.id = some member ∧
        IsPair (Documentation.ofFiles Options.plain hiddenMethodFiles) hiddenMethod.id member n m
          first second := by
  have points : PointFree hiddenMethodFiles := by decide
  have hs : ("hide.json", hiddenMethod) ∈ sourceRecords hiddenMethodFiles :=
    List.mem_of_getElem? (i := 0) rfl
  have point : '.' ∈ hiddenMethod.id.toList := by decide
  exact ⟨points, hs, rfl, rfl, point, documentsAlone_hiddenMethod,
    Documentation.exists_isPair Options.plain points hs rfl rfl point documentsAlone_hiddenMethod⟩

end DocTree
