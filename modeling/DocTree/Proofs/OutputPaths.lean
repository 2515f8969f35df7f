import DocTree.Proofs.Replacements
import DocTree.Proofs.WalkOrder

/-!
# Output paths do not clash

A path has a word between points for each hash and for the first `@` of its identifier, and a
segment of the identifier could be that word. When none is, the path can be read back: a word
between points begins a segment of the path, and what a path has between two separators that are
copied is a segment of the identifier, so any such word was put in. Words that touch, empty segments
and the `@`s that stay make no difference to the reading, since each word brings both its points.

Every node of a documentation has its path from the key under which it is listed, so records with
different keys are published under different paths.

Paths are kept apart by giving a function that reads them back (`readPath`). Comparing two paths
with each other would need a case for every way in which their identifiers can differ; with a reader
only one identifier is looked at, and all that has to be known is that no word is found where none
was put in (`head_splitOnP_of_word`).

The path is made by two replacements, of which the second looks for the first `@` only. Both are put
into one reading from the left first (`toList_outputPath`), so that the induction has one step for
each character; a flag says whether the first `@` is still to come, and the reader has the same
flag.

The condition excludes the words as whole segments. The first segment could be one of them without
harm, as nothing is in front of it; segments that merely contain a word, such as `prototypes`, are
allowed.
-/

set_option autoImplicit false

namespace DocTree

open DocTree.Text

namespace Ident

/-! ## The path in one reading

The hashes go first in the program, and what they are replaced by has no `@`. So the first `@` of
the result is that of the identifier, and the two replacements do not meet. -/

/-- What stands in a path for a hash. The word for the first `@` has its points as well, so neither
word can run into what is next to it. -/
def hashWord : List Char := ".prototype.".toList

def eventWord : List Char := ".event.".toList

/-- The path of an identifier, read from left to right; `event` tells whether an `@` is still to come
that is published as a word. -/
def pathFrom : Bool → List Char → List Char
  | _, [] => []
  | event, c :: rest =>
    if c = '#' then hashWord ++ pathFrom event rest
    else if event ∧ c = '@' then eventWord ++ pathFrom false rest
    else c :: pathFrom event rest

theorem pathFrom_cons_hash (event : Bool) (rest : List Char) :
    pathFrom event ('#' :: rest) = hashWord ++ pathFrom event rest := if_pos rfl

theorem pathFrom_cons_event (rest : List Char) :
    pathFrom true ('@' :: rest) = eventWord ++ pathFrom false rest := rfl

theorem pathFrom_cons {event : Bool} {c : Char} (hash : c ≠ '#') (at_ : ¬ (event = true ∧ c = '@'))
    (rest : List Char) : pathFrom event (c :: rest) = c :: pathFrom event rest := by
  rw [pathFrom, if_neg hash, if_neg at_]

theorem pathFrom_cons_copied {event : Bool} {c : Char} (h : isSeparator c = false)
    (rest : List Char) : pathFrom event (c :: rest) = c :: pathFrom event rest := by
  apply pathFrom_cons
  · rintro rfl
    cases h
  · rintro ⟨-, rfl⟩
    cases h

theorem replaceAll_hash (rest : List Char) :
    replaceAll ['#'] hashWord ('#' :: rest) = hashWord ++ replaceAll ['#'] hashWord rest :=
  replaceAll_append_self hashWord (List.cons_ne_nil _ _) rest

theorem replaceAll_of_ne_hash {c : Char} (h : c ≠ '#') (rest : List Char) :
    replaceAll ['#'] hashWord (c :: rest) = c :: replaceAll ['#'] hashWord rest :=
  replaceAll_cons_copied hashWord fun hprefix => h (List.cons_prefix_cons.1 hprefix).1.symm

theorem pathFrom_false (text : List Char) :
    pathFrom false text = replaceAll ['#'] hashWord text := by
  induction text with
  | nil => rfl
  | cons c rest ih =>
    by_cases hash : c = '#'
    · subst hash
      rw [pathFrom_cons_hash, replaceAll_hash, ih]
    · rw [pathFrom_cons hash (by simp), replaceAll_of_ne_hash hash, ih]

theorem nameEvent_append {a : List Char} (h : '@' ∉ a) (rest : List Char) :
    nameEvent (a ++ rest) = a ++ nameEvent rest := by
  rw [nameEvent, nameEvent, firstCut_append (free_of_not_mem h)]
  cases firstCut (· == '@') rest with
  | none => rfl
  | some cut => simp

theorem nameEvent_replaceAll (text : List Char) :
    nameEvent (replaceAll ['#'] hashWord text) = pathFrom true text := by
  induction text with
  | nil => rfl
  | cons c rest ih =>
    by_cases hash : c = '#'
    · subst hash
      rw [replaceAll_hash, nameEvent_append (by decide), ih, pathFrom_cons_hash]
    · rw [replaceAll_of_ne_hash hash]
      by_cases event : c = '@'
      · subst event
        rw [pathFrom_cons_event, pathFrom_false]
        rfl
      · have single : '@' ∉ [c] := fun h => event (List.mem_singleton.1 h).symm
        rw [pathFrom_cons hash fun h => event h.2, ← ih]
        exact nameEvent_append single _

/-- **The path of an identifier is made in one reading.** The reader goes from left to right as
well, so the two can be compared one character after the other. -/
theorem toList_outputPath (id : String) : (outputPath id).toList = pathFrom true id.toList := by
  rw [outputPath, String.toList_ofList]
  exact nameEvent_replaceAll id.toList

/-! ## Reading it back

The reader looks for a word at each place and passes over it when there is one. It is defined for
all texts and reads back only those that are paths. -/

/-- Reads a path back after passing over `skip` characters of a word already read; a word for an
event is read once only. -/
def readAfter : Bool → Nat → List Char → List Char
  | _, _, [] => []
  | event, skip + 1, _ :: rest => readAfter event skip rest
  | event, 0, c :: rest =>
    if hashWord.isPrefixOf (c :: rest) then '#' :: readAfter event (hashWord.length - 1) rest
    else if event ∧ eventWord.isPrefixOf (c :: rest) then
      '@' :: readAfter false (eventWord.length - 1) rest
    else c :: readAfter event 0 rest

def readPath (path : String) : String := String.ofList (readAfter true 0 path.toList)

theorem readAfter_drop (event : Bool) (skip : Nat) (text : List Char) :
    readAfter event skip text = readAfter event 0 (text.drop skip) := by
  induction text generalizing skip with
  | nil => simp [readAfter]
  | cons c rest ih =>
    cases skip with
    | zero => rfl
    | succ skip => rw [readAfter, ih, List.drop_succ_cons]

theorem readAfter_hashWord (event : Bool) (rest : List Char) :
    readAfter event 0 (hashWord ++ rest) = '#' :: readAfter event 0 rest := by
  have hprefix : hashWord.isPrefixOf ('.' :: ("prototype.".toList ++ rest)) = true :=
    List.isPrefixOf_iff_prefix.2 (List.prefix_append hashWord rest)
  have whole : hashWord ++ rest = '.' :: ("prototype.".toList ++ rest) := rfl
  rw [whole, readAfter, if_pos hprefix, readAfter_drop]
  rfl

theorem readAfter_eventWord (rest : List Char) :
    readAfter true 0 (eventWord ++ rest) = '@' :: readAfter false 0 rest := by
  have hprefix : eventWord.isPrefixOf ('.' :: ("event.".toList ++ rest)) = true :=
    List.isPrefixOf_iff_prefix.2 (List.prefix_append eventWord rest)
  have other : hashWord.isPrefixOf ('.' :: ("event.".toList ++ rest)) = false := rfl
  have whole : eventWord ++ rest = '.' :: ("event.".toList ++ rest) := rfl
  rw [whole, readAfter, other, if_neg Bool.false_ne_true, if_pos ⟨rfl, hprefix⟩, readAfter_drop]
  rfl

theorem readAfter_cons {event : Bool} {c : Char} {rest : List Char} (hash : ¬ hashWord <+: c :: rest)
    (at_ : ¬ eventWord <+: c :: rest) :
    readAfter event 0 (c :: rest) = c :: readAfter event 0 rest := by
  rw [readAfter, if_neg fun h => hash (List.isPrefixOf_iff_prefix.1 h),
    if_neg fun h => at_ (List.isPrefixOf_iff_prefix.1 h.2)]

/-! ## Words and segments

A word that the reader finds begins at a point and goes up to the next one. Behind a separator that
is copied this can only be a whole segment of the identifier, because every separator of the
identifier is published with a point in front or as it is. -/

/-- Whether no segment of the identifier is a word that stands in paths for a separator. The points
around a word belong to it in a path, so words inside of longer segments do no harm. -/
def WordFree (id : String) : Prop := ∀ s ∈ segments id, s ≠ "prototype" ∧ s ≠ "event"

instance : DecidablePred WordFree := fun id =>
  inferInstanceAs (Decidable (∀ s ∈ segments id, s ≠ "prototype" ∧ s ≠ "event"))

/-- **What a path has up to a point is the first segment of its identifier**, since a separator is
published with a point in front or stays. -/
theorem head_splitOnP_of_word {event : Bool} {word text : List Char}
    (free : ∀ c ∈ word, isSeparator c = false) (h : word ++ ['.'] <+: pathFrom event text) :
    ∃ others, text.splitOnP isSeparator = word :: others := by
  induction word generalizing text with
  | nil =>
    cases text with
    | nil => exact absurd (List.prefix_nil.1 h) (List.cons_ne_nil _ _)
    | cons c rest =>
      cases hc : isSeparator c with
      | true =>
        rw [List.splitOnP_cons_eq_if_modifyHead, if_pos hc]
        exact ⟨_, rfl⟩
      | false =>
        rw [pathFrom_cons_copied hc] at h
        cases (List.cons_prefix_cons.1 h).1
        cases hc
  | cons d word ih =>
    have hd := free d List.mem_cons_self
    have point : '.' ≠ d := by
      rintro rfl
      cases hd
    cases text with
    | nil => exact absurd (List.prefix_nil.1 h) (List.cons_ne_nil _ _)
    | cons c rest =>
      -- the first character is no separator, for no word begins with it
      by_cases hash : c = '#'
      · subst hash
        exact absurd (List.cons_prefix_cons.1 h).1.symm point
      · by_cases at_ : event = true ∧ c = '@'
        · obtain ⟨rfl, rfl⟩ := at_
          exact absurd (List.cons_prefix_cons.1 h).1.symm point
        · rw [pathFrom_cons hash at_] at h
          obtain ⟨rfl, hrest⟩ := List.cons_prefix_cons.1 h
          obtain ⟨others, ho⟩ := ih (fun c hc => free c (List.mem_cons_of_mem _ hc)) hrest
          obtain ⟨first, later, hp, hcons⟩ := exists_splitOnP_cons hd rest
          cases ho.symm.trans hp
          exact ⟨others, hcons⟩

def pathWords : List (List Char) := ["prototype".toList, "event".toList]

theorem free_of_mem_pathWords {word : List Char} (h : word ∈ pathWords) :
    ∀ c ∈ word, isSeparator c = false := by
  have hash : Plain "prototype" := by decide
  have event : Plain "event" := by decide
  rcases List.mem_cons.1 h with rfl | h
  · exact hash
  · cases List.mem_singleton.1 h
    exact event

/-- **A path is read back** if no segment behind the first is one of the words. The first one may
be, as there is no separator in front of it for which the word could stand. -/
theorem readAfter_pathFrom (event : Bool) {text : List Char}
    (free : ∀ piece ∈ (text.splitOnP isSeparator).tail, piece ∉ pathWords) :
    readAfter event 0 (pathFrom event text) = text := by
  induction text generalizing event with
  | nil => rfl
  | cons c rest ih =>
    cases hc : isSeparator c with
    | false =>
      obtain ⟨first, others, hp, hcons⟩ := exists_splitOnP_cons hc rest
      have point : '.' ≠ c := by
        rintro rfl
        cases hc
      rw [hcons, List.tail_cons] at free
      have hrest := ih event (by rwa [hp, List.tail_cons])
      rw [pathFrom_cons_copied hc, readAfter_cons (fun h => point (List.cons_prefix_cons.1 h).1)
          (fun h => point (List.cons_prefix_cons.1 h).1), hrest]
    | true =>
      rw [List.splitOnP_cons_eq_if_modifyHead, if_pos hc, List.tail_cons] at free
      have later : ∀ event, readAfter event 0 (pathFrom event rest) = rest := fun event =>
        ih event fun piece hm => free piece (List.mem_of_mem_tail hm)
      -- a word that follows the separator would be the next segment
      have unread : ∀ word ∈ pathWords, ¬ word ++ ['.'] <+: pathFrom event rest := by
        intro word hw hprefix
        obtain ⟨others, ho⟩ := head_splitOnP_of_word (free_of_mem_pathWords hw) hprefix
        exact free word (ho ▸ List.mem_cons_self) hw
      by_cases hash : c = '#'
      · subst hash
        rw [pathFrom_cons_hash, readAfter_hashWord, later]
      · by_cases at_ : event = true ∧ c = '@'
        · obtain ⟨rfl, rfl⟩ := at_
          rw [pathFrom_cons_event, readAfter_eventWord, later]
        · rw [pathFrom_cons hash at_, readAfter_cons, later]
          · exact fun h => unread _ List.mem_cons_self (List.cons_prefix_cons.1 h).2
          · exact fun h => unread _ (List.mem_cons_of_mem _ List.mem_cons_self)
              (List.cons_prefix_cons.1 h).2

/-- **The path of an identifier without the words can be read back**, so two such identifiers never
share a path. -/
theorem readPath_outputPath {id : String} (h : WordFree id) : readPath (outputPath id) = id := by
  have free : ∀ piece ∈ (id.toList.splitOnP isSeparator).tail, piece ∉ pathWords := by
    intro piece hm hw
    have hs := h _ (List.mem_map_of_mem (List.mem_of_mem_tail hm))
    rcases List.mem_cons.1 hw with rfl | hw
    · exact hs.1 rfl
    · cases List.mem_singleton.1 hw
      exact hs.2 rfl
  rw [readPath, toList_outputPath, readAfter_pathFrom true free, String.ofList_toList]

end Ident

/-! ## The paths of a documentation

What holds of identifiers is brought over to nodes and to what is found by identifiers. Sections
have paths too and are left out; they are published among symbols, and nothing keeps the two apart.
-/

namespace Documentation

/-- No two records of the documentation that are no sections and have different keys are published
under one path. -/
structure PathsApart (doc : Documentation) : Prop where
  /-- A node that is no section is listed, and published under the path that its key gives, ... -/
  listed : ∀ n ∈ doc.walk.map Prod.snd, ∀ node, doc.nodes[n]? = some node →
    node.record.isSection = false →
    node.key ∈ doc.list.keys ∧ node.record.path = Ident.outputPath node.key
  /-- ... which is the path of no node with another key. -/
  nodes : ∀ n ∈ doc.walk.map Prod.snd, ∀ m ∈ doc.walk.map Prod.snd, ∀ node other,
    doc.nodes[n]? = some node → doc.nodes[m]? = some other →
    node.record.isSection = false → other.record.isSection = false →
    node.key ≠ other.key → node.record.path ≠ other.record.path
  /-- So what is found under different identifiers has different paths. -/
  found : ∀ id other record kept, doc.get? id = some record → doc.get? other = some kept →
    id ≠ other → record.path ≠ kept.path

variable (options : Options) (files : List SourceFile)

/-- A settled node has its path from its key, and links and shown forms leave both alone. So the
path of a listed record can be found from the key under which it is listed. -/
theorem listed_ofFiles {n : Nat} (reached : n ∈ (ofFiles options files).walk.map Prod.snd)
    {node : Node} (hnode : (ofFiles options files).nodes[n]? = some node)
    (hsection : node.record.isSection = false) :
    node.key ∈ (ofFiles options files).list.keys ∧
      node.record.path = Ident.outputPath node.key := by
  have once := Assembly.visited_once options files
  have hvisited : n ∈ (Assembly.ofFiles options files).forest.visited := by
    rwa [Assembly.map_snd_walk] at reached
  have hfixed : (ofFiles options files).nodes[n]?.map Node.fixed
      = (Assembly.ofFiles options files).forest.nodes[n]?.map fun node => node.settled.fixed :=
    getElem?_ofForest once hvisited
  rw [hnode] at hfixed
  obtain ⟨base, hbase, he⟩ := Option.map_eq_some_iff.1 hfixed.symm
  have hkey : base.settled.key = node.key := congrArg Fixed.key he
  have hpath : base.settled.record.path = node.record.path := congrArg Fixed.path he
  have hkind : base.record.isSection = node.record.isSection := congrArg Fixed.isSection he
  obtain ⟨m, hm⟩ := Option.isSome_iff_exists.1
    (isSome_lookup_ofForest once hvisited hbase (hkind.trans hsection))
  rw [← hkey, ← hpath]
  exact ⟨Catalog.mem_keys_of_get? hm, rfl⟩

theorem exists_node_of_get? {id : String} {record : Record}
    (h : (ofFiles options files).get? id = some record) :
    ∃ n ∈ (ofFiles options files).walk.map Prod.snd, ∃ node,
      (ofFiles options files).nodes[n]? = some node ∧ node.record.isSection = false ∧
        node.key = id ∧ node.record = record := by
  obtain ⟨n, hlookup, hrecord⟩ := Option.bind_eq_some_iff.1 h
  obtain ⟨node, hnode, hsection, hkey⟩ := node_of_lookup hlookup
  obtain ⟨other, hother, rfl⟩ := Option.map_eq_some_iff.1 hrecord
  cases Option.some.inj (hnode.symm.trans hother)
  refine ⟨n, ?_, node, hnode, hsection, hkey, rfl⟩
  rw [Assembly.map_snd_walk]
  exact (of_lookup_ofForest (Assembly.visited_once options files) hlookup).1

/-- **Output paths do not clash** where no segment is a word that stands for a separator: those of
identifiers, and those of the records of every documentation. -/
theorem outputPaths_apart :
    (∀ id other, Ident.WordFree id → Ident.WordFree other → id ≠ other →
      Ident.outputPath id ≠ Ident.outputPath other) ∧
    ∀ options files, (∀ id ∈ (ofFiles options files).list.keys, Ident.WordFree id) →
      PathsApart (ofFiles options files) := by
  have apart : ∀ id other, Ident.WordFree id → Ident.WordFree other → id ≠ other →
      Ident.outputPath id ≠ Ident.outputPath other := by
    intro id other hid hother hne he
    apply hne
    rw [← Ident.readPath_outputPath hid, he, Ident.readPath_outputPath hother]
  refine ⟨apart, fun options files free => ?_⟩
  have nodes : ∀ n ∈ (ofFiles options files).walk.map Prod.snd,
      ∀ m ∈ (ofFiles options files).walk.map Prod.snd, ∀ node other,
      (ofFiles options files).nodes[n]? = some node →
      (ofFiles options files).nodes[m]? = some other →
      node.record.isSection = false → other.record.isSection = false →
      node.key ≠ other.key → node.record.path ≠ other.record.path := by
    intro n hn m hm node other hnode hother hsection hkept hne
    obtain ⟨hkey, hpath⟩ := listed_ofFiles options files hn hnode hsection
    obtain ⟨hkey', hpath'⟩ := listed_ofFiles options files hm hother hkept
    rw [hpath, hpath']
    exact apart _ _ (free _ hkey) (free _ hkey') hne
  constructor
  case listed => exact fun n hn node hnode => listed_ofFiles options files hn hnode
  case nodes => exact nodes
  case found =>
    intro id other record kept hrecord hkept hne
    obtain ⟨n, hn, node, hnode, hsection, rfl, rfl⟩ := exists_node_of_get? options files hrecord
    obtain ⟨m, hm, node', hnode', hsection', rfl, rfl⟩ := exists_node_of_get? options files hkept
    exact nodes n hn m hm node node' hnode hnode' hsection hsection' hne

def memberFiles : List SourceFile :=
  [SourceFile.ofRecords "foo.json"
    [RawRecord.brief "Foo" .classKind none, RawRecord.brief "Foo#bar" .method none,
     RawRecord.brief "Foo@bar" .event none]]

theorem order_memberFiles :
    (Listing.merge Options.plain memberFiles).inferSections.canonicalOrder
      = ["", ".Foo", ".Foo#bar", ".Foo@bar"] := by
  have keys : (Listing.merge Options.plain memberFiles).inferSections.keys
      = ["", ".Foo", ".Foo#bar", ".Foo@bar"] := by decide +kernel
  exact Listing.canonicalOrder_eq (.of_eq keys) (by decide +kernel)

theorem outputPaths_memberFiles :
    Ident.WordFree "Foo#bar" ∧ Ident.WordFree "Foo@bar" ∧
      Ident.outputPath "Foo#bar" ≠ Ident.outputPath "Foo@bar" ∧
      (ofFiles Options.plain memberFiles).list.keys = ["Foo", "Foo#bar", "Foo@bar"] ∧
      PathsApart (ofFiles Options.plain memberFiles) := by
  have keys : (ofFiles Options.plain memberFiles).list.keys = ["Foo", "Foo#bar", "Foo@bar"] := by
    rw [Listing.ofFiles_of_order order_memberFiles]
    decide +kernel
  have free : ∀ id ∈ (ofFiles Options.plain memberFiles).list.keys, Ident.WordFree id := by
    rw [keys]
    decide
  have hash : Ident.WordFree "Foo#bar" := by decide
  have event : Ident.WordFree "Foo@bar" := by decide
  exact ⟨hash, event, outputPaths_apart.1 _ _ hash event (by decide), keys,
    outputPaths_apart.2 Options.plain memberFiles free⟩

/-- A segment that is one of the words is taken for a separator. -/
example : Ident.outputPath "Foo.prototype.bar" = Ident.outputPath "Foo#bar" := by decide

end Documentation

end DocTree
