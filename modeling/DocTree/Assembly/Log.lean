import DocTree.Assembly.Basic
import DocTree.Log.Event
import DocTree.Text.Quoted

/-!
# The log of an assembly

What an assembly reports: after each step how many records there are, and in full detail every
record that is cloned, overwritten, moved to a section, or left without a section, a parent or the
target of a link. The events are worked out from the files and from what the steps gave; the steps
themselves report nothing.

So a step can be read, and proved about, without its log, at the price that a part of what it does
is found out a second time here. The order of the events is that in which the work is done, which
shows at one place: nodes are attached from the last to the first, and the records without a parent
are reported in that order.
-/

set_option autoImplicit false

namespace DocTree

open DocTree.Log

def countField (name : String) (n : Nat) : String × String :=
  (name, String.ofList (Text.decimal n))

namespace Listing

/-! ## Merging -/

def clonedEvents (raw : RawRecord) : List Event :=
  (boundInstance raw).toList.map fun instanceId =>
    ⟨.trace, .merging, "cloned bound method",
      [("class", raw.id), ("instance", instanceId)]⟩

def overwrittenEvents (seen : List String) : List String → List Event
  | [] => []
  | key :: rest =>
    let event : Event :=
      ⟨.trace, .merging, "record overwritten by later definition", [("id", key)]⟩
    (if seen.contains key then [event] else []) ++ overwrittenEvents (key :: seen) rest

def mergeEventsFrom (seen : List String) : List RawRecord → List Event
  | [] => []
  | raw :: rest =>
    let keys := (placedRecords none raw).map Prod.fst
    clonedEvents raw ++ overwrittenEvents seen keys ++ mergeEventsFrom (keys ++ seen) rest

def mergeEvents (files : List SourceFile) : List Event :=
  mergeEventsFrom [""] (files.flatMap fun file => file.records.values)

/-! ## Sections -/

def sectionEvent (known : List (Option String × String)) (key : String) : Event :=
  match inferredSection known key with
  | some name =>
    ⟨.trace, .sections, "section inferred",
      [("id", key), ("section", Text.quote name)]⟩
  | none => ⟨.trace, .sections, "no section found", [("id", key)]⟩

def sectionEvents (listing : Listing) : List Event :=
  let known := knownSections listing.keys
  let lacking := listing.keys.filter lacksSection
  let unresolved := lacking.filter fun key => (inferredSection known key).isNone
  lacking.map (sectionEvent known)
    ++ [⟨.debug, .sections, "sections resolved",
      [countField "unresolved" unresolved.length]⟩]

end Listing

/-! ## The forest -/

/-- Reports the records that name a parent and have none, the last one first. Nodes are attached in
that order, and each is reported when its turn comes. -/
def Forest.orphanEvents (order : List String) : List Event :=
  (order.zip (Forest.links order).parents.toList).reverse.filterMap fun entry =>
    if (Ident.parentKey entry.1).isSome && entry.2.isNone then
      some ⟨.trace, .forest, "no parent record", [("id", entry.1)]⟩
    else none

/-! ## Links -/

namespace Documentation

def aliasEvent (doc : Documentation) (id : String) (record : Record) : List Event :=
  match record.aliasOf, doc.aliasTarget record with
  | some target, none =>
    [⟨.trace, .finishing, "alias target not found",
      [("id", id), ("alias_of", Text.quote target)]⟩]
  | _, _ => []

def superclassEvent (doc : Documentation) (id : String) (record : Record) : List Event :=
  match record.superclass, doc.superclassTarget record with
  | some target, none =>
    if record.kind = .classKind then
      [⟨.trace, .finishing, "superclass not found",
        [("id", id), ("superclass", Text.quote target)]⟩]
    else []
  | _, _ => []

def linkEvents (doc : Documentation) : List Event :=
  doc.listed.flatMap (fun entry => doc.aliasEvent entry.1 entry.2)
    ++ doc.listed.flatMap (fun entry => doc.superclassEvent entry.1 entry.2)

end Documentation

/-! ## All steps -/

def Assembly.events (assembly : Assembly) (files : List SourceFile) : List Event :=
  let doc := assembly.documentation
  Listing.mergeEvents files
    ++ [⟨.debug, .assembly, "ingested", [countField "records" (assembly.merged.size - 1)]⟩]
    ++ Listing.sectionEvents assembly.merged
    ++ Forest.orphanEvents assembly.order
    ++ [⟨.debug, .assembly, "tree assembled",
      [countField "top_level" assembly.forest.roots.length]⟩]
    ++ (Documentation.settle assembly.forest).linkEvents
    ++ [⟨.debug, .assembly, "documentation finalized",
      [countField "records" doc.size, countField "top_level" doc.topLevel.length]⟩]

end DocTree
