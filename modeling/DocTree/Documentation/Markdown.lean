import DocTree.Anchor
import DocTree.Documentation.Basic

/-!
# Documentation as Markdown

First an index of nested list items, then a block for each record, both in tree order. Every block
begins with an anchor of its own, to which the index links, so that the links hold whatever anchors
a viewer makes from headings.

The index and the blocks are made from one list of records and one list of anchors, in step, and
this is what makes the k-th link lead to the k-th block. The index leaves nothing out that the tree
has: `Proofs.IndexReadBack` reads the tree, the titles and the kinds off it again.
-/

set_option autoImplicit false

namespace DocTree

namespace Record

/-! ## One record

A section is headed by its name, which keeps its case, since its identifier does not; every other
record by its identifier, because there may be many of one name. -/

/-- The name in a heading: a section's name, and the identifier of any other record. It is put there
as it is, line ends and markup included; in the index its brackets are escaped. -/
def title (record : Record) : String := if record.isSection then record.name else record.id

def indexLine (depth : Nat) (record : Record) (anchor : String) : String :=
  String.ofList (List.replicate (2 * depth) ' ') ++ indexItem record.title anchor
    ++ " _" ++ record.kind.name ++ "_\n"

def namesParagraph (word : String) : List String → List String
  | [] => []
  | names => [word ++ ": " ++ ", ".intercalate names]

/-- The description, unless it says the same as the short one. A missing one is not different from
another missing one. -/
def longDescription (record : Record) : List String :=
  if record.shortDescription = record.description then [] else record.description.toList

def paragraphs (record : Record) (anchor : String) : List String :=
  ["<a id=\"" ++ anchor ++ "\"></a>",
   (if record.isSection then "## " else "### ") ++ record.title]
    ++ (if record.isSection then [] else ["_" ++ record.kind.name ++ "_"])
    ++ record.shortDescription.toList
    ++ record.longDescription
    ++ namesParagraph "Aliases" record.aliases
    ++ namesParagraph "Subclasses" (record.subclasses.getD [])
    ++ record.href.toList.map fun href => "[source](" ++ href ++ ")"

/-- The block of a record: its paragraphs, an empty line between any two. The last one ends in a
line end too. -/
def block (record : Record) (anchor : String) : String :=
  "\n".intercalate ((record.paragraphs anchor).map (· ++ "\n"))

end Record

/-! ## The document -/

namespace Documentation

def anchors (doc : Documentation) : List String :=
  Anchor.assign (doc.walkRecords.map fun entry => entry.2.path)

def indexLines (doc : Documentation) : List String :=
  doc.walkRecords.zipWith (fun entry anchor => entry.2.indexLine entry.1 anchor) doc.anchors

def blocks (doc : Documentation) : List String :=
  doc.walkRecords.zipWith (fun entry anchor => entry.2.block anchor) doc.anchors

def markdown (doc : Documentation) : String :=
  if doc.walkRecords.isEmpty then ""
  else "## Index\n\n" ++ String.join doc.indexLines ++ String.join (doc.blocks.map ("\n" ++ ·))

end Documentation

end DocTree
