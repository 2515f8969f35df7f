import DocTree.Text.Cut

/-!
# Identifiers

A documented symbol has an identifier: a path whose segments are joined by `.` (a member of a type),
`#` (a member of its instances) or `@` (an event). While records are put together, an identifier is
*qualified*: its section stands in front as the first segment, and a symbol without a section begins
with the bare point, so that `Ajax.Updater#update` of the section `Utilities` is
`Utilities.Ajax.Updater#update` and without a section `.Ajax.Updater#update`.

Every function here cuts the identifier at one of its characters (`Text.Cut`), so the parts and the
separator always put together to the whole.

A qualified identifier does not say where its section ends. It is read as ending at the first point,
so a section with a point in its name loses a part of it to the symbol. The laws that hold of all
identifiers and those that hold of sections without a separator are kept apart in
`Proofs.Identifiers`; the second kind has `Plain` among its hypotheses.
-/

set_option autoImplicit false

namespace DocTree.Ident

open DocTree.Text

/-! ## Segments

The section of a qualified identifier is its first segment, which is empty for a symbol without a
section. No text has no segments: the empty one has a single empty segment. -/

def isSeparator (c : Char) : Bool := c == '.' || c == '#' || c == '@'

/-- The segments of an identifier; there is always at least one. They may be empty, where separators
stand side by side or at an end. -/
def segments (id : String) : List String := (id.toList.splitOnP isSeparator).map String.ofList

/-- The identifier with its section in front, which is empty when there is none. The point is there
in any case, so that what is in front of it can be told apart. -/
def qualify (sectionName : Option String) (id : String) : String :=
  sectionName.getD "" ++ "." ++ id

/-- The identifier without its first segment, when a point ends it. What a section contains is not
known here: it is the first point that counts. -/
def stripSection (id : String) : String :=
  match firstCut (· == '.') id.toList with
  | some cut => String.ofList cut.after
  | none => id

/-! ## The parent of an identifier

Nesting follows the separators, but not all of them alike. The name of an event may hold points, so
an identifier with an `@` is cut at the first of these, whatever stands behind; any other is cut at
its last separator. -/

/-- The cut between an identifier and its parent. An event hangs on the first `@`, whatever its
own name holds; everything else on the last point or hash. -/
def parentCut (id : String) : Option Cut :=
  match firstCut (· == '@') id.toList with
  | some cut => some cut
  | none => lastCut (fun c => c == '.' || c == '#') id.toList

/-- The offset in bytes of the separator between an identifier and its parent. -/
def parentBoundary (id : String) : Option Nat := (parentCut id).map fun cut => byteLength cut.before

/-- The identifier under which this one nests, if it has a separator at all. Whether there is a
record of that identifier is not asked. -/
def parentKey (id : String) : Option String :=
  (parentCut id).map fun cut => String.ofList cut.before

/-- What follows the parent in an identifier; all of it when there is no parent. It may be empty,
where a separator is the last character. -/
def localName (id : String) : String :=
  match parentCut id with
  | some cut => String.ofList cut.after
  | none => id

/-! ## Derived names

An identifier is published as a path, in which words stand for the separators `#` and `@`. The words
could also be segments of an identifier, and for these the path says less than the identifier does.
-/

def nameEvent (id : List Char) : List Char :=
  match firstCut (· == '@') id with
  | some cut => cut.before ++ ".event.".toList ++ cut.after
  | none => id

/-- The path under which the symbol is published: `.prototype.` stands for each `#` and `.event.`
for the first `@`. -/
def outputPath (id : String) : String :=
  String.ofList (nameEvent (replaceAll ['#'] ".prototype.".toList id.toList))

/-- The member of instances that goes with a member of the type: the last point becomes `#`. An
identifier without a point has none. -/
def instanceMember (id : String) : Option String :=
  (lastCut (· == '.') id.toList).map fun cut => String.ofList (cut.before ++ '#' :: cut.after)

/-- The identifier under which a constructor is shown: `new` and its type. A final `.new` is the
constructor's own name and is left out. -/
def constructorId (id : String) : String :=
  let cs := id.toList
  let typeName := if ".new".toList.isSuffixOf cs then cs.take (cs.length - 4) else cs
  "new " ++ String.ofList typeName

end DocTree.Ident
