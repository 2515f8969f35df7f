import DocTree.Documentation.Finish

/-!
# Assembling documentation

From the records of files to the documentation: the files are merged, sections are inferred, the
keys are ordered, the records are linked into a forest, and the forest is finished. An `Assembly`
keeps what each step gives, for whoever wants to look at more than the documentation.

The steps are functions of what the one before gave, and of nothing else. A theorem on the
documentation of files is for that reason put together from one theorem for each step: what merging
lists (`Proofs.SourceRecords`), what inference moves (`Proofs.OnePass`), how the order sorts
(`Proofs.CanonicalOrder`), what hangs where (`Proofs.PrefixForest`) and what is published of it
(`Proofs.Published`).
-/

set_option autoImplicit false

namespace DocTree

structure Assembly where
  merged : Listing
  resolved : Listing
  order : List String
  forest : Forest
  documentation : Documentation

/-- Assembles the records of files, merged in the order given. What each step makes is kept, since
reports and theorems ask for the steps between as well. -/
def Assembly.ofFiles (options : Options) (files : List SourceFile) : Assembly :=
  let merged := Listing.merge options files
  let resolved := merged.inferSections
  let order := resolved.canonicalOrder
  let forest := Forest.assemble resolved order
  ⟨merged, resolved, order, forest, Documentation.ofForest forest⟩

def Documentation.ofFiles (options : Options) (files : List SourceFile) : Documentation :=
  (Assembly.ofFiles options files).documentation

end DocTree
