import DocTree.Text.Cut
import DocTree.Text.Numeral

/-!
# Links into the source

Each record may carry the address of the place that it documents. How an address is formed from a
file and a line is an option; the usual one is a template with a placeholder for each.

The template is filled in two passes over the whole text, one for each placeholder. The second pass
reads what the first has put in, so a file whose name holds the placeholder for the line has it
replaced as well; `Proofs.LinkTemplates` says for exactly which templates and files this differs
from filling both at once.
-/

set_option autoImplicit false

namespace DocTree

open DocTree.Text

abbrev LinkFormat := String → Nat → String

namespace LinkFormat

def filePlace : List Char := "$\x7bfile\x7d".toList

def linePlace : List Char := "$\x7bline\x7d".toList

/-- The address that a template gives. The file is put in first and the line into what results, so a
place for the line in the name of the file is filled as well. -/
def ofTemplate (template : String) : LinkFormat := fun file line =>
  String.ofList
    (replaceAll linePlace (decimal line) (replaceAll filePlace file.toList template.toList))

end LinkFormat

structure Options where
  formatLink : Option LinkFormat

namespace Options

def plain : Options := ⟨none⟩

def withTemplate (template : String) : Options := ⟨some (LinkFormat.ofTemplate template)⟩

def href (options : Options) (file : String) (line : Nat) : Option String :=
  options.formatLink.map fun format => format file line

/-- The options in words; of a format, only whether there is one. -/
def summary (options : Options) : String :=
  "Options \x7b format_link: " ++ (if options.formatLink.isSome then "true" else "false")
    ++ " \x7d"

end Options

end DocTree
