import DocTree.Text.CodePoints

/-!
# Blank characters

The characters that make up blank space in any script: the blank itself, tabs and line ends, and the
wider and narrower spaces. The ranges are those of Unicode 17.

This is the wide sense of blank, for the filters of the log and the patterns in them, which a person
types. The blanks between the lexemes of a JSON text are four characters only and have a definition
of their own (`Json.skipBlanks`).
-/

set_option autoImplicit false

namespace DocTree.Text

/-- Closed ranges of blank code points, ascending and apart. -/
def blankRanges : List (Nat × Nat) :=
  [(0x9, 0xD), (0x20, 0x20), (0x85, 0x85), (0xA0, 0xA0), (0x1680, 0x1680), (0x2000, 0x200A),
   (0x2028, 0x2029), (0x202F, 0x202F), (0x205F, 0x205F), (0x3000, 0x3000)]

def isBlankSpace (c : Char) : Bool := inRanges blankRanges c.toNat

end DocTree.Text
