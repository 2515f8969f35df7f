/-!
# Ranges of code points

A property of characters is given as a list of closed ranges of code points, ascending and apart.
Membership is one scan that stops at the first range beyond the code point, so the frequent
characters at the front of the code space are decided after a step or two.

The tables that use this form are long, and none of them is read by a proof as a whole. What a proof
needs is that one character lies in a table or outside of it, and a scan that stops early is what
keeps such a question cheap for the kernel too. Nothing checks here that the ranges ascend. A table
that did not would only be read as a smaller one.
-/

set_option autoImplicit false

namespace DocTree.Text

/-- Whether the code point lies in one of the ranges, which ascend. The search ends at the first
range that begins behind it. -/
def inRanges : List (Nat × Nat) → Nat → Bool
  | [], _ => false
  | (first, last) :: rest, n =>
    if n < first then false
    else if n ≤ last then true
    else inRanges rest n

end DocTree.Text
