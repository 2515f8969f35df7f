/-!
# Similarity of words

How alike two words are, from zero to one: how many characters of each have a partner in the other,
not too far from their own place, and how many of the partners stand in another order. The measure
is the mean of three shares, and is computed in floating point.

Only one thing depends on it: which option is proposed for a name on the command line that is none
(`CommandLine.Argument.suggest`). Nothing is proved of it. It is here because the message has to be
the same to the letter, and another measure would propose another option for some names, or one
where there should be none.
-/

set_option autoImplicit false

namespace DocTree.Text

abbrev Partnered := List (Char × Bool)

/-- Gives the first free character equal to `c` a partner that stands from `low` up to but not at
`high`; the characters begin at `place`. -/
def claimPartner (c : Char) (low high : Nat) : Nat → Partnered → Option Partnered
  | _, [] => none
  | place, (d, taken) :: rest =>
    if high ≤ place then none
    else if low ≤ place && c == d && !taken then some ((d, true) :: rest)
    else (claimPartner c low high (place + 1) rest).map ((d, taken) :: ·)

/-- The characters of a word, from `place` on, that find a partner at most `reach` places off, and
the other word with its partners marked. -/
def findPartners (reach : Nat) : Nat → List Char → Partnered → List Char × Partnered
  | _, [], other => ([], other)
  | place, c :: rest, other =>
    match claimPartner c (place - reach) (place + reach + 1) 0 other with
    | some marked =>
      let (found, all) := findPartners reach (place + 1) rest marked
      (c :: found, all)
    | none => findPartners reach (place + 1) rest other

def similarity (a b : List Char) : Float :=
  if a.isEmpty && b.isEmpty then 1
  else
    let reach := max a.length b.length / 2 - 1
    let (found, marked) := findPartners reach 0 a (b.map fun c => (c, false))
    let partners := (marked.filter fun entry => entry.2).map Prod.fst
    let crossed := ((found.zip partners).filter fun pair => pair.1 != pair.2).length / 2
    if found.isEmpty then 0
    else
      let m := found.length.toFloat
      (m / a.length.toFloat + m / b.length.toFloat + (found.length - crossed).toFloat / m) / 3

end DocTree.Text
