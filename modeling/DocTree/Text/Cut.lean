/-!
# Cutting and replacing

What the rules on identifiers, paths and templates need from a text: the place where a character
with a property stands first or last, the part between two offsets, and the replacement of one text
by another. All of it is recursion on the characters; an offset, where one is wanted, is the length
in bytes of the part before. Only a slice takes offsets from elsewhere, and there is none where one
of them falls inside a character.

A cut keeps all three parts, the text before the mark, the mark and the text behind it. An offset
alone would have to be turned back into parts by whoever uses it, with a proof each time that it
does not fall inside a character; from a cut the parts are simply read, and `Cut.whole` puts them
together again. Cutting at every mark is the library's `List.splitOnP`, and the few facts that are
wanted about it besides stand in `Proofs.Cuts`.
-/

set_option autoImplicit false

namespace DocTree.Text

/-! ## Lengths in bytes -/

def byteLength : List Char → Nat
  | [] => 0
  | c :: rest => c.utf8Size + byteLength rest

/-! ## One cut

Both searches are specified by the same two lemmas: a cut puts together to the text at a mark with
the property, with no such mark on the side that was searched (`firstCut_eq_some`,
`lastCut_eq_some`), and there is no cut exactly when there is no mark. Nothing else about the two
recursions is used anywhere. -/

structure Cut where
  before : List Char
  mark : Char
  after : List Char
deriving DecidableEq, Repr

def Cut.whole (cut : Cut) : List Char := cut.before ++ cut.mark :: cut.after

def Cut.cons (c : Char) (cut : Cut) : Cut := { cut with before := c :: cut.before }

def firstCut (p : Char → Bool) : List Char → Option Cut
  | [] => none
  | c :: rest => if p c then some ⟨[], c, rest⟩ else (firstCut p rest).map (Cut.cons c)

def lastCut (p : Char → Bool) : List Char → Option Cut
  | [] => none
  | c :: rest =>
    match lastCut p rest with
    | some cut => some (cut.cons c)
    | none => if p c then some ⟨[], c, rest⟩ else none

theorem Cut.whole_cons (c : Char) (cut : Cut) : (cut.cons c).whole = c :: cut.whole := rfl

/-- A cut puts together to the text, at a character with the property, none of which stands
before it. -/
theorem firstCut_eq_some {p : Char → Bool} {text : List Char} {cut : Cut}
    (h : firstCut p text = some cut) :
    cut.whole = text ∧ p cut.mark = true ∧ ∀ c ∈ cut.before, p c = false := by
  induction text generalizing cut with
  | nil => cases h
  | cons c rest ih =>
    rw [firstCut] at h
    by_cases hc : p c = true
    · rw [if_pos hc] at h
      cases h
      exact ⟨rfl, hc, fun _ hm => nomatch hm⟩
    · rw [if_neg hc] at h
      obtain ⟨inner, hi, rfl⟩ := Option.map_eq_some_iff.1 h
      obtain ⟨hw, hp, hb⟩ := ih hi
      refine ⟨by rw [Cut.whole_cons, hw], hp, fun d hd => ?_⟩
      rcases List.mem_cons.1 hd with rfl | hd
      · exact Bool.eq_false_iff.2 hc
      · exact hb d hd

theorem firstCut_eq_none_iff {p : Char → Bool} {text : List Char} :
    firstCut p text = none ↔ ∀ c ∈ text, p c = false := by
  induction text with
  | nil => simp [firstCut]
  | cons c rest ih => by_cases hc : p c = true <;> simp [firstCut, hc, ih]

theorem lastCut_eq_none_iff {p : Char → Bool} {text : List Char} :
    lastCut p text = none ↔ ∀ c ∈ text, p c = false := by
  induction text with
  | nil => simp [lastCut]
  | cons c rest ih =>
    rw [List.forall_mem_cons, ← ih, lastCut]
    cases lastCut p rest with
    | some cut => simp
    | none => by_cases hc : p c = true <;> simp [hc]

/-- The cut at the last such character puts together to the text too, and none stands after it. -/
theorem lastCut_eq_some {p : Char → Bool} {text : List Char} {cut : Cut}
    (h : lastCut p text = some cut) :
    cut.whole = text ∧ p cut.mark = true ∧ ∀ c ∈ cut.after, p c = false := by
  induction text generalizing cut with
  | nil => cases h
  | cons c rest ih =>
    rw [lastCut] at h
    cases hr : lastCut p rest with
    | some inner =>
      rw [hr] at h
      cases h
      obtain ⟨hw, hp, ha⟩ := ih hr
      exact ⟨by rw [Cut.whole_cons, hw], hp, ha⟩
    | none =>
      rw [hr] at h
      by_cases hc : p c = true
      · rw [if_pos hc] at h
        cases h
        exact ⟨rfl, hc, lastCut_eq_none_iff.1 hr⟩
      · rw [if_neg hc] at h
        cases h

/-! ## Slices

An offset counts bytes, and a character has up to four. A slice that would begin or end inside one
does not exist. -/

/-- The text after so many bytes. There is none if the offset lies within a character or beyond the
end. -/
def dropBytes : Nat → List Char → Option (List Char)
  | 0, text => some text
  | _ + 1, [] => none
  | n + 1, c :: rest => if c.utf8Size ≤ n + 1 then dropBytes (n + 1 - c.utf8Size) rest else none

def takeBytes : Nat → List Char → Option (List Char)
  | 0, _ => some []
  | _ + 1, [] => none
  | n + 1, c :: rest =>
    if c.utf8Size ≤ n + 1 then (takeBytes (n + 1 - c.utf8Size) rest).map (c :: ·) else none

def slice (start stop : Nat) (text : List Char) : Option (List Char) :=
  (dropBytes start text).bind (takeBytes (stop - start))

theorem dropBytes_byteLength (before after : List Char) :
    dropBytes (byteLength before) (before ++ after) = some after := by
  induction before with
  | nil => rw [byteLength, List.nil_append, dropBytes]
  | cons c rest ih =>
    have pos : 0 < c.utf8Size := Char.utf8Size_pos c
    obtain ⟨n, hn⟩ : ∃ n, byteLength (c :: rest) = n + 1 :=
      ⟨c.utf8Size + byteLength rest - 1, by rw [byteLength]; omega⟩
    have left : n + 1 - c.utf8Size = byteLength rest := by rw [← hn, byteLength]; omega
    have fits : c.utf8Size ≤ n + 1 := by rw [← hn, byteLength]; omega
    rw [hn, List.cons_append, dropBytes, if_pos fits, left, ih]

theorem takeBytes_byteLength (before after : List Char) :
    takeBytes (byteLength before) (before ++ after) = some before := by
  induction before with
  | nil => rw [byteLength, takeBytes]
  | cons c rest ih =>
    have pos : 0 < c.utf8Size := Char.utf8Size_pos c
    obtain ⟨n, hn⟩ : ∃ n, byteLength (c :: rest) = n + 1 :=
      ⟨c.utf8Size + byteLength rest - 1, by rw [byteLength]; omega⟩
    have left : n + 1 - c.utf8Size = byteLength rest := by rw [← hn, byteLength]; omega
    have fits : c.utf8Size ≤ n + 1 := by rw [← hn, byteLength]; omega
    rw [hn, List.cons_append, takeBytes, if_pos fits, left, ih, Option.map_some]

/-! ## Replacing

The scan has a counter of characters to pass over, so that it stays a recursion on the text. The
more direct form, which drops the occurrence and goes on behind it, recurses on a part that is
smaller for a reason, and every proof would have to repeat the reason. `Proofs.Replacements` has the
reading of a text by occurrences for which this scan is an implementation. -/

/-- Replaces each occurrence of `old`, found from left to right, after passing over `skip`
characters of an occurrence already replaced. -/
def replaceAfter (old new : List Char) : Nat → List Char → List Char
  | _, [] => []
  | skip + 1, _ :: rest => replaceAfter old new skip rest
  | 0, c :: rest =>
    if old.isPrefixOf (c :: rest) then new ++ replaceAfter old new (old.length - 1) rest
    else c :: replaceAfter old new 0 rest

/-- Replaces each occurrence of `old`, a text with at least one character. Occurrences are found
from left to right and do not overlap, and what is put in is not read again. -/
def replaceAll (old new text : List Char) : List Char := replaceAfter old new 0 text

end DocTree.Text
