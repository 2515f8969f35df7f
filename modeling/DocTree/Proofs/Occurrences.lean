import DocTree.Anchor
import Mathlib.Algebra.GroupWithZero.Nat
import Mathlib.Data.List.Infix

/-!
# Occurrences of a text in another

How often a pattern stands in a text that is put together from parts. Where two parts meet, a
pattern could stand across the joint; it cannot if a character that it does not have stands there
(`occurrences_append_mark`), or if its first character is not in the part in front
(`occurrences_append_of_not_mem`). Every joint of a document that is made of lines is of the one
sort or the other.

Counting is by places: the beginnings of all ends of the text at which the pattern begins
(`List.tails`). So occurrences may overlap, and a replacement, which skips over the one it has
found, does not in general replace as many as are counted. For a pattern that cannot overlap with
itself it does (`Proofs.Replacements`).

There is no law for a joint in general. A claim that something stands in a document exactly once has
to say why it does not come about between two parts, and for tags of anchors the reasons are a line
end that they do not have and an angle that nothing else in the index has.
-/

set_option autoImplicit false

namespace DocTree

namespace Text

/-- The number of places at which the pattern stands in the text, those that overlap included. Such
a place is a tail of the text that begins with the pattern. -/
def occurrences (pattern text : List Char) : Nat := text.tails.countP pattern.isPrefixOf

variable {pattern : List Char}

theorem occurrences_cons (c : Char) (text : List Char) :
    occurrences pattern (c :: text)
      = occurrences pattern text + if pattern.isPrefixOf (c :: text) then 1 else 0 := by
  rw [occurrences, List.tails_cons, List.countP_cons]
  rfl

theorem occurrences_nil (h : pattern ≠ []) : occurrences pattern [] = 0 := by
  cases pattern with
  | nil => exact absurd rfl h
  | cons => rfl

theorem occurrences_eq_zero_iff {text : List Char} :
    occurrences pattern text = 0 ↔ ¬ pattern <:+: text := by
  simp only [occurrences, List.countP_eq_zero, List.mem_tails, List.isPrefixOf_iff_prefix,
    List.infix_iff_prefix_suffix]
  constructor
  · rintro h ⟨tail, hprefix, hsuffix⟩
    exact h tail hsuffix hprefix
  · intro h tail hsuffix hprefix
    exact h ⟨tail, hprefix, hsuffix⟩

theorem occurrences_eq_zero_of_prefix {longer text : List Char} (h : pattern <+: longer)
    (none : occurrences pattern text = 0) : occurrences longer text = 0 := by
  rw [occurrences_eq_zero_iff] at none ⊢
  exact fun hlonger => none (h.isInfix.trans hlonger)

/-! ## Joints

Each law is one induction on the part in front. The mark in the middle belongs to neither part and
is not in the pattern, so a pattern that would reach over it is stopped there. -/

theorem isPrefixOf_append_mark {mark : Char} (hm : mark ∉ pattern) (a l : List Char) :
    pattern.isPrefixOf (a ++ mark :: l) = pattern.isPrefixOf a := by
  induction a generalizing pattern with
  | nil =>
    cases pattern with
    | nil => rfl
    | cons first rest =>
      have hne : (first == mark) = false :=
        beq_eq_false_iff_ne.2 fun h => hm (h ▸ List.mem_cons_self)
      rw [List.nil_append, List.isPrefixOf_cons_cons, hne]
      rfl
  | cons c a ih =>
    cases pattern with
    | nil => rfl
    | cons first rest =>
      rw [List.cons_append, List.isPrefixOf_cons_cons, List.isPrefixOf_cons_cons,
        ih fun h => hm (List.mem_cons_of_mem _ h)]

/-- **Occurrences are counted on both sides of a mark** that the pattern does not have. None can
reach over the mark, so none is lost and none is counted twice. -/
theorem occurrences_append_mark {mark : Char} (hm : mark ∉ pattern) (a l : List Char) :
    occurrences pattern (a ++ mark :: l) = occurrences pattern a + occurrences pattern l := by
  induction a with
  | nil =>
    have hstart := isPrefixOf_append_mark hm [] l
    have hnil : occurrences pattern [] = if pattern.isPrefixOf [] then 1 else 0 :=
      List.countP_singleton
    rw [List.nil_append] at hstart ⊢
    rw [occurrences_cons, hstart, hnil, Nat.add_comm]
  | cons c a ih =>
    rw [List.cons_append, occurrences_cons, occurrences_cons, ih, ← List.cons_append,
      isPrefixOf_append_mark hm, Nat.add_right_comm]

theorem occurrences_mark (h : pattern ≠ []) {mark : Char} (hm : mark ∉ pattern) (l : List Char) :
    occurrences pattern (mark :: l) = occurrences pattern l := by
  rw [← List.nil_append (mark :: l), occurrences_append_mark hm, occurrences_nil h, Nat.zero_add]

/-- What ends in a mark has no joint with what follows. This is how lines are put together, which
all end in a line end. -/
theorem occurrences_append_of_suffix (h : pattern ≠ []) {mark : Char} (hm : mark ∉ pattern)
    {a : List Char} (ends : [mark] <:+ a) (l : List Char) :
    occurrences pattern (a ++ l) = occurrences pattern a + occurrences pattern l := by
  obtain ⟨front, rfl⟩ := ends
  rw [List.append_assoc, List.singleton_append, occurrences_append_mark hm,
    occurrences_append_mark hm, occurrences_nil h, Nat.add_zero]

/-- A pattern does not begin where its first character is missing. The part in front need not end in
any way for this. -/
theorem occurrences_append_of_not_mem {first : Char} {a : List Char} (h : first ∉ a)
    (l : List Char) :
    occurrences (first :: pattern) (a ++ l) = occurrences (first :: pattern) l := by
  induction a with
  | nil => rfl
  | cons c a ih =>
    have hne : (first == c) = false :=
      beq_eq_false_iff_ne.2 fun he => h (he ▸ List.mem_cons_self)
    rw [List.cons_append, occurrences_cons, ih fun hm => h (List.mem_cons_of_mem _ hm),
      List.isPrefixOf_cons_cons, hne]
    rfl

theorem occurrences_of_not_mem {first : Char} {text : List Char} (h : first ∉ text) :
    occurrences (first :: pattern) text = 0 := by
  rw [← List.append_nil text, occurrences_append_of_not_mem h]
  exact occurrences_nil (List.cons_ne_nil _ _)

/-- Texts that all end in a mark, one after the other, have the occurrences that they have by
themselves. -/
theorem occurrences_flatten (h : pattern ≠ []) {mark : Char} (hm : mark ∉ pattern)
    {texts : List (List Char)} (ends : ∀ text ∈ texts, [mark] <:+ text) :
    occurrences pattern texts.flatten = (texts.map (occurrences pattern)).sum := by
  induction texts with
  | nil => exact occurrences_nil h
  | cons text rest ih =>
    rw [List.flatten_cons, occurrences_append_of_suffix h hm (ends text List.mem_cons_self),
      ih fun t ht => ends t (List.mem_cons_of_mem _ ht), List.map_cons, List.sum_cons]

end Text

/-! ## Escaped brackets

Escaping puts backslashes in, and a pattern that has neither backslash nor bracket is not found in
more places for that, nor in fewer. -/

theorem escapeBrackets_bracket {c : Char} (h : c = '[' ∨ c = ']') (text : List Char) :
    escapeBrackets (c :: text) = '\\' :: c :: escapeBrackets text := by
  rw [escapeBrackets, List.flatMap_cons, if_pos h]
  rfl

theorem escapeBrackets_other {c : Char} (h : ¬ (c = '[' ∨ c = ']')) (text : List Char) :
    escapeBrackets (c :: text) = c :: escapeBrackets text := by
  rw [escapeBrackets, List.flatMap_cons, if_neg h]
  rfl

theorem isPrefixOf_escapeBrackets {pattern : List Char}
    (plain : '\\' ∉ pattern ∧ '[' ∉ pattern ∧ ']' ∉ pattern) (text : List Char) :
    pattern.isPrefixOf (escapeBrackets text) = pattern.isPrefixOf text := by
  induction text generalizing pattern with
  | nil => rfl
  | cons c text ih =>
    cases pattern with
    | nil => simp
    | cons first rest =>
      obtain ⟨hslash, hopen, hclose⟩ := plain
      by_cases bracket : c = '[' ∨ c = ']'
      -- escaped, the text begins with a backslash, else with a bracket; the pattern has neither
      · have hs : (first == '\\') = false :=
          beq_eq_false_iff_ne.2 fun h => hslash (h ▸ List.mem_cons_self)
        have hc : (first == c) = false := by
          refine beq_eq_false_iff_ne.2 fun h => ?_
          rcases bracket with rfl | rfl
          · exact hopen (h ▸ List.mem_cons_self)
          · exact hclose (h ▸ List.mem_cons_self)
        rw [escapeBrackets_bracket bracket, List.isPrefixOf_cons_cons, List.isPrefixOf_cons_cons, hs,
          hc]
        rfl
      · have hrest := ih ⟨fun h => hslash (List.mem_cons_of_mem _ h),
          fun h => hopen (List.mem_cons_of_mem _ h), fun h => hclose (List.mem_cons_of_mem _ h)⟩
        rw [escapeBrackets_other bracket, List.isPrefixOf_cons_cons, List.isPrefixOf_cons_cons, hrest]

/-- A pattern without brackets and backslashes stands in the escaped text where it stood before: the
backslashes that are put in stand next to brackets, which the pattern does not have either. -/
theorem occurrences_escapeBrackets {pattern : List Char} (h : pattern ≠ [])
    (plain : '\\' ∉ pattern ∧ '[' ∉ pattern ∧ ']' ∉ pattern) (text : List Char) :
    Text.occurrences pattern (escapeBrackets text) = Text.occurrences pattern text := by
  induction text with
  | nil => rfl
  | cons c text ih =>
    by_cases bracket : c = '[' ∨ c = ']'
    · have hc : c ∉ pattern := by
        rcases bracket with rfl | rfl
        · exact plain.2.1
        · exact plain.2.2
      rw [escapeBrackets_bracket bracket, Text.occurrences_mark h plain.1, Text.occurrences_mark h hc,
        Text.occurrences_mark h hc, ih]
    · have hprefix := isPrefixOf_escapeBrackets plain (c :: text)
      rw [escapeBrackets_other bracket] at hprefix ⊢
      rw [Text.occurrences_cons, Text.occurrences_cons, ih, hprefix]

end DocTree
