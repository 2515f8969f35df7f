import DocTree.Proofs.Occurrences
import DocTree.Text.Cut

/-!
# Replacing, one occurrence at a time

A replacement reads a text from left to right, and at each place it stands before an occurrence of
the pattern or before a character that it copies. `reading` is that case split as an induction, for
as many patterns as are looked for at once, and each law about replaced texts has the same cases.

A pattern whose first character stands in it only once, its mark, does not overlap with itself. Of
such a pattern a replacement takes away one mark for each occurrence, and so it can be counted.

The recursion of `replaceAll` has a counter for characters to pass over, and induction on the text
leads into the middle of an occurrence, where nothing can be said. The two equations
`replaceAll_append_self` and `replaceAll_cons_copied` are the ones to work with, and `reading` is
the principle that produces their left sides. Outside of the next section the counter does not
appear.
-/

set_option autoImplicit false

namespace DocTree.Text

/-- A text is empty, or begins with a pattern, or with a character at which no pattern begins. With
several patterns the first case names the one that is found; nothing is said of which, if two begin
at one place. -/
@[elab_as_elim]
theorem reading {patterns : List (List Char)} (nonempty : ∀ pattern ∈ patterns, pattern ≠ [])
    {motive : List Char → Prop} (nil : motive [])
    (found : ∀ pattern ∈ patterns, ∀ rest, motive rest → motive (pattern ++ rest))
    (copied : ∀ c rest, (∀ pattern ∈ patterns, ¬ pattern <+: c :: rest) → motive rest →
      motive (c :: rest)) (text : List Char) : motive text := by
  -- the induction is on the length, as a pattern takes more than one character off
  obtain ⟨n, hn⟩ : ∃ n, text.length ≤ n := ⟨_, Nat.le_refl _⟩
  induction n generalizing text with
  | zero =>
    rw [List.eq_nil_of_length_eq_zero (Nat.le_zero.1 hn)]
    exact nil
  | succ n ih =>
    by_cases h : ∃ pattern ∈ patterns, pattern <+: text
    · obtain ⟨pattern, hm, rest, rfl⟩ := h
      have hlength := List.length_pos_of_ne_nil (nonempty pattern hm)
      rw [List.length_append] at hn
      exact found pattern hm rest (ih rest (by omega))
    · cases text with
      | nil => exact nil
      | cons c rest =>
        exact copied c rest (fun pattern hm hp => h ⟨pattern, hm, hp⟩)
          (ih rest (Nat.le_of_succ_le_succ hn))

theorem not_prefix_of_isPrefixOf {pattern text : List Char} (h : pattern.isPrefixOf text = false) :
    ¬ pattern <+: text :=
  fun hprefix => Bool.eq_false_iff.1 h (List.isPrefixOf_iff_prefix.2 hprefix)

/-! ## The steps of a replacement

The equations of a replacement, one for each case of `reading`. -/

variable {old : List Char} (new : List Char)

/-- What is passed over is dropped. The characters of an occurrence are passed over one by one,
which keeps the recursion on the text. -/
theorem replaceAfter_eq (old new : List Char) (skip : Nat) (text : List Char) :
    replaceAfter old new skip text = replaceAll old new (text.drop skip) := by
  induction text generalizing skip with
  | nil => simp [replaceAll, replaceAfter]
  | cons c rest ih =>
    cases skip with
    | zero => rfl
    | succ skip => rw [replaceAfter, ih, List.drop_succ_cons]

theorem replaceAll_nil (old : List Char) : replaceAll old new [] = [] := rfl

/-- An occurrence at the beginning is replaced, and the replacement goes on behind it. -/
theorem replaceAll_append_self (h : old ≠ []) (rest : List Char) :
    replaceAll old new (old ++ rest) = new ++ replaceAll old new rest := by
  obtain ⟨first, others, rfl⟩ := List.exists_cons_of_ne_nil h
  have hprefix : (first :: others).isPrefixOf (first :: (others ++ rest)) = true :=
    List.isPrefixOf_iff_prefix.2 (List.prefix_append _ _)
  rw [replaceAll, List.cons_append, replaceAfter, if_pos hprefix, replaceAfter_eq,
    List.length_cons, Nat.add_sub_cancel, List.drop_left]

/-- A character at which no occurrence begins is copied. -/
theorem replaceAll_cons_copied {c : Char} {rest : List Char} (h : ¬ old <+: c :: rest) :
    replaceAll old new (c :: rest) = c :: replaceAll old new rest := by
  rw [replaceAll, replaceAfter, if_neg fun hp => h (List.isPrefixOf_iff_prefix.1 hp)]
  rfl

theorem replaceAll_append_of_not_mem {first : Char} {others a : List Char} (h : first ∉ a)
    (rest : List Char) : replaceAll (first :: others) new (a ++ rest)
      = a ++ replaceAll (first :: others) new rest := by
  induction a with
  | nil => rfl
  | cons c a ih =>
    have hprefix : ¬ first :: others <+: c :: (a ++ rest) := fun hp =>
      h ((List.cons_prefix_cons.1 hp).1 ▸ List.mem_cons_self)
    rw [List.cons_append, replaceAll_cons_copied new hprefix,
      ih fun hm => h (List.mem_cons_of_mem _ hm), List.cons_append]

/-! ## Counting what is replaced

Counting marks tells a text apart from another that was filled in a different way, without following
what stands where. -/

theorem occurrences_cons_copied {c : Char} {rest : List Char} (h : ¬ old <+: c :: rest) :
    occurrences old (c :: rest) = occurrences old rest := by
  rw [occurrences_cons, if_neg fun hp => h (List.isPrefixOf_iff_prefix.1 hp), Nat.add_zero]

theorem occurrences_le_append (old a rest : List Char) :
    occurrences old rest ≤ occurrences old (a ++ rest) := by
  induction a with
  | nil => exact Nat.le_refl _
  | cons c a ih =>
    rw [List.cons_append, occurrences_cons]
    exact Nat.le_trans ih (Nat.le_add_right _ _)

/-- A part in front in which no occurrence begins is copied. An occurrence may begin in it and end
behind it, which the hypothesis excludes too. -/
theorem replaceAll_append_of_occurrences_eq {a rest : List Char}
    (h : occurrences old (a ++ rest) = occurrences old rest) :
    replaceAll old new (a ++ rest) = a ++ replaceAll old new rest := by
  induction a with
  | nil => rfl
  | cons c a ih =>
    have later := occurrences_le_append old a rest
    rw [List.cons_append, occurrences_cons] at h
    have hprefix : ¬ old <+: c :: (a ++ rest) := by
      intro hp
      rw [if_pos (List.isPrefixOf_iff_prefix.2 hp)] at h
      omega
    rw [List.cons_append, replaceAll_cons_copied new hprefix, ih (by omega), List.cons_append]

section Mark

variable {mark : Char} {tail : List Char}

theorem occurrences_append_self (apart : mark ∉ tail) (rest : List Char) :
    occurrences (mark :: tail) (mark :: tail ++ rest) = occurrences (mark :: tail) rest + 1 := by
  have hprefix : (mark :: tail).isPrefixOf (mark :: (tail ++ rest)) = true :=
    List.isPrefixOf_iff_prefix.2 (List.prefix_append _ _)
  rw [List.cons_append, occurrences_cons, if_pos hprefix, occurrences_append_of_not_mem apart]

/-- Each occurrence begins at a mark of its own, so counting marks bounds the occurrences from
above. -/
theorem occurrences_le_count (mark : Char) (tail text : List Char) :
    occurrences (mark :: tail) text ≤ text.count mark := by
  induction text with
  | nil => exact Nat.le_of_eq (occurrences_nil (List.cons_ne_nil _ _))
  | cons c text ih =>
    rw [occurrences_cons, List.count_cons]
    by_cases hprefix : (mark :: tail).isPrefixOf (c :: text) = true
    · have hc : mark = c := (List.cons_prefix_cons.1 (List.isPrefixOf_iff_prefix.1 hprefix)).1
      rw [if_pos hprefix, if_pos (beq_iff_eq.2 hc.symm)]
      exact Nat.add_le_add_right ih 1
    · rw [if_neg hprefix]
      exact Nat.le_trans ih (Nat.le_add_right _ _)

/-- **A replacement takes one mark away for each occurrence**, if it puts none in. Occurrences
cannot overlap here, as the mark stands only at the beginning of one. -/
theorem count_replaceAll (apart : mark ∉ tail) {new : List Char} (unmarked : mark ∉ new)
    (text : List Char) :
    (replaceAll (mark :: tail) new text).count mark + occurrences (mark :: tail) text
      = text.count mark := by
  have nonempty : ∀ pattern ∈ [mark :: tail], pattern ≠ [] :=
    List.forall_mem_singleton.2 (List.cons_ne_nil _ _)
  induction text using reading nonempty with
  | nil =>
    rw [replaceAll_nil, occurrences_nil (List.cons_ne_nil _ _)]
    rfl
  | found pattern hm rest ih =>
    cases List.mem_singleton.1 hm
    rw [replaceAll_append_self new (List.cons_ne_nil _ _), occurrences_append_self apart,
      List.count_append, List.count_eq_zero.2 unmarked, List.count_append, List.count_cons_self,
      List.count_eq_zero.2 apart]
    omega
  | copied c rest h ih =>
    have hc := h _ List.mem_cons_self
    rw [replaceAll_cons_copied new hc, occurrences_cons_copied hc, List.count_cons,
      List.count_cons]
    omega

end Mark

end DocTree.Text
