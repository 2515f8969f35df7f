import DocTree.Text.Cut

/-!
# Cuts of joined texts

A cut of `a ++ l` is a cut of `l` with `a` in front, or a cut of `a` with `l` behind it; a text that
is joined at a mark is split into what both sides are split into. Every law about qualified
identifiers is one of these equations at a section, a point and a documented identifier, so none of
them is proved by induction on the identifier again.

The inductions here go over the part in front and leave the other one alone. For the first cut that
is the natural way, since the search begins there. For the last cut it works as well, because a mark
in the second part decides whatever stands before (`lastCut_append_of_some`); the part behind the
last mark is free of marks and needs no induction at all.

Splitting at every mark is the library's, and so are its laws for joined texts. What is added is
what the pieces are like: none of them has a mark in it, and a character that is no mark goes in
front of the first piece.
-/

set_option autoImplicit false

namespace DocTree.Text

variable {p : Char → Bool}

theorem free_of_not_mem {mark : Char} {text : List Char} (h : mark ∉ text) :
    ∀ c ∈ text, (c == mark) = false :=
  fun _ hc => beq_eq_false_iff_ne.2 fun he => h (he ▸ hc)

/-! ## The first cut

The parts of a joined text in which there is no mark can be dropped from the question. The mark may
be given by a property of characters, hence the hypothesis is one on all characters of the part;
`free_of_not_mem` gives it for a mark that is one character. -/

/-- What stands in front without a mark only moves into the part before the cut. A section in front
of an identifier is such a text. -/
theorem firstCut_append {a : List Char} (free : ∀ c ∈ a, p c = false) (l : List Char) :
    firstCut p (a ++ l) = (firstCut p l).map fun cut => { cut with before := a ++ cut.before } := by
  induction a with
  | nil => simp
  | cons c rest ih =>
    have hc : p c = false := free c List.mem_cons_self
    have hrest : ∀ d ∈ rest, p d = false := fun d hd => free d (List.mem_cons_of_mem _ hd)
    rw [List.cons_append, firstCut, if_neg (by simp [hc]), ih hrest, Option.map_map]
    rfl

/-- A mark in the first part decides where the first cut is, and the second part joins what is
behind it. -/
theorem firstCut_append_of_some {a : List Char} {cut : Cut} (h : firstCut p a = some cut)
    (l : List Char) : firstCut p (a ++ l) = some { cut with after := cut.after ++ l } := by
  induction a generalizing cut with
  | nil => cases h
  | cons c rest ih =>
    rw [firstCut] at h
    rw [List.cons_append, firstCut]
    by_cases hc : p c = true
    · rw [if_pos hc] at h ⊢
      cases h
      rfl
    · rw [if_neg hc] at h ⊢
      obtain ⟨inner, hi, rfl⟩ := Option.map_eq_some_iff.1 h
      rw [ih hi]
      rfl

theorem firstCut_of_mark {a : List Char} (free : ∀ c ∈ a, p c = false) {mark : Char}
    (hm : p mark = true) (l : List Char) : firstCut p (a ++ mark :: l) = some ⟨a, mark, l⟩ := by
  rw [firstCut_append free, firstCut, if_pos hm]
  simp

theorem exists_firstCut {mark : Char} {text : List Char} (h : mark ∈ text) :
    ∃ before after, firstCut (· == mark) text = some ⟨before, mark, after⟩ ∧
      text = before ++ mark :: after := by
  cases hcut : firstCut (· == mark) text with
  | none => exact absurd (firstCut_eq_none_iff.1 hcut mark h) (by simp)
  | some cut =>
    obtain ⟨hw, hm, -⟩ := firstCut_eq_some hcut
    obtain ⟨before, first, after⟩ := cut
    cases beq_iff_eq.1 hm
    exact ⟨before, after, rfl, hw.symm⟩

/-! ## The last cut -/

/-- A mark in the second part decides where the last cut is, and the first part joins what is before
it. -/
theorem lastCut_append_of_some {l : List Char} {cut : Cut} (h : lastCut p l = some cut)
    (a : List Char) : lastCut p (a ++ l) = some { cut with before := a ++ cut.before } := by
  induction a with
  | nil => exact h
  | cons c rest ih =>
    rw [List.cons_append, lastCut, ih]
    rfl

theorem lastCut_of_mark {l : List Char} (free : ∀ c ∈ l, p c = false) {mark : Char}
    (hm : p mark = true) (a : List Char) : lastCut p (a ++ mark :: l) = some ⟨a, mark, l⟩ := by
  have hl : lastCut p (mark :: l) = some ⟨[], mark, l⟩ := by
    rw [lastCut, lastCut_eq_none_iff.2 free]
    simp [hm]
  rw [lastCut_append_of_some hl]
  simp

theorem exists_lastCut {mark : Char} {text : List Char} (h : mark ∈ text) :
    ∃ before after, lastCut (· == mark) text = some ⟨before, mark, after⟩ ∧
      text = before ++ mark :: after := by
  cases hcut : lastCut (· == mark) text with
  | none => exact absurd (lastCut_eq_none_iff.1 hcut mark h) (by simp)
  | some cut =>
    obtain ⟨hw, hm, -⟩ := lastCut_eq_some hcut
    obtain ⟨before, last, after⟩ := cut
    cases beq_iff_eq.1 hm
    exact ⟨before, after, rfl, hw.symm⟩

/-! ## All cuts

What follows from the equations of the library for a single character in front. -/

theorem exists_splitOnP_cons {c : Char} (h : p c = false) (rest : List Char) :
    ∃ first others, rest.splitOnP p = first :: others ∧
      (c :: rest).splitOnP p = (c :: first) :: others := by
  obtain ⟨first, others, hp⟩ := List.exists_cons_of_ne_nil (List.splitOnP_ne_nil p rest)
  refine ⟨first, others, hp, ?_⟩
  rw [List.splitOnP_cons_eq_if_modifyHead, if_neg (Bool.eq_false_iff.1 h), hp,
    List.modifyHead_cons]

theorem free_of_mem_splitOnP {l piece : List Char} (h : piece ∈ l.splitOnP p) :
    ∀ c ∈ piece, p c = false := by
  induction l generalizing piece with
  | nil =>
    rw [List.splitOnP_nil, List.mem_singleton] at h
    subst h
    exact List.forall_mem_nil _
  | cons c rest ih =>
    cases hc : p c with
    | true =>
      rw [List.splitOnP_cons_eq_if_modifyHead, if_pos hc] at h
      rcases List.mem_cons.1 h with rfl | h
      · exact List.forall_mem_nil _
      · exact ih h
    | false =>
      obtain ⟨first, others, hp, hcons⟩ := exists_splitOnP_cons hc rest
      rw [hcons] at h
      rcases List.mem_cons.1 h with rfl | h
      · intro d hd
        rcases List.mem_cons.1 hd with rfl | hd
        · exact hc
        · exact ih (hp ▸ List.mem_cons_self) d hd
      · exact ih (hp ▸ List.mem_cons_of_mem _ h)

end DocTree.Text
