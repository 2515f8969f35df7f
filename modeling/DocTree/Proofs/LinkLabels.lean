import DocTree.Proofs.Anchors
import DocTree.Proofs.Occurrences
import Mathlib.Data.List.Induction

/-!
# Labels of index links

Markdown takes a bracket as it stands when an odd number of backslashes is directly before it, and
any other bracket begins or ends a label. A label is written with a backslash in front of each of
its brackets, and its own backslashes as they are. So the backslash that is put in takes effect only
behind an even number of others: behind an odd number the bracket is bare again, and a label that
ends in an odd number of backslashes takes its closing bracket with it.

The rule looks backwards from a bracket over a run of backslashes, while escaping goes forward. What
connects them is that escaping leaves the backslashes at the end of a text alone
(`slashesAtEnd_escapeBrackets`): a bracket that is written ends the run before it, so the number of
backslashes in front of a place does not depend on what was escaped earlier. The induction is on the
text from the right, as that is where characters are counted.

All bare brackets of a link are found, whatever its text is (`LinkBracket`), and the condition under
which there are no others than the two that are meant is read off that list. To prove only that a
good text gives a good link would leave open whether any other text does.

That the target has no brackets comes from anchors being plain. Only anchors that were assigned are
considered, as no others are written.
-/

set_option autoImplicit false

namespace DocTree

/-! ## Bare brackets

The rule of Markdown, for any text and any place in it. -/

abbrev IsBracket (c : Char) : Prop := c = '[' ∨ c = ']'

/-- The number of backslashes that the text ends in. A character behind the text is escaped when it
is odd, for then the last of them has no backslash to escape it in turn. -/
def slashesAtEnd (text : List Char) : Nat := (text.reverse.takeWhile (· == '\\')).length

def Slashed (text : List Char) : Prop := slashesAtEnd text % 2 = 1

instance : DecidablePred Slashed := fun text =>
  inferInstanceAs (Decidable (slashesAtEnd text % 2 = 1))

structure BareBracket (text : List Char) (place : Nat) : Prop where
  bracket : ∃ c ∈ text[place]?, IsBracket c
  bare : ¬ Slashed (text.take place)

theorem bareBracket_iff {text : List Char} {place : Nat} :
    BareBracket text place ↔ ∃ before c after, text = before ++ c :: after ∧
      before.length = place ∧ IsBracket c ∧ ¬ Slashed before := by
  constructor
  · rintro ⟨⟨c, hc, bracket⟩, bare⟩
    obtain ⟨hlt, rfl⟩ := List.getElem?_eq_some_iff.1 hc
    refine ⟨text.take place, text[place], text.drop (place + 1), ?_, ?_, bracket, bare⟩
    · rw [← List.drop_eq_getElem_cons hlt, List.take_append_drop]
    · exact List.length_take_of_le (Nat.le_of_lt hlt)
  · rintro ⟨before, c, after, rfl, rfl, bracket, bare⟩
    constructor
    case bracket => exact ⟨c, by simp, bracket⟩
    case bare => rwa [List.take_left]

/-! ## Backslashes at the end

How the number of backslashes at the end of a text changes with one more character, at the end and
in front. -/

theorem slashesAtEnd_append_slash (text : List Char) :
    slashesAtEnd (text ++ ['\\']) = slashesAtEnd text + 1 := by
  simp [slashesAtEnd]

theorem slashesAtEnd_append_other {c : Char} (h : c ≠ '\\') (text : List Char) :
    slashesAtEnd (text ++ [c]) = 0 := by
  simp [slashesAtEnd, h]

theorem slashesAtEnd_cons {c : Char} (h : c ≠ '\\') (text : List Char) :
    slashesAtEnd (c :: text) = slashesAtEnd text := by
  induction text using List.reverseRecOn with
  | nil => exact slashesAtEnd_append_other h []
  | append_singleton text d ih =>
    rw [← List.cons_append]
    by_cases slash : d = '\\'
    · subst slash
      rw [slashesAtEnd_append_slash, slashesAtEnd_append_slash, ih]
    · rw [slashesAtEnd_append_other slash, slashesAtEnd_append_other slash]

theorem slashed_append_slash {text : List Char} :
    Slashed (text ++ ['\\']) ↔ ¬ Slashed text := by
  rw [Slashed, Slashed, slashesAtEnd_append_slash]
  omega

/-! ## Escaped texts

A bracket becomes two characters and anything else stays. So a text has one shape for each of its
brackets, and a bracket in the escaped text says where in the text it came from. -/

theorem escapeBrackets_nil : escapeBrackets [] = [] := rfl

theorem escapeBrackets_append (a b : List Char) :
    escapeBrackets (a ++ b) = escapeBrackets a ++ escapeBrackets b := List.flatMap_append

theorem IsBracket.ne_slash {c : Char} (h : IsBracket c) : c ≠ '\\' := by
  rcases h with rfl | rfl <;> decide

/-- **Escaping leaves the backslashes at the end alone**, whether or not a bracket stands in front
of them. -/
theorem slashesAtEnd_escapeBrackets (text : List Char) :
    slashesAtEnd (escapeBrackets text) = slashesAtEnd text := by
  induction text using List.reverseRecOn with
  | nil => rfl
  | append_singleton text c ih =>
    rw [escapeBrackets_append]
    by_cases bracket : IsBracket c
    · rw [escapeBrackets_bracket bracket, List.append_cons, escapeBrackets_nil,
        slashesAtEnd_append_other bracket.ne_slash, slashesAtEnd_append_other bracket.ne_slash]
    · rw [escapeBrackets_other bracket, escapeBrackets_nil]
      by_cases slash : c = '\\'
      · subst slash
        rw [slashesAtEnd_append_slash, slashesAtEnd_append_slash, ih]
      · rw [slashesAtEnd_append_other slash, slashesAtEnd_append_other slash]

/-- The brackets of an escaped text are those of the text, each behind one more backslash. So
whether one is bare can be read off the text in front of it. -/
theorem exists_of_escapeBrackets_eq_append {text before after : List Char} {c : Char}
    (bracket : IsBracket c) (h : escapeBrackets text = before ++ c :: after) :
    ∃ front back, text = front ++ c :: back ∧ before = escapeBrackets front ++ ['\\'] := by
  induction text generalizing before with
  | nil => exact absurd h.symm (List.append_ne_nil_of_right_ne_nil _ (List.cons_ne_nil _ _))
  | cons d text ih =>
    by_cases hd : IsBracket d
    · rw [escapeBrackets_bracket hd, List.cons_eq_append_iff] at h
      rcases h with ⟨-, hslash⟩ | ⟨others, rfl, hothers⟩
      · exact absurd (List.cons.inj hslash).1 bracket.ne_slash
      rcases List.cons_eq_append_iff.1 hothers with ⟨rfl, hc⟩ | ⟨more, rfl, hmore⟩
      · cases (List.cons.inj hc).1
        exact ⟨[], text, rfl, rfl⟩
      · obtain ⟨front, back, rfl, rfl⟩ := ih hmore
        exact ⟨d :: front, back, rfl, by rw [escapeBrackets_bracket hd]; rfl⟩
    · rw [escapeBrackets_other hd, List.cons_eq_append_iff] at h
      rcases h with ⟨-, hc⟩ | ⟨others, rfl, hothers⟩
      · exact absurd ((List.cons.inj hc).1 ▸ bracket) hd
      · obtain ⟨front, back, rfl, rfl⟩ := ih hothers
        exact ⟨d :: front, back, rfl, by rw [escapeBrackets_other hd]; rfl⟩

/-! ## The brackets of a link

A link is an opening bracket, the escaped label, the closing bracket and the target. A bare bracket
is in one of these four, and each of them has its own reason. -/

def closingPlace (text : String) : Nat := (escapeBrackets text.toList).length + 1

/-- The brackets that begin or end a label in a link: the first character, the bracket that is meant
to end the label unless the label ends in an odd number of backslashes, and each bracket in the text
of the label that an odd number of backslashes stood before. -/
inductive LinkBracket (text : String) : Nat → Prop where
  | opening : LinkBracket text 0
  | closing (bare : ¬ Slashed text.toList) : LinkBracket text (closingPlace text)
  | label {front back : List Char} {c : Char} (split : text.toList = front ++ c :: back)
      (bracket : IsBracket c) (slashed : Slashed front) :
      LinkBracket text ((escapeBrackets front).length + 2)

def linkTarget (anchor : String) : List Char := '(' :: '#' :: (anchor.toList ++ [')'])

theorem toList_indexLink (text anchor : String) :
    (indexLink text anchor).toList
      = '[' :: (escapeBrackets text.toList ++ ']' :: linkTarget anchor) := by
  simp [indexLink, linkTarget]

theorem drop_closingPlace (text anchor : String) :
    (indexLink text anchor).toList.drop (closingPlace text) = ']' :: linkTarget anchor := by
  rw [toList_indexLink, closingPlace, List.drop_succ_cons, List.drop_left]

theorem not_slashed_nil : ¬ Slashed [] := by decide

theorem slashed_opened {text : List Char} :
    Slashed ('[' :: escapeBrackets text) ↔ Slashed text := by
  rw [Slashed, Slashed, slashesAtEnd_cons (by decide), slashesAtEnd_escapeBrackets]

theorem slashed_opened_append_slash {text : List Char} :
    Slashed ('[' :: (escapeBrackets text ++ ['\\'])) ↔ ¬ Slashed text := by
  rw [← List.cons_append, slashed_append_slash, slashed_opened]

theorem not_bracket_of_mem_linkTarget {anchor : String} (plain : Anchor.Plain anchor) {c : Char}
    (h : c ∈ linkTarget anchor) : ¬ IsBracket c := by
  have opens : '[' ∉ anchor.toList := plain.not_mem (by decide +kernel)
  have closes : ']' ∉ anchor.toList := plain.not_mem (by decide +kernel)
  rintro (rfl | rfl)
  · simp [linkTarget, opens] at h
  · simp [linkTarget, closes] at h

/-- **The bare brackets of a link**, whatever its text is. In the escaped label each bracket has one
backslash more than in the text, which is why an odd number there is what leaves it bare. -/
theorem bareBracket_indexLink_iff {text anchor : String} (plain : Anchor.Plain anchor)
    {place : Nat} :
    BareBracket (indexLink text anchor).toList place ↔ LinkBracket text place := by
  rw [bareBracket_iff, toList_indexLink]
  constructor
  · rintro ⟨before, c, after, h, rfl, bracket, bare⟩
    rcases List.cons_eq_append_iff.1 h with ⟨rfl, -⟩ | ⟨others, rfl, hothers⟩
    · exact .opening
    have closing : others = escapeBrackets text.toList →
        LinkBracket text ('[' :: others).length := by
      rintro rfl
      exact .closing fun slashed => bare (slashed_opened.2 slashed)
    -- what is before the bracket ends in the label, with it, or behind it
    rcases List.append_eq_append_iff.1 hothers with ⟨more, hlabel, hmore⟩ | ⟨more, hlabel, hmore⟩
    · cases more with
      | nil => exact closing (hlabel.trans (List.append_nil _))
      | cons d more =>
        -- behind the bracket that closes the label there is no other
        refine absurd bracket (not_bracket_of_mem_linkTarget plain ?_)
        rw [(List.cons.inj hmore).2]
        exact List.mem_append_right _ List.mem_cons_self
    · cases more with
      | nil => exact closing (hlabel.trans (List.append_nil _)).symm
      | cons d more =>
        cases (List.cons.inj hmore).1
        obtain ⟨front, back, split, rfl⟩ := exists_of_escapeBrackets_eq_append bracket hlabel
        have slashed : Slashed front :=
          not_not.1 fun even => bare (slashed_opened_append_slash.2 even)
        have place := LinkBracket.label split bracket slashed
        rwa [List.length_cons, List.length_append, List.length_singleton]
  · intro h
    cases h with
    | opening => exact ⟨[], '[', _, rfl, rfl, Or.inl rfl, not_slashed_nil⟩
    | closing bare =>
      exact ⟨'[' :: escapeBrackets text.toList, ']', _, rfl, rfl, Or.inr rfl,
        fun slashed => bare (slashed_opened.1 slashed)⟩
    | @label front back c split bracket slashed =>
      refine ⟨'[' :: (escapeBrackets front ++ ['\\']), c,
        escapeBrackets back ++ ']' :: linkTarget anchor, ?_, ?_, bracket,
        fun bare => slashed_opened_append_slash.1 bare slashed⟩
      · rw [split, escapeBrackets_append, escapeBrackets_bracket bracket]
        simp
      · rw [List.length_cons, List.length_append, List.length_singleton]

/-! ## Labels that are kept

Two brackets are meant to be bare. They always are but for the closing one, which a backslash at the
end of the label can undo, and others join them where a bracket of the label was behind one. -/

/-- No bracket of the text and not its end stands behind an odd number of backslashes. Texts without
backslashes are such, and so are those in which they are doubled. -/
structure Unslashed (text : List Char) : Prop where
  brackets : ∀ front c back, text = front ++ c :: back → IsBracket c → ¬ Slashed front
  tail : ¬ Slashed text

/-- **A label ends where it is meant to end exactly when its text is unslashed.** For any text the
bare brackets of the link are known; they are the first character and the one in front of the target
if there is an even number of backslashes in front of each bracket of the text and at its end, and
otherwise they are not. -/
theorem bareBrackets_indexLink (text : String) {paths : List String} {anchor : String}
    (assigned : anchor ∈ Anchor.assign paths) :
    (∀ place, BareBracket (indexLink text anchor).toList place ↔ LinkBracket text place) ∧
      (indexLink text anchor).toList.drop (closingPlace text) = ']' :: linkTarget anchor ∧
      ((∀ place, BareBracket (indexLink text anchor).toList place ↔
          place = 0 ∨ place = closingPlace text) ↔ Unslashed text.toList) := by
  have places : ∀ place, BareBracket (indexLink text anchor).toList place ↔ LinkBracket text place :=
    fun place => bareBracket_indexLink_iff (Anchor.plain_of_mem_assignFrom assigned)
  -- a bracket of the label stands before the one that closes it
  have inside : ∀ front c back, text.toList = front ++ c :: back → IsBracket c →
      (escapeBrackets front).length + 2 < closingPlace text := by
    intro front c back split bracket
    rw [closingPlace, split, escapeBrackets_append, escapeBrackets_bracket bracket,
      List.length_append, List.length_cons, List.length_cons]
    omega
  refine ⟨places, drop_closingPlace text anchor, ?_⟩
  constructor
  · intro h
    constructor
    case brackets =>
      intro front c back split bracket slashed
      have early := inside front c back split bracket
      have hplace := (h _).1 ((places _).2 (.label split bracket slashed))
      omega
    case tail =>
      have hclosing := (places _).1 ((h (closingPlace text)).2 (Or.inr rfl))
      generalize hp : closingPlace text = place at hclosing
      cases hclosing with
      | opening => exact absurd hp (Nat.succ_ne_zero _)
      | closing bare => exact bare
      | label split bracket slashed =>
        have early := inside _ _ _ split bracket
        omega
  · intro h place
    rw [places]
    constructor
    · intro hplace
      cases hplace with
      | opening => exact Or.inl rfl
      | closing => exact Or.inr rfl
      | label split bracket slashed => exact absurd slashed (h.brackets _ _ _ split bracket)
    · rintro (rfl | rfl)
      · exact .opening
      · exact .closing h.tail

theorem not_slashed_of_not_mem {text : List Char} (h : '\\' ∉ text) : ¬ Slashed text := by
  cases text using List.reverseRecOn with
  | nil => exact not_slashed_nil
  | append_singleton text c =>
    have hc : c ≠ '\\' := fun he => h (he ▸ List.mem_append_right _ List.mem_cons_self)
    rw [Slashed, slashesAtEnd_append_other hc]
    decide

theorem unslashed_of_not_mem {text : List Char} (h : '\\' ∉ text) : Unslashed text := by
  constructor
  case tail => exact not_slashed_of_not_mem h
  case brackets =>
    rintro front c back rfl -
    exact not_slashed_of_not_mem fun hm => h (List.mem_append_left _ hm)

theorem bareBrackets_subscript :
    "a" ∈ Anchor.assign ["a"] ∧ Unslashed "a[0]".toList ∧
      ∀ place, BareBracket (indexLink "a[0]" "a").toList place ↔
        place = 0 ∨ place = closingPlace "a[0]" := by
  have assigned : "a" ∈ Anchor.assign ["a"] := by decide +kernel
  have unslashed : Unslashed "a[0]".toList := unslashed_of_not_mem (by decide)
  exact ⟨assigned, unslashed, (bareBrackets_indexLink "a[0]" assigned).2.2.2 unslashed⟩

/-- **A backslash at the end of a label takes its closing bracket away**: the link has one bare
bracket, which begins a label that does not end. -/
theorem slash_at_end_of_label :
    "a" ∈ Anchor.assign ["a"] ∧ indexLink "a\\" "a" = "[a\\](#a)" ∧ closingPlace "a\\" = 3 ∧
      ¬ BareBracket (indexLink "a\\" "a").toList (closingPlace "a\\") ∧
      ¬ ∀ place, BareBracket (indexLink "a\\" "a").toList place ↔
        place = 0 ∨ place = closingPlace "a\\" := by
  have assigned : "a" ∈ Anchor.assign ["a"] := by decide +kernel
  have closed : ¬ BareBracket (indexLink "a\\" "a").toList (closingPlace "a\\") := by
    rintro ⟨-, bare⟩
    rw [toList_indexLink] at bare
    exact bare (by decide)
  exact ⟨assigned, by decide, by decide, closed, fun h => closed ((h _).2 (Or.inr rfl))⟩

end DocTree
