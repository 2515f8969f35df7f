import DocTree.Path
import Mathlib.Data.List.Lex
import Mathlib.Data.List.Nodup
import Mathlib.Data.Prod.Lex
import Mathlib.Data.String.Basic

/-!
# The order of paths

Paths are put in order and freed of repetitions by their components, not by their texts. The two go
together because the order and the comparison for repetitions agree: of paths with the same
components, each stands before each other, so sorting brings them together in one row, of which the
first is taken. What is left increases strictly, and a strictly increasing row of paths is known,
component by component, as soon as it is known which paths are in it.

The comparison is a hand-written loop over two lists of components with a test on four kinds inside.
It is the lexicographic order of Mathlib on lists of pairs in disguise: a component becomes the rank
of its kind with its text (`Component.toKey`), and `componentsOrdered_iff` says that the loop
decides `≤` on these. Transitivity and totality, which sorting needs, are then the library's.
-/

set_option autoImplicit false

namespace DocTree.Path

/-! ## Components by number and text

The rank comes first, and only names have a text. The map is injective, so nothing is lost by
comparing keys. -/

/-- A component by the rank of its kind and, for a name, its text. Pairs of these are ordered by the
library, with all the laws that are needed. -/
def Component.toKey : Component → Nat ×ₗ String
  | .root => toLex (0, "")
  | .current => toLex (1, "")
  | .parent => toLex (2, "")
  | .name text => toLex (3, text)

theorem Component.toKey_injective : Function.Injective Component.toKey := by
  intro a b h
  cases a <;> cases b <;> simp_all [Component.toKey]

theorem Component.before_iff {a b : Component} : a.before b = true ↔ a.toKey < b.toKey := by
  cases a <;> cases b <;>
    simp [Component.before, Component.rank, Component.toKey, Prod.Lex.toLex_lt_toLex]

def toKeys (path : String) : List (Nat ×ₗ String) := (components path).map Component.toKey

theorem toKeys_eq_iff {a b : String} : toKeys a = toKeys b ↔ components a = components b :=
  (List.map_injective_iff.2 Component.toKey_injective).eq_iff

/-- **Rows of components are compared as texts are**, from the first on. A row is not after another
that it begins, so the empty one is the least. -/
theorem componentsOrdered_iff {as bs : List Component} :
    componentsOrdered as bs = true ↔ ¬ bs.map Component.toKey < as.map Component.toKey := by
  induction as generalizing bs with
  | nil => simp [componentsOrdered]
  | cons a as ih =>
    cases bs with
    | nil => simp [componentsOrdered]
    | cons b bs =>
      rw [componentsOrdered, Bool.or_eq_true, Bool.and_eq_true, Component.before_iff, beq_iff_eq,
        ih, List.map_cons, List.map_cons, List.cons_lt_cons_iff,
        ← Component.toKey_injective.eq_iff]
      rcases lt_trichotomy a.toKey b.toKey with h | h | h
      · simp [h, h.not_gt, h.ne']
      · simp [h]
      · simp [h, h.not_gt, h.ne']

theorem ordered_iff {a b : String} : ordered a b = true ↔ ¬ toKeys b < toKeys a :=
  componentsOrdered_iff

theorem same_iff {a b : String} : same a b = true ↔ components a = components b := beq_iff_eq

/-! ## Strictly increasing paths

On texts the order has ties, for `a//b` and `a/b`, and this is why uniqueness is one of rows of
components: the texts in two such rows need not be the same. -/

def Before (a b : String) : Prop := ordered a b = true ∧ same a b = false

theorem before_iff {a b : String} : Before a b ↔ toKeys a < toKeys b := by
  rw [Before, ordered_iff, ← Bool.not_eq_true, same_iff, ← toKeys_eq_iff]
  constructor
  · rintro ⟨h, hne⟩
    exact lt_of_le_of_ne (not_lt.1 h) hne
  · intro h
    exact ⟨h.not_gt, h.ne⟩

/-- **Increasing paths are known by which they are**, up to the texts that show them. Both rows are
sorted by a strict order and have the same members. -/
theorem map_components_eq {paths others : List String} (increasing : paths.Pairwise Before)
    (increasing' : others.Pairwise Before)
    (same : ∀ row, row ∈ paths.map components ↔ row ∈ others.map components) :
    paths.map components = others.map components := by
  have rows : ∀ {paths : List String}, paths.Pairwise Before →
      (paths.map components).Pairwise fun a b =>
        a.map Component.toKey < b.map Component.toKey := by
    intro paths h
    rw [List.pairwise_map]
    exact h.imp before_iff.1
  have nodup : ∀ {paths : List String}, paths.Pairwise Before → (paths.map components).Nodup := by
    intro paths h
    refine (rows h).imp fun hab he => ?_
    rw [he] at hab
    exact lt_irrefl _ hab
  exact List.Perm.eq_of_pairwise (fun _ _ _ _ hab hba => absurd hba (lt_asymm hab))
    (rows increasing) (rows increasing')
    ((List.perm_ext_iff_of_nodup (nodup increasing) (nodup increasing')).2 same)

/-! ## Sorting and dropping repetitions

Dropping compares neighbours only, from the end. On a sorted list that removes all repetitions, and
the three facts that are proved of it are the ones of a set: increasing, contained, exhaustive. -/

theorem pairwise_mergeSort (paths : List String) :
    (paths.mergeSort ordered).Pairwise fun a b => ordered a b = true := by
  refine List.pairwise_mergeSort (fun a b c hab hbc => ?_) (fun a b => ?_) paths
  · rw [ordered_iff, not_lt] at hab hbc ⊢
    exact le_trans hab hbc
  · rw [Bool.or_eq_true, ordered_iff, ordered_iff, not_lt, not_lt]
    exact le_total _ _

theorem dropRepeats_cons (path : String) (rest : List String) :
    dropRepeats (path :: rest) =
      match dropRepeats rest with
      | [] => [path]
      | next :: others => if same path next then path :: others else path :: next :: others := rfl

theorem dropRepeats_sublist (paths : List String) : (dropRepeats paths).Sublist paths := by
  induction paths with
  | nil => exact List.Sublist.refl []
  | cons path rest ih =>
    rw [dropRepeats_cons]
    cases hrest : dropRepeats rest with
    | nil => exact List.singleton_sublist.2 List.mem_cons_self
    | cons next others =>
      rw [hrest] at ih
      dsimp only
      split
      · exact ((List.sublist_cons_self next others).trans ih).cons_cons path
      · exact ih.cons_cons path

/-- Of every row of the same paths one is kept: the first, whose text may be another than that of
the path in question. -/
theorem exists_mem_dropRepeats {paths : List String} {path : String} (h : path ∈ paths) :
    ∃ kept ∈ dropRepeats paths, components kept = components path := by
  induction paths with
  | nil => cases h
  | cons first rest ih =>
    rw [dropRepeats_cons]
    cases hrest : dropRepeats rest with
    | nil =>
      rcases List.mem_cons.1 h with rfl | h
      · exact ⟨path, List.mem_cons_self, rfl⟩
      · obtain ⟨kept, hkept, -⟩ := ih h
        rw [hrest] at hkept
        cases hkept
    | cons next others =>
      rw [hrest] at ih
      dsimp only
      split
      case isTrue hsame =>
        -- the first path stands for the next one too, which may have been the one that was kept
        rw [same_iff] at hsame
        rcases List.mem_cons.1 h with rfl | h
        · exact ⟨path, List.mem_cons_self, rfl⟩
        · obtain ⟨kept, hkept, he⟩ := ih h
          rcases List.mem_cons.1 hkept with rfl | hkept
          · exact ⟨first, List.mem_cons_self, hsame.trans he⟩
          · exact ⟨kept, List.mem_cons_of_mem _ hkept, he⟩
      case isFalse =>
        rcases List.mem_cons.1 h with rfl | h
        · exact ⟨path, List.mem_cons_self, rfl⟩
        · obtain ⟨kept, hkept, he⟩ := ih h
          exact ⟨kept, List.mem_cons_of_mem _ hkept, he⟩

/-- Of paths in order, no two that are kept are the same. In order, paths that are the same stand
next to each other, so comparing neighbours is enough. -/
theorem dropRepeats_increasing {paths : List String}
    (sorted : paths.Pairwise fun a b => ordered a b = true) :
    (dropRepeats paths).Pairwise Before := by
  induction paths with
  | nil => exact List.Pairwise.nil
  | cons path rest ih =>
    obtain ⟨hpath, hrest⟩ := List.pairwise_cons.1 sorted
    have increasing := ih hrest
    rw [dropRepeats_cons]
    cases hkept : dropRepeats rest with
    | nil => exact List.pairwise_singleton Before path
    | cons next others =>
      rw [hkept] at increasing
      obtain ⟨hnext, hothers⟩ := List.pairwise_cons.1 increasing
      have hmem : next ∈ rest :=
        (dropRepeats_sublist rest).subset (hkept ▸ List.mem_cons_self)
      dsimp only
      split
      case isTrue hsame =>
        -- the path stands in the place of the next one, and before the same others
        refine List.pairwise_cons.2 ⟨fun other ho => ?_, hothers⟩
        rw [same_iff, ← toKeys_eq_iff] at hsame
        rw [before_iff, hsame, ← before_iff]
        exact hnext other ho
      case isFalse hsame =>
        have first : Before path next := ⟨hpath next hmem, Bool.eq_false_iff.2 hsame⟩
        refine List.pairwise_cons.2 ⟨fun other ho => ?_, increasing⟩
        rcases List.mem_cons.1 ho with rfl | ho
        · exact first
        · exact before_iff.2 ((before_iff.1 first).trans (before_iff.1 (hnext other ho)))

/-- **Sorted paths, each once, increase.** With the two facts that follow, on what is among them,
this determines the result up to texts. -/
theorem sortDistinct_increasing (paths : List String) : (sortDistinct paths).Pairwise Before :=
  dropRepeats_increasing (pairwise_mergeSort paths)

/-- No path is made up: all of them were there before, with the same text. -/
theorem mem_of_mem_sortDistinct {paths : List String} {path : String}
    (h : path ∈ sortDistinct paths) : path ∈ paths :=
  List.mem_mergeSort.1 ((dropRepeats_sublist _).subset h)

/-- No path is lost: each is still there, or another text of the same components is. -/
theorem exists_mem_sortDistinct {paths : List String} {path : String} (h : path ∈ paths) :
    ∃ kept ∈ sortDistinct paths, components kept = components path :=
  exists_mem_dropRepeats (List.mem_mergeSort.2 h)

end DocTree.Path
