import DocTree.Proofs.NamelessSection

/-!
# The order of the top level

The top level has two parts, the children of the nameless section and then the other roots. Either
part is in canonical order, but it does not follow that the whole is. The keys of the first part are
one segment behind a separator, and separators stand before letters; so sections whose names begin
with a letter do come later. A record without a section whose parent is missing is a root with a
separator in front as well, and it comes after all of the first part wherever its key stands.

The nameless section is the first root, having the number zero, and its place among the roots is
where its children are put. That is all there is to the two parts: the numbers in each of them
increase, and numbers increase with the canonical order.

Neither part is described by numbers in the statement. A number belongs to the first if its key has
the empty key for its parent, and to the second if the parent of its key is missing (`BareKey`,
`OuterKey`). So it can be seen from the keys alone whether the whole is in order, and the condition
that says so is an equivalence. It fails for two records already, as the files at the end show.

That each part is complete is said by the membership clauses: every key of either kind has its
number there. A top level from which a node was missing would not satisfy them.
-/

set_option autoImplicit false

namespace DocTree

open Listing

/-! ## The statement

About a list of keys in canonical order and a list of numbers. Two keys are compared by the order,
and two numbers as numbers; `before_iff` says that it comes to the same. -/

def BareKey (key : String) : Prop := Ident.parentKey key = some ""

/-- The key of another root: its parent, if it has one, is not there. The empty key is left out, as
the nameless section is not shown. -/
def OuterKey (order : List String) (key : String) : Prop :=
  key ≠ "" ∧ ∀ parent, Ident.parentKey key = some parent → parent ∉ order

/-- The top level is put together from `bare` and `outer`, numbers of keys in canonical order. -/
structure Spliced (order : List String) (topLevel bare outer : List Nat) : Prop where
  topLevel_eq : topLevel = bare ++ outer
  mem_bare : ∀ n, n ∈ bare ↔ ∃ key, order[n]? = some key ∧ BareKey key
  mem_outer : ∀ n, n ∈ outer ↔ ∃ key, order[n]? = some key ∧ OuterKey order key
  before_iff : ∀ (n m : Nat) (key other : String), order[n]? = some key →
    order[m]? = some other → (Before key other ↔ n < m)
  bare_increasing : bare.Pairwise (· < ·)
  outer_increasing : outer.Pairwise (· < ·)
  /-- All of it is in order when no other root stands before a child of the nameless section. -/
  increasing_iff : topLevel.Pairwise (· < ·) ↔
    ∀ key ∈ order, BareKey key → ∀ other ∈ order, OuterKey order other → Before key other

/-! ## The two parts

The roots without the first one are those that are not nameless, so each of them stands for itself
at the top level. -/

namespace Assembly

variable (options : Options) (files : List SourceFile)

theorem roots_eq_cons :
    (ofFiles options files).forest.roots = 0 :: (ofFiles options files).forest.roots.tail := by
  have hzero := nameless_root options files 0 ((isNameless_iff options files).2 rfl)
  have sorted : (ofFiles options files).forest.roots.Pairwise (· < ·) := Forest.roots_sorted
  cases hroots : (ofFiles options files).forest.roots with
  | nil =>
    rw [hroots] at hzero
    cases hzero
  | cons first rest =>
    rw [hroots] at hzero sorted
    rcases List.mem_cons.1 hzero with rfl | hlater
    · rfl
    · exact absurd (List.rel_of_pairwise_cons sorted hlater) (Nat.not_lt_zero first)

theorem mem_tail_iff {n : Nat} :
    n ∈ (ofFiles options files).forest.roots.tail ↔
      n ∈ (ofFiles options files).forest.roots ∧ n ≠ 0 := by
  have sorted : (ofFiles options files).forest.roots.Pairwise (· < ·) := Forest.roots_sorted
  rw [roots_eq_cons options files] at sorted ⊢
  rw [List.tail_cons, List.mem_cons]
  constructor
  · intro hn
    exact ⟨Or.inr hn, Nat.ne_of_gt (List.rel_of_pairwise_cons sorted hn)⟩
  · rintro ⟨hn, hne⟩
    exact hn.resolve_left hne

theorem topLevel_eq :
    (Documentation.ofFiles options files).topLevel
      = (ofFiles options files).forest.children 0 ++ (ofFiles options files).forest.roots.tail := by
  have single : ∀ n ∈ (ofFiles options files).forest.roots.tail,
      (if (ofFiles options files).forest.isNameless n then
        (ofFiles options files).forest.children n else [n]) = [n] := by
    intro n hn
    apply if_neg
    rw [isNameless_iff]
    exact ((mem_tail_iff options files).1 hn).2
  calc (Documentation.ofFiles options files).topLevel
      = (ofFiles options files).forest.topLevel := Documentation.topLevel_ofForest _
    _ = (ofFiles options files).forest.children 0 ++ (ofFiles options files).forest.roots.tail := by
      rw [Forest.topLevel, roots_eq_cons, List.flatMap_cons,
        if_pos ((isNameless_iff options files).2 rfl), List.tail_cons, List.flatMap_congr single,
        List.flatMap_singleton']

theorem mem_bare_iff {n : Nat} :
    n ∈ (ofFiles options files).forest.children 0 ↔
      ∃ key, (ofFiles options files).order[n]? = some key ∧ BareKey key := by
  have zero := (getElem?_order_eq_empty_iff options files).2 rfl
  refine Forest.mem_children_iff.trans ⟨?_, ?_⟩
  · rintro ⟨key, parent, hkey, hparent, hzero⟩
    cases Option.some.inj (hzero.symm.trans zero)
    exact ⟨key, hkey, hparent⟩
  · rintro ⟨key, hkey, hparent⟩
    exact ⟨key, "", hkey, hparent, zero⟩

theorem mem_outer_iff {n : Nat} :
    n ∈ (ofFiles options files).forest.roots.tail ↔
      ∃ key, (ofFiles options files).order[n]? = some key ∧
        OuterKey (ofFiles options files).order key := by
  have hroot : n ∈ (ofFiles options files).forest.roots ↔
      ∃ key, (ofFiles options files).order[n]? = some key ∧
        ∀ parent, Ident.parentKey key = some parent → parent ∉ (ofFiles options files).order := by
    refine Forest.mem_roots_iff.trans (exists_congr fun key => and_congr_right fun _ => ?_)
    exact forall_congr' fun parent => imp_congr_right fun _ => not_congr mem_canonicalOrder.symm
  rw [mem_tail_iff, hroot, ne_eq, ← getElem?_order_eq_empty_iff options files]
  constructor
  · rintro ⟨⟨key, hkey, hparent⟩, hne⟩
    exact ⟨key, hkey, fun he => hne (he ▸ hkey), hparent⟩
  · rintro ⟨key, hkey, hne, hparent⟩
    exact ⟨⟨key, hkey, hparent⟩, fun he => hne (Option.some.inj (hkey.symm.trans he))⟩

end Assembly

/-- **The top level is two parts in canonical order**, and in canonical order itself when the first
part ends before the second begins. -/
theorem Documentation.exists_spliced (options : Options) (files : List SourceFile) :
    ∃ bare outer, Spliced (Assembly.ofFiles options files).order
      (Documentation.ofFiles options files).topLevel bare outer := by
  have hbare : ((Assembly.ofFiles options files).forest.children 0).Pairwise (· < ·) :=
    Forest.children_sorted 0
  have houter : (Assembly.ofFiles options files).forest.roots.tail.Pairwise (· < ·) :=
    Forest.roots_sorted.tail
  have hbefore : ∀ n m key other, (Assembly.ofFiles options files).order[n]? = some key →
      (Assembly.ofFiles options files).order[m]? = some other → (Before key other ↔ n < m) :=
    fun n m key other hn hm => before_iff_lt hn hm
  refine ⟨(Assembly.ofFiles options files).forest.children 0,
    (Assembly.ofFiles options files).forest.roots.tail, ?_⟩
  constructor
  case topLevel_eq => exact Assembly.topLevel_eq options files
  case mem_bare => exact fun n => Assembly.mem_bare_iff options files
  case mem_outer => exact fun n => Assembly.mem_outer_iff options files
  case before_iff => exact hbefore
  case bare_increasing => exact hbare
  case outer_increasing => exact houter
  case increasing_iff =>
    -- both parts increase, so all that is open is the order across them
    rw [Assembly.topLevel_eq, List.pairwise_append]
    constructor
    · rintro ⟨-, -, hacross⟩ key hkey hbareKey other hother houterKey
      obtain ⟨n, hn⟩ := List.mem_iff_getElem?.1 hkey
      obtain ⟨m, hm⟩ := List.mem_iff_getElem?.1 hother
      refine (hbefore n m key other hn hm).2 (hacross n ?_ m ?_)
      · exact (Assembly.mem_bare_iff options files).2 ⟨key, hn, hbareKey⟩
      · exact (Assembly.mem_outer_iff options files).2 ⟨other, hm, houterKey⟩
    · intro hacross
      refine ⟨hbare, houter, fun n hn m hm => ?_⟩
      obtain ⟨key, hkey, hbareKey⟩ := (Assembly.mem_bare_iff options files).1 hn
      obtain ⟨other, hother, houterKey⟩ := (Assembly.mem_outer_iff options files).1 hm
      exact (hbefore n m key other hkey hother).1 (hacross key (List.mem_of_getElem? hkey) hbareKey
        other (List.mem_of_getElem? hother) houterKey)

def orphanFiles : List SourceFile :=
  [SourceFile.ofRecords "a.json"
    [RawRecord.brief "Foo" .classKind none, RawRecord.brief "A.b" .method none]]

theorem Listing.order_orphanFiles :
    (merge Options.plain orphanFiles).inferSections.canonicalOrder = ["", ".A.b", ".Foo"] := by
  have keys : (merge Options.plain orphanFiles).inferSections.keys = ["", ".Foo", ".A.b"] := by
    decide +kernel
  refine canonicalOrder_eq ?_ (by decide +kernel)
  rw [keys]
  exact .cons "" (.swap ".A.b" ".Foo" [])

/-- **The top level is not always in canonical order.** The method stands before the class in the
order of the keys, and comes after it at the top level. -/
theorem Documentation.topLevel_not_increasing :
    (Assembly.ofFiles Options.plain orphanFiles).order = ["", ".A.b", ".Foo"] ∧
      (Documentation.ofFiles Options.plain orphanFiles).topLevel = [2, 1] ∧
      ¬ (Documentation.ofFiles Options.plain orphanFiles).topLevel.Pairwise (· < ·) := by
  have topLevel : (Documentation.ofFiles Options.plain orphanFiles).topLevel = [2, 1] := by
    rw [Listing.ofFiles_of_order Listing.order_orphanFiles]
    decide +kernel
  refine ⟨Listing.order_orphanFiles, topLevel, ?_⟩
  rw [topLevel]
  decide

end DocTree
