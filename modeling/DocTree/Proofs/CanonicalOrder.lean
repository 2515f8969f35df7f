import DocTree.Listing
import Mathlib.Data.List.Lex
import Mathlib.Data.Prod.Lex
import Mathlib.Data.String.Basic

/-!
# The canonical order

Two facts about the order in which keys are published. It depends on the set of the keys alone,
since no two different keys are equal in it; and a key stands before every key that it begins.

The second is not the plain fact about prefixes. Lower-casing is no homomorphism: a capital sigma at
the end of `p` may become `ς` there and `σ` in a longer text, so `lower p` need not begin `lower (p
++ rest)`. But only this change can happen, never the other way around, and `ς` comes before `σ`; so
at the first place where the two differ, `p` has the smaller character.

Everything that is later said of the forest rests on the second fact: a parent has a smaller number
than its child, so children are attached to nodes that are roots still. That it holds for all texts,
and not only for those without a sigma, is luck of the alphabet in a sense. Had the two small sigmas
come in the other order, a key ending in one could stand behind its own children.

The sorted list is compared with the library's lexicographic order on pairs (`before_iff_toLex`),
and a list sorted by that is unique for its members. Hence the first fact, with no condition on the
listing.
-/

set_option autoImplicit false

namespace DocTree

namespace Text

/-! ## Lower-casing the beginning of a text

The induction is on the text in front, with the characters passed so far as an argument. Only at a
capital sigma do the two sides look at different things, and there it is the text behind that is
longer on one side. -/

theorem startsCased_append {cs : List Char} (h : startsCased cs = true) (rest : List Char) :
    startsCased (cs ++ rest) = true := by
  rw [startsCased] at h ⊢
  rw [List.dropWhile_append]
  cases hd : cs.dropWhile isCaseIgnorable with
  | nil =>
    rw [hd] at h
    cases h
  | cons c others =>
    rw [hd] at h
    exact h

/-- A sigma that ends a word in a longer text ends it in the shorter one too, so more text can only
turn `ς` into `σ`. -/
theorem smallSigma_append (before after rest : List Char) :
    smallSigma before after = smallSigma before (after ++ rest) ∨
      smallSigma before after < smallSigma before (after ++ rest) := by
  unfold smallSigma endsWord
  by_cases hb : startsCased before = true
  · by_cases ha : startsCased after = true
    · simp [hb, ha, startsCased_append ha]
    · by_cases hr : startsCased (after ++ rest) = true
      · right
        simp only [hb, ha, hr]
        decide
      · simp [hb, ha, hr]
  · simp [hb]

theorem lowerChar_ne_nil (c : Char) : lowerChar c ≠ [] := by
  unfold lowerChar
  split
  · exact List.cons_ne_nil _ _
  · split <;> exact List.cons_ne_nil _ _

theorem lowerAfter_ne_nil (before : List Char) {cs : List Char} (h : cs ≠ []) :
    lowerAfter before cs ≠ [] := by
  cases cs with
  | nil => exact absurd rfl h
  | cons c rest =>
    rw [lowerAfter, ne_eq, List.append_eq_nil_iff]
    rintro ⟨hc, -⟩
    split at hc
    · cases hc
    · exact lowerChar_ne_nil c hc

/-- **More text makes the lower-case form greater**, even where it changes the form of what was
there before. -/
theorem lowerAfter_lt_append (before cs : List Char) {rest : List Char} (h : rest ≠ []) :
    lowerAfter before cs < lowerAfter before (cs ++ rest) := by
  induction cs generalizing before with
  | nil =>
    obtain ⟨c, others, hc⟩ := List.exists_cons_of_ne_nil (lowerAfter_ne_nil before h)
    rw [lowerAfter, List.nil_append, hc]
    exact List.nil_lt_cons c others
  | cons c others ih =>
    rw [List.cons_append, lowerAfter, lowerAfter]
    by_cases hc : c = capitalSigma
    · rw [if_pos hc, if_pos hc, List.singleton_append, List.singleton_append, List.cons_lt_cons_iff]
      rcases smallSigma_append before others rest with he | hl
      · exact Or.inr ⟨he, ih _⟩
      · exact Or.inl hl
    · rw [if_neg hc, if_neg hc]
      exact List.append_left_lt (ih _)

theorem lower_lt_append (p : String) {rest : String} (h : rest ≠ "") :
    lower p < lower (p ++ rest) := by
  rw [String.lt_iff_toList_lt, lower, lower, String.toList_ofList, String.toList_ofList,
    String.toList_append]
  exact lowerAfter_lt_append [] p.toList (fun he => h (String.toList_eq_nil_iff.1 he))

end Text

namespace Listing

/-! ## The order of two keys

`Before` is what is claimed of neighbouring keys; `orderedBefore` in the model is its reflexive
form, given with the lower-case forms computed beforehand. -/

/-- Whether a key stands before another: by their lower-case forms, and where these are the same,
by the exact texts. -/
def Before (a b : String) : Prop :=
  Text.lower a < Text.lower b ∨ (Text.lower a = Text.lower b ∧ a < b)

instance : DecidableRel Before := fun a b =>
  inferInstanceAs
    (Decidable (Text.lower a < Text.lower b ∨ (Text.lower a = Text.lower b ∧ a < b)))

theorem before_iff_toLex {a b : String} :
    Before a b ↔ toLex (Text.lower a, a) < toLex (Text.lower b, b) := by
  rw [Before, Prod.Lex.toLex_lt_toLex]

theorem Before.asymm {a b : String} (h : Before a b) : ¬ Before b a := by
  rw [before_iff_toLex] at h ⊢
  exact lt_asymm h

theorem Before.irrefl (a : String) : ¬ Before a a := fun h => h.asymm h

/-- **A key stands before every longer key that it begins**, whatever lower-casing makes of the two.
-/
theorem before_append (p : String) {rest : String} (h : rest ≠ "") : Before p (p ++ rest) :=
  Or.inl (Text.lower_lt_append p h)

/-! ## Sorted keys

The keys are sorted as pairs with their lower-case forms, and the forms are dropped afterwards. -/

theorem orderedBefore_iff {a b : String × String} :
    orderedBefore a b = true ↔ toLex a ≤ toLex b := by
  rw [Prod.Lex.toLex_le_toLex, le_iff_lt_or_eq]
  simp [orderedBefore]

theorem pairwise_sorted (entries : List (String × String)) :
    (entries.mergeSort orderedBefore).Pairwise fun a b => toLex a ≤ toLex b := by
  have sorted : (entries.mergeSort orderedBefore).Pairwise fun a b => orderedBefore a b = true := by
    refine List.pairwise_mergeSort (fun a b c hab hbc => ?_) (fun a b => ?_) entries
    · rw [orderedBefore_iff] at hab hbc ⊢
      exact le_trans hab hbc
    · rw [Bool.or_eq_true, orderedBefore_iff, orderedBefore_iff]
      exact le_total _ _
  exact sorted.imp orderedBefore_iff.1

theorem sortKeys_perm (keys : List String) : (sortKeys keys).Perm keys := by
  have hp := (List.mergeSort_perm (keys.map fun key => (Text.lower key, key)) orderedBefore).map
    Prod.snd
  rw [List.map_map] at hp
  exact hp.trans (List.Perm.of_eq (List.map_id keys))

/-- **Sorting forgets how the keys stood before.** The order is antisymmetric on pairs of a key and
its lower-case form, and so two sorted arrangements of the same pairs are equal. -/
theorem sortKeys_congr {keys keys' : List String} (h : keys.Perm keys') :
    sortKeys keys = sortKeys keys' := by
  have hp : (keys.map fun key => (Text.lower key, key)).Perm
      (keys'.map fun key => (Text.lower key, key)) := h.map _
  have same : (keys.map fun key => (Text.lower key, key)).mergeSort orderedBefore
      = (keys'.map fun key => (Text.lower key, key)).mergeSort orderedBefore := by
    refine List.Perm.eq_of_pairwise (fun a b _ _ hab hba => ?_) (pairwise_sorted _)
      (pairwise_sorted _)
      ((List.mergeSort_perm _ _).trans (hp.trans (List.mergeSort_perm _ _).symm))
    exact toLex.injective (le_antisymm hab hba)
  rw [sortKeys, sortKeys, same]

theorem sortKeys_pairwise {keys : List String} (h : keys.Nodup) :
    (sortKeys keys).Pairwise Before := by
  have paired : ∀ entry ∈ (keys.map fun key => (Text.lower key, key)).mergeSort orderedBefore,
      entry.1 = Text.lower entry.2 := by
    intro entry hm
    obtain ⟨key, -, rfl⟩ := List.mem_map.1 (List.mem_mergeSort.1 hm)
    rfl
  have hnodup : (sortKeys keys).Pairwise (· ≠ ·) := (sortKeys_perm keys).nodup_iff.2 h
  rw [sortKeys, List.pairwise_map] at hnodup ⊢
  refine ((pairwise_sorted _).and hnodup).imp_of_mem fun {a b} ha hb hab => ?_
  have hne : toLex a ≠ toLex b := fun he => hab.2 (congrArg (fun e => (ofLex e).2) he)
  rw [before_iff_toLex, ← paired a ha, ← paired b hb]
  exact lt_of_le_of_ne hab.1 hne

/-! ## The order of a listing

With numbers in place of keys: to stand before is to have the smaller number. This is the form in
which the forest uses the order. -/

theorem canonicalOrder_perm (listing : Listing) : listing.canonicalOrder.Perm listing.keys :=
  sortKeys_perm _

theorem canonicalOrder_nodup (listing : Listing) : listing.canonicalOrder.Nodup :=
  (canonicalOrder_perm listing).nodup_iff.2 listing.nodup

/-- Only one arrangement of the keys is sorted. This is also how the order of given keys is found:
write it down, and check neighbours. -/
theorem canonicalOrder_eq {listing : Listing} {keys : List String} (perm : listing.keys.Perm keys)
    (sorted : keys.Pairwise Before) : listing.canonicalOrder = keys :=
  List.Perm.eq_of_pairwise (fun _ _ _ _ hab hba => absurd hba hab.asymm)
    (sortKeys_pairwise listing.nodup) sorted ((canonicalOrder_perm listing).trans perm)

theorem mem_canonicalOrder {listing : Listing} {key : String} :
    key ∈ listing.canonicalOrder ↔ key ∈ listing.keys := (canonicalOrder_perm listing).mem_iff

theorem before_iff_lt {listing : Listing} {i j : Nat} {key other : String}
    (hi : listing.canonicalOrder[i]? = some key) (hj : listing.canonicalOrder[j]? = some other) :
    Before key other ↔ i < j := by
  obtain ⟨hil, rfl⟩ := List.getElem?_eq_some_iff.1 hi
  obtain ⟨hjl, rfl⟩ := List.getElem?_eq_some_iff.1 hj
  have sorted := List.pairwise_iff_getElem.1 (sortKeys_pairwise listing.nodup)
  refine ⟨fun hb => ?_, sorted i j hil hjl⟩
  rcases Nat.lt_trichotomy i j with hlt | rfl | hgt
  · exact hlt
  · exact absurd hb (Before.irrefl _)
  · exact absurd hb (Before.asymm (sorted j i hjl hil hgt))

/-- In the order of a listing, the number of a key is smaller than that of any longer key that it
begins. -/
theorem lt_of_append {listing : Listing} {i j : Nat} {p rest : String} (hrest : rest ≠ "")
    (hi : listing.canonicalOrder[i]? = some p)
    (hj : listing.canonicalOrder[j]? = some (p ++ rest)) : i < j :=
  (before_iff_lt hi hj).1 (before_append p hrest)

/-! ## The canonical order -/

theorem canonicalOrder_eq_of_mem_iff {listing other : Listing}
    (same : ∀ key, key ∈ other.keys ↔ key ∈ listing.keys) :
    other.canonicalOrder = listing.canonicalOrder := by
  have perm : other.keys.Perm listing.keys :=
    (List.perm_ext_iff_of_nodup other.nodup listing.nodup).2 same
  exact sortKeys_congr perm

theorem idxOf_lt_of_isPrefix {listing : Listing} {p q : String} (hp : p ∈ listing.keys)
    (hq : q ∈ listing.keys) (begins : p.toList <+: q.toList) (hne : p ≠ q) :
    listing.canonicalOrder.idxOf p < listing.canonicalOrder.idxOf q := by
  obtain ⟨rest, hrest⟩ := begins
  have hjoin : q = p ++ String.ofList rest := by
    rw [← String.toList_inj, String.toList_append, String.toList_ofList, hrest]
  have hlonger : String.ofList rest ≠ "" := by
    intro hnil
    rw [hnil, String.append_empty] at hjoin
    exact hne hjoin.symm
  have number : ∀ key ∈ listing.keys,
      listing.canonicalOrder[listing.canonicalOrder.idxOf key]? = some key := by
    intro key hm
    exact List.getElem?_idxOf (mem_canonicalOrder.2 hm)
  apply lt_of_append hlonger (number p hp)
  rw [← hjoin]
  exact number q hq

/-- What it is for keys to stand in the canonical order of a listing. The first two fields determine
the order; the last three are what follows from them and is used elsewhere. -/
structure IsCanonical (listing : Listing) (order : List String) : Prop where
  perm : order.Perm listing.keys
  /-- The keys increase by their lower-case forms, and where these are the same, by themselves. -/
  increasing : order.Pairwise Before
  /-- A key stands before every other one that it begins. -/
  beginning_first : ∀ p ∈ listing.keys, ∀ q ∈ listing.keys, p.toList <+: q.toList → p ≠ q →
    order.idxOf p < order.idxOf q
  /-- No other arrangement increases, ... -/
  unique : ∀ other : List String, other.Perm listing.keys → other.Pairwise Before → other = order
  /-- ... and another listing of the same keys has the same one. -/
  of_keys : ∀ other : Listing, (∀ key, key ∈ other.keys ↔ key ∈ listing.keys) →
    other.canonicalOrder = order

/-- **The canonical order is the increasing one**, and puts a key before all that it begins. It is
an arrangement of the keys of a listing that depends on nothing else in that. -/
theorem isCanonical_canonicalOrder (listing : Listing) :
    IsCanonical listing listing.canonicalOrder where
  perm := canonicalOrder_perm listing
  increasing := sortKeys_pairwise listing.nodup
  beginning_first _ hp _ hq := idxOf_lt_of_isPrefix hp hq
  unique _ perm sorted := (canonicalOrder_eq perm.symm sorted).symm
  of_keys _ := canonicalOrder_eq_of_mem_iff

/-- Two keys of which one begins the other, while its lower-case form does not. A sigma is
lower-cased differently at the end of a word. -/
def sigmaListing : Listing := Catalog.ofList [("ΑΣ.Β", Record.root), ("ΑΣ", Record.root)]

/-- `ας` does not begin `ασ.β`, and still comes first. -/
theorem isCanonical_sigmaListing :
    ¬ (Text.lower "ΑΣ").toList <+: (Text.lower "ΑΣ.Β").toList ∧
      sigmaListing.canonicalOrder.idxOf "ΑΣ" < sigmaListing.canonicalOrder.idxOf "ΑΣ.Β" := by
  refine ⟨by decide +kernel, ?_⟩
  exact (isCanonical_canonicalOrder sigmaListing).beginning_first "ΑΣ" (by decide) "ΑΣ.Β"
    (by decide) (by decide) (by decide)

example : Text.lower "ΑΣ" = "ας" ∧ Text.lower "ΑΣ.Β" = "ασ.β" ∧ Text.lower "İ" = "i\u0307" := by
  decide +kernel

end Listing

end DocTree
