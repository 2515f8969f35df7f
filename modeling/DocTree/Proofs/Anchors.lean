import DocTree.Anchor
import DocTree.Proofs.Numerals
import Mathlib.Data.List.Basic
import Mathlib.Data.List.Nodup
import Mathlib.Data.List.Perm.Subperm

/-!
# Anchors are different

The numbered forms of a slug are all different, so among the first of them, one more than there are
anchors in use, one is free: `firstFree` finds it within its retries, and what it gives is never in
use. An anchor is made of letters, digits and hyphens, whatever the path is.

Two things make this more than counting. The forms of different slugs can coincide, `a` with the
number one and the slug `a-1`, so it is not enough to count how often a slug came before; the search
has to look at all anchors in use, of whatever slug. And the search has a bound built in, after
which it would give out an anchor that is taken. Both are settled by one pigeonhole argument
(`exists_free`), which asks for no more than that the forms of one slug are distinct.

What a path gets is described by the loop that tries one form after the other (`Search`), an
inductive relation with a rule for each outcome of a try. A derivation is a run of the loop that has
ended, with the number of its retries, so the bound on these is a statement about every run.
-/

set_option autoImplicit false

namespace DocTree.Anchor

open DocTree.Text

/-! ## The forms of a slug

The number zero adds nothing and any other a hyphen and a numeral. Numerals are distinct for
distinct numbers, and the slug in front cancels. -/

theorem candidate_injective (base : String) : Function.Injective (candidate base) := by
  -- number zero has no hyphen behind the slug, and any other form has one
  have longer : ∀ n, base ≠ candidate base (n + 1) := by
    intro n h
    have hlength := congrArg (fun text => text.toList.length) h
    simp [candidate] at hlength
  intro n m h
  cases n with
  | zero =>
    cases m with
    | zero => rfl
    | succ m => exact absurd h (longer m)
  | succ n =>
    cases m with
    | zero => exact absurd h.symm (longer n)
    | succ m =>
      have hlist := congrArg String.toList h
      simp only [candidate, String.toList_append, String.toList_ofList, List.append_assoc] at hlist
      exact decimal_injective (List.append_cancel_left (List.append_cancel_left hlist))

theorem exists_free (used : List String) (base : String) :
    ∃ n ≤ used.length, candidate base n ∉ used := by
  by_contra none
  -- else there were more forms in use than there are anchors
  have nodup : ((List.range (used.length + 1)).map (candidate base)).Nodup :=
    List.nodup_range.map (candidate_injective base)
  have taken : (List.range (used.length + 1)).map (candidate base) ⊆ used := by
    intro anchor h
    obtain ⟨n, hn, rfl⟩ := List.mem_map.1 h
    by_contra hfree
    exact none ⟨n, Nat.le_of_lt_succ (List.mem_range.1 hn), hfree⟩
  have hlength := (nodup.subperm taken).length_le
  rw [List.length_map, List.length_range] at hlength
  exact Nat.not_succ_le_self _ hlength

/-! ## The first free form

The specification of `firstFree` assumes a free form within the retries and says which one comes
out: the first, all before it being taken. `exists_free` discharges the assumption for as many
retries as there are anchors in use. -/

theorem firstFree_spec {used : List String} {base : String} {retries n : Nat}
    (free : ∃ k ≤ retries, candidate base (n + k) ∉ used) :
    ∃ k, firstFree used base retries n = candidate base (n + k) ∧
      candidate base (n + k) ∉ used ∧ ∀ i < k, candidate base (n + i) ∈ used := by
  induction retries generalizing n with
  | zero =>
    obtain ⟨k, hk, hfree⟩ := free
    cases Nat.le_zero.1 hk
    exact ⟨0, rfl, hfree, nofun⟩
  | succ retries ih =>
    rw [firstFree]
    by_cases hn : candidate base n ∈ used
    · rw [if_pos (List.contains_iff_mem.2 hn)]
      -- this form is in use, so the free one is among those that the remaining retries reach
      have later : ∃ k ≤ retries, candidate base (n + 1 + k) ∉ used := by
        obtain ⟨k, hk, hfree⟩ := free
        cases k with
        | zero => exact absurd hn hfree
        | succ k =>
          exact ⟨k, Nat.le_of_succ_le_succ hk, by rwa [Nat.add_assoc, Nat.add_comm 1 k]⟩
      obtain ⟨k, hk, hfree, hused⟩ := ih later
      rw [Nat.add_assoc, Nat.add_comm 1 k] at hk hfree
      refine ⟨k + 1, hk, hfree, fun i hi => ?_⟩
      cases i with
      | zero => exact hn
      | succ i =>
        have hi := hused i (Nat.lt_of_succ_lt_succ hi)
        rwa [Nat.add_assoc, Nat.add_comm 1 i] at hi
    · rw [if_neg fun h => hn (List.contains_iff_mem.1 h)]
      exact ⟨0, rfl, hn, nofun⟩

/-- **The anchor of a path is the first form of its slug that is free.** There is a free one among
as many forms as there are anchors in use and one more, so the search has retries enough. -/
theorem fresh_spec (used : List String) (path : String) :
    ∃ k, fresh used path = candidate (base path) k ∧ candidate (base path) k ∉ used ∧
      ∀ i < k, candidate (base path) i ∈ used := by
  obtain ⟨n, hn, hfree⟩ := exists_free used (base path)
  have hspec := firstFree_spec (n := 0) ⟨n, hn, by rwa [Nat.zero_add]⟩
  simp only [Nat.zero_add] at hspec
  exact hspec

theorem fresh_not_mem (used : List String) (path : String) : fresh used path ∉ used := by
  obtain ⟨k, hk, hfree, -⟩ := fresh_spec used path
  rwa [hk]

/-! ## All anchors

Each path gets its anchor with those before it in use, so an anchor is never given twice; the list
is in the order of the paths. -/

theorem length_assignFrom (used paths : List String) :
    (assignFrom used paths).length = paths.length := by
  induction paths generalizing used with
  | nil => rfl
  | cons path rest ih => rw [assignFrom, List.length_cons, List.length_cons, ih]

theorem length_assign (paths : List String) : (assign paths).length = paths.length :=
  length_assignFrom [] paths

theorem not_mem_of_mem_assignFrom {used paths : List String} {anchor : String}
    (h : anchor ∈ assignFrom used paths) : anchor ∉ used := by
  induction paths generalizing used with
  | nil => cases h
  | cons path rest ih =>
    rcases List.mem_cons.1 h with rfl | h
    · exact fresh_not_mem used path
    · exact fun hused => ih h (List.mem_cons_of_mem _ hused)

theorem nodup_assignFrom (used paths : List String) : (assignFrom used paths).Nodup := by
  induction paths generalizing used with
  | nil => exact List.nodup_nil
  | cons path rest ih =>
    exact List.nodup_cons.2 ⟨fun h => not_mem_of_mem_assignFrom h List.mem_cons_self, ih _⟩

/-- **No two paths of a document have the same anchor**, even if they are the same path or have the
same slug. -/
theorem nodup_assign (paths : List String) : (assign paths).Nodup := nodup_assignFrom [] paths

/-! ## The characters of an anchor

An anchor is put into an attribute, into the target of a link and between hyphens of its own
numbers. What could end the first two is no letter, digit or hyphen, so it cannot occur
(`Plain.not_mem`). -/

def Plain (anchor : String) : Prop := ∀ c ∈ anchor.toList, isAlphanumeric c = true ∨ c = '-'

theorem isAlphanumeric_of_isDigit {c : Char} (h : c.isDigit = true) :
    isAlphanumeric c = true := by
  obtain ⟨low, high⟩ := Char.isDigit_iff_toNat.1 h
  have first : ('0'.toNat : Nat) = 48 := rfl
  have last : ('9'.toNat : Nat) = 57 := rfl
  rw [isAlphanumeric, alphanumericRanges, inRanges, if_neg (by omega), if_pos (by omega)]

theorem isAlphanumeric_of_small {c : Char} (low : 97 ≤ c.toNat) (high : c.toNat ≤ 122) :
    isAlphanumeric c = true := by
  rw [isAlphanumeric, alphanumericRanges]
  iterate 2 rw [inRanges, if_neg (by omega), if_neg (by omega)]
  rw [inRanges, if_neg (by omega), if_pos (by omega)]

theorem plain_slug (text : String) : Plain (slug text) := by
  intro c hc
  rw [slug, String.toList_ofList] at hc
  obtain ⟨d, hd, rfl⟩ := List.mem_map.1 hc
  have hslug := (List.mem_filter.1 hd).2
  by_cases blank : d = ' '
  · exact Or.inr (if_pos blank)
  · rw [if_neg blank]
    simpa [isSlugChar, blank] using hslug

theorem plain_base (path : String) : Plain (base path) := by
  rw [base]
  split
  · intro c hc
    have word : "record".toList.all (fun c => 97 ≤ c.toNat && c.toNat ≤ 122) = true := by decide
    have hletter := List.all_eq_true.1 word c hc
    simp only [Bool.and_eq_true, decide_eq_true_eq] at hletter
    exact Or.inl (isAlphanumeric_of_small hletter.1 hletter.2)
  · exact plain_slug path

theorem plain_candidate {base : String} (h : Plain base) (n : Nat) : Plain (candidate base n) := by
  cases n with
  | zero => exact h
  | succ n =>
    intro c hc
    simp only [candidate, String.toList_append, String.toList_ofList] at hc
    rcases List.mem_append.1 hc with hc | hc
    · rcases List.mem_append.1 hc with hc | hc
      · exact h c hc
      · exact Or.inr (List.mem_singleton.1 hc)
    · exact Or.inl (isAlphanumeric_of_isDigit (isDigit_of_mem_decimal hc))

theorem plain_of_mem_assignFrom {used paths : List String} {anchor : String}
    (h : anchor ∈ assignFrom used paths) : Plain anchor := by
  induction paths generalizing used with
  | nil => cases h
  | cons path rest ih =>
    rcases List.mem_cons.1 h with rfl | h
    · obtain ⟨k, hk, -⟩ := fresh_spec used path
      rw [hk]
      exact plain_candidate (plain_base path) k
    · exact ih h

/-- Nothing that ends the attribute or the tag of an anchor stands in it, and no bracket or line end
either; all of these are asked for by their characters. -/
theorem Plain.not_mem {anchor : String} (h : Plain anchor) {c : Char}
    (other : isAlphanumeric c = false ∧ c ≠ '-') : c ∉ anchor.toList := by
  intro hc
  rcases h c hc with ha | ha
  · rw [other.1] at ha
    cases ha
  · exact other.2 ha

/-! ## One path after the other

The statement for a single path, given the anchors before it, and then for each path of a document.
-/

/-- The loop that tries the forms of a slug from a number on. It ends with the first one that is not
in use; each one that is costs a retry. -/
inductive Search (used : List String) (base : String) : Nat → Nat → String → Prop where
  | free {n : Nat} (free : candidate base n ∉ used) : Search used base n 0 (candidate base n)
  | retry {n retries : Nat} {anchor : String} (taken : candidate base n ∈ used)
      (rest : Search used base (n + 1) retries anchor) : Search used base n (retries + 1) anchor

theorem Search.of_first {used : List String} {base : String} {n k : Nat}
    (free : candidate base (n + k) ∉ used) (taken : ∀ i < k, candidate base (n + i) ∈ used) :
    Search used base n k (candidate base (n + k)) := by
  induction k generalizing n with
  | zero => exact .free free
  | succ k ih =>
    have shift : ∀ i, n + (i + 1) = n + 1 + i := by
      intro i
      omega
    rw [shift] at free ⊢
    refine .retry (taken 0 (Nat.succ_pos k)) (ih free ?_)
    intro i hi
    rw [← shift]
    exact taken (i + 1) (Nat.succ_lt_succ hi)

/-- The retries that a search can take so that a signed counter of 32 bits holds their number. The
counter of the search is not bounded here, so this says when it need not be. -/
def counterLimit : Nat := 0x80000000

/-- What a path gets when the anchors `earlier` are given out. The order and the form in which these
are kept do not come into it. -/
structure Assigned (earlier : List String) (path anchor : String) : Prop where
  /-- The search ends, after no more retries than there are anchors given out. -/
  search : ∃ retries ≤ earlier.length, retries < counterLimit ∧
    Search earlier (base path) 0 retries anchor
  /-- It ends with the first form of the slug that was not given out. -/
  first : ∃ n, anchor = candidate (base path) n ∧ anchor ∉ earlier ∧
    ∀ i < n, candidate (base path) i ∈ earlier
  base_eq : base path = if slug path = "" then "record" else slug path
  ne_empty : anchor ≠ ""
  plain : Plain anchor

theorem candidate_ne_empty {base : String} (h : base ≠ "") (n : Nat) : candidate base n ≠ "" := by
  cases n with
  | zero => exact h
  | succ n => simp [candidate]

theorem base_ne_empty (path : String) : base path ≠ "" := by
  unfold base
  split
  · decide
  · assumption

/-- An anchor depends on those in use, not on their order. They are kept with the latest one first,
while those given out before a path stand in the order of the paths. -/
theorem assigned_fresh {used earlier : List String} (same : ∀ anchor, anchor ∈ used ↔ anchor ∈ earlier)
    (few : earlier.length < counterLimit) (path : String) :
    Assigned earlier path (fresh used path) := by
  obtain ⟨k, hk, hfree, htaken⟩ := fresh_spec used path
  rw [same] at hfree
  have taken : ∀ i < k, candidate (base path) i ∈ earlier := fun i hi => (same _).1 (htaken i hi)
  have bound : k ≤ earlier.length := by
    obtain ⟨n, hn, hnfree⟩ := exists_free earlier (base path)
    by_contra hlonger
    exact hnfree (taken n (by omega))
  rw [hk]
  constructor
  case search =>
    have hsearch : Search earlier (base path) 0 k (candidate (base path) (0 + k)) := by
      apply Search.of_first
      · rwa [Nat.zero_add]
      · simpa using taken
    rw [Nat.zero_add] at hsearch
    exact ⟨k, bound, Nat.lt_of_le_of_lt bound few, hsearch⟩
  case first => exact ⟨k, rfl, hfree, taken⟩
  case base_eq => rfl
  case ne_empty => exact candidate_ne_empty (base_ne_empty path) k
  case plain => exact plain_candidate (plain_base path) k

theorem getElem?_assignFrom (used paths : List String) (k : Nat) :
    (assignFrom used paths)[k]? = paths[k]?.map
      (fresh (((assignFrom used paths).take k).reverse ++ used)) := by
  induction paths generalizing used k with
  | nil => rfl
  | cons path rest ih =>
    cases k with
    | zero => rfl
    | succ k =>
      rw [assignFrom, List.getElem?_cons_succ, List.getElem?_cons_succ, ih, List.take_succ_cons,
        List.reverse_cons, List.append_assoc]
      rfl

/-- **Every path gets the first form of its slug that is free**, after a search that ends, and no
two paths get the same. -/
theorem assigned_assign {paths : List String} (few : paths.length < counterLimit) :
    (assign paths).length = paths.length ∧ (assign paths).Nodup ∧
      ∀ (k : Nat) path, paths[k]? = some path → ∃ anchor,
        (assign paths)[k]? = some anchor ∧ Assigned ((assign paths).take k) path anchor := by
  refine ⟨length_assign paths, nodup_assign paths, ?_⟩
  intro k path hpath
  have hanchor := getElem?_assignFrom [] paths k
  rw [hpath, Option.map_some] at hanchor
  refine ⟨_, hanchor, assigned_fresh ?_ ?_ path⟩
  · intro anchor
    rw [List.append_nil, List.mem_reverse]
    rfl
  · rw [List.length_take, length_assign]
    omega

/-- The slug of the third path is the numbered form of the second one's. -/
theorem assigned_numbered :
    ["a", "A", "a-1"].length < counterLimit ∧
      ∃ anchor, (assign ["a", "A", "a-1"])[2]? = some anchor ∧
        Assigned ((assign ["a", "A", "a-1"]).take 2) "a-1" anchor := by
  have few : ["a", "A", "a-1"].length < counterLimit := by decide
  exact ⟨few, (assigned_assign few).2.2 2 "a-1" rfl⟩

example : assign ["a", "A", "a-1"] = ["a", "a-1", "a-1-1"] := by decide +kernel

end DocTree.Anchor
