import DocTree.Proofs.Anchors
import DocTree.Proofs.LowerCase

/-!
# Slugs are stable

A slug is made in three steps: lower-casing, leaving characters out, and hyphens for blanks. Leaving
characters out changes what is around the others, and of the two characters for `İ` it takes the dot
away, so the second pass reads a text that the first one never had. The result is the same
nevertheless: what lower-casing gives is left alone whatever is around it (`IsLow`), so only the
characters that are there count, not the text they come from.

The proof that suggests itself, that each of the three steps is idempotent, does not go through. The
steps would have to commute, and lower-casing does not commute with leaving characters out: a sigma
may come to stand at the end of a word. What is used instead is that the texts which are their own
slugs are known exactly (`slug_eq_self_iff`), and that a slug is one of them.
-/

set_option autoImplicit false

namespace DocTree

open DocTree.Text

/-! ## Characters of a slug

What the two other steps do to a single character. -/

def hyphened (c : Char) : Char := if c = ' ' then '-' else c

theorem isLow_hyphen : IsLow '-' := by decide +kernel

theorem isLow_hyphened {c : Char} (h : IsLow c) : IsLow (hyphened c) := by
  rw [hyphened]
  split
  · exact isLow_hyphen
  · exact h

theorem not_isAlphanumeric_blank : isAlphanumeric ' ' = false := by decide +kernel

/-- What a plain text has of characters stays, and none is a blank. So nothing is left out of it and
nothing is replaced. -/
theorem Anchor.Plain.stays {text : String} (h : Anchor.Plain text) {c : Char} (hc : c ∈ text.toList) :
    isSlugChar c = true ∧ hyphened c = c := by
  have hplain := h c hc
  constructor
  · rcases hplain with letter | hyphen
    · rw [isSlugChar, letter, Bool.true_or, Bool.true_or]
    · rw [hyphen]
      decide +kernel
  · refine if_neg ?_
    rintro rfl
    exact h.not_mem ⟨not_isAlphanumeric_blank, by decide⟩ hc

theorem toList_slug (text : String) :
    (slug text).toList = ((lower text).toList.filter isSlugChar).map hyphened := by
  rw [slug, String.toList_ofList]
  rfl

/-! ## Lower case -/

theorem isLow_of_mem_slug {text : String} {c : Char} (h : c ∈ (slug text).toList) : IsLow c := by
  rw [toList_slug] at h
  obtain ⟨d, hd, rfl⟩ := List.mem_map.1 h
  exact isLow_hyphened (isLow_of_mem_lower (List.mem_filter.1 hd).1)

theorem lower_slug (text : String) : lower (slug text) = slug text :=
  lower_eq_self fun _ hc => isLow_of_mem_slug hc

/-! ## A second pass

A text is its own slug if it is plain and in lower case, and a slug is both. -/

/-- The texts that are their own slugs: letters, digits and hyphens only, in lower case. From right
to left it is what makes slugs stable, as every slug is such a text. -/
theorem slug_eq_self_iff {text : String} :
    slug text = text ↔ Anchor.Plain text ∧ lower text = text := by
  constructor
  · intro h
    rw [← h]
    exact ⟨Anchor.plain_slug text, lower_slug text⟩
  · rintro ⟨plain, low⟩
    have kept : text.toList.filter isSlugChar = text.toList :=
      List.filter_eq_self.2 fun c hc => (plain.stays hc).1
    have same : text.toList.map hyphened = text.toList :=
      (List.map_congr_left fun c hc => (plain.stays hc).2).trans (List.map_id _)
    rw [← String.toList_inj, toList_slug, low, kept, same]

/-- **The slug of any text is plain, in lower case, and its own slug.** The slug of the text in lower
case is the same one. -/
theorem slug_stable (text : String) :
    Anchor.Plain (slug text) ∧ lower (slug text) = slug text ∧ slug (slug text) = slug text ∧
      slug (lower text) = slug text := by
  have plain := Anchor.plain_slug text
  have low := lower_slug text
  refine ⟨plain, low, slug_eq_self_iff.2 ⟨plain, low⟩, ?_⟩
  rw [← String.toList_inj, toList_slug, toList_slug, lower_lower]

/-- A sigma that ends its word, and a letter that loses its dot. -/
example : slug "ΟΔΟΣ İx" = "οδος-ix" := by decide +kernel

end DocTree
