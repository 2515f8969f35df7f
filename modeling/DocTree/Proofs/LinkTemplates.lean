import DocTree.Link
import DocTree.Proofs.Numerals
import DocTree.Proofs.Replacements

/-!
# Templates for links

A template is meant to be read once, with the file and the line in the places that it has for them
(`fill`). What is done instead is two replacements, one after the other, and the second one reads
the file as well, and what the file makes together with the template around it. The two agree where
nothing of that is a place for the line. Otherwise they never do: a replacement takes away as many
dollars as it finds places, and the address has one dollar less for each place that was made.

The condition is put as a number of occurrences (`href_withTemplate_eq_filled_iff`). The first
replacement takes no place for the line away (`occurrences_le_replaceAll`), so to say that it makes
none is to say that there are as many after it as before. A place that is made may lie in the file,
or begin in the template and end in the file, or the other way round; none of these has to be told
apart from the others.

Both directions are by induction along one reading of the template (`readingTemplate`), whose steps
are a place for the file, a place for the line, and a character that is copied. At each step the two
replacements do what the reading does, as long as no place is made across the boundary, and this is
what the numbers of occurrences control.

Counting dollars settles the other direction, for which comparing the texts would be of no use: they
can differ anywhere. A line number has no dollar in it, and every place has one.
-/

set_option autoImplicit false

namespace DocTree

open DocTree.Text

namespace LinkFormat

/-! ## One reading

What the template means. The reading passes over a place that it has filled by skipping characters,
which makes it a recursion on the template. -/

/-- Fills in a template, after passing over `skip` characters of a place already filled. -/
def fillAfter (file line : List Char) : Nat → List Char → List Char
  | _, [] => []
  | skip + 1, _ :: rest => fillAfter file line skip rest
  | 0, c :: rest =>
    if filePlace.isPrefixOf (c :: rest) then file ++ fillAfter file line (filePlace.length - 1) rest
    else if linePlace.isPrefixOf (c :: rest) then
      line ++ fillAfter file line (linePlace.length - 1) rest
    else c :: fillAfter file line 0 rest

/-- The template with the file and the line in its places, found from left to right. What is filled
in is not read again. -/
def fill (file line template : List Char) : List Char := fillAfter file line 0 template

section Fill

variable (file line : List Char)

theorem fillAfter_eq (skip : Nat) (template : List Char) :
    fillAfter file line skip template = fill file line (template.drop skip) := by
  induction template generalizing skip with
  | nil => simp [fill, fillAfter]
  | cons c rest ih =>
    cases skip with
    | zero => rfl
    | succ skip => rw [fillAfter, ih, List.drop_succ_cons]

theorem fill_filePlace (rest : List Char) :
    fill file line (filePlace ++ rest) = file ++ fill file line rest := by
  have hprefix : filePlace.isPrefixOf ('$' :: ("\x7bfile\x7d".toList ++ rest)) = true :=
    List.isPrefixOf_iff_prefix.2 (List.prefix_append filePlace rest)
  have whole : filePlace ++ rest = '$' :: ("\x7bfile\x7d".toList ++ rest) := rfl
  rw [whole, fill, fillAfter, if_pos hprefix, fillAfter_eq]
  rfl

theorem fill_linePlace (rest : List Char) :
    fill file line (linePlace ++ rest) = line ++ fill file line rest := by
  have hprefix : linePlace.isPrefixOf ('$' :: ("\x7bline\x7d".toList ++ rest)) = true :=
    List.isPrefixOf_iff_prefix.2 (List.prefix_append linePlace rest)
  have other : filePlace.isPrefixOf ('$' :: ("\x7bline\x7d".toList ++ rest)) = false := rfl
  have whole : linePlace ++ rest = '$' :: ("\x7bline\x7d".toList ++ rest) := rfl
  rw [whole, fill, fillAfter, other, if_neg Bool.false_ne_true, if_pos hprefix, fillAfter_eq]
  rfl

theorem fill_cons {c : Char} {rest : List Char} (no_file : ¬ filePlace <+: c :: rest)
    (no_line : ¬ linePlace <+: c :: rest) :
    fill file line (c :: rest) = c :: fill file line rest := by
  rw [fill, fillAfter, if_neg fun h => no_file (List.isPrefixOf_iff_prefix.1 h),
    if_neg fun h => no_line (List.isPrefixOf_iff_prefix.1 h)]
  rfl

end Fill

/-! ## The places of a template

The two places begin with a dollar and have no other, so they neither overlap nor contain each
other. Replacing the file puts something in some of these places and leaves the others where they
are. -/

theorem filePlace_ne_nil : filePlace ≠ [] := List.cons_ne_nil _ _

theorem linePlace_ne_nil : linePlace ≠ [] := List.cons_ne_nil _ _

/-- A template is empty, or begins with a place, or with a character that is copied. All inductions
on templates below go by these four cases. -/
@[elab_as_elim]
theorem readingTemplate {motive : List Char → Prop} (nil : motive [])
    (file : ∀ rest, motive rest → motive (filePlace ++ rest))
    (line : ∀ rest, motive rest → motive (linePlace ++ rest))
    (copied : ∀ c rest, ¬ filePlace <+: c :: rest → ¬ linePlace <+: c :: rest → motive rest →
      motive (c :: rest)) (template : List Char) : motive template := by
  have nonempty : ∀ place ∈ [filePlace, linePlace], place ≠ [] :=
    List.forall_mem_cons.2 ⟨filePlace_ne_nil, List.forall_mem_singleton.2 linePlace_ne_nil⟩
  induction template using reading nonempty with
  | nil => exact nil
  | found place hm rest ih =>
    rcases List.mem_cons.1 hm with rfl | hm
    · exact file rest ih
    · cases List.mem_singleton.1 hm
      exact line rest ih
  | copied c rest hfree ih =>
    have no_line := hfree linePlace (List.mem_cons_of_mem _ List.mem_cons_self)
    exact copied c rest (hfree filePlace List.mem_cons_self) no_line ih

theorem filePlace_eq : filePlace = '$' :: "\x7bfile\x7d".toList := rfl

theorem linePlace_eq : linePlace = '$' :: "\x7bline\x7d".toList := rfl

theorem dollar_not_mem_tail_filePlace : '$' ∉ "\x7bfile\x7d".toList := by decide

theorem dollar_not_mem_tail_linePlace : '$' ∉ "\x7bline\x7d".toList := by decide

theorem occurrences_linePlace_filePlace (rest : List Char) :
    occurrences linePlace (filePlace ++ rest) = occurrences linePlace rest := by
  have other : ¬ linePlace <+: '$' :: ("\x7bfile\x7d".toList ++ rest) :=
    not_prefix_of_isPrefixOf rfl
  have hcons := occurrences_cons_copied other
  rw [filePlace_eq, List.cons_append, hcons, linePlace_eq]
  exact occurrences_append_of_not_mem dollar_not_mem_tail_filePlace rest

theorem occurrences_linePlace_self (rest : List Char) :
    occurrences linePlace (linePlace ++ rest) = occurrences linePlace rest + 1 := by
  rw [linePlace_eq]
  exact occurrences_append_self dollar_not_mem_tail_linePlace rest

theorem replaceAll_filePlace_self (file rest : List Char) :
    replaceAll filePlace file (filePlace ++ rest) = file ++ replaceAll filePlace file rest :=
  replaceAll_append_self file filePlace_ne_nil rest

theorem replaceAll_linePlace_self (line rest : List Char) :
    replaceAll linePlace line (linePlace ++ rest) = line ++ replaceAll linePlace line rest :=
  replaceAll_append_self line linePlace_ne_nil rest

theorem replaceAll_filePlace_linePlace (file rest : List Char) :
    replaceAll filePlace file (linePlace ++ rest)
      = linePlace ++ replaceAll filePlace file rest := by
  have other : ¬ filePlace <+: '$' :: ("\x7bline\x7d".toList ++ rest) :=
    not_prefix_of_isPrefixOf rfl
  have hcons := replaceAll_cons_copied file other
  have hrest : replaceAll filePlace file ("\x7bline\x7d".toList ++ rest)
      = "\x7bline\x7d".toList ++ replaceAll filePlace file rest :=
    replaceAll_append_of_not_mem file dollar_not_mem_tail_linePlace rest
  rw [linePlace_eq, List.cons_append, hcons, hrest]
  rfl

theorem dollar_not_mem_decimal (n : Nat) : '$' ∉ decimal n := fun h =>
  ne_of_isDigit (isDigit_of_mem_decimal h) (by decide : '$'.isDigit = false) rfl

/-- **Putting the file in takes no place for the line away.** It can only make new ones, in the file
or where the file meets what stands around it. -/
theorem occurrences_le_replaceAll (file template : List Char) :
    occurrences linePlace template ≤ occurrences linePlace (replaceAll filePlace file template) := by
  induction template using readingTemplate with
  | nil => exact Nat.le_refl _
  | file rest ih =>
    rw [occurrences_linePlace_filePlace, replaceAll_filePlace_self]
    exact Nat.le_trans ih (occurrences_le_append _ _ _)
  | line rest ih =>
    rw [replaceAll_filePlace_linePlace, occurrences_linePlace_self, occurrences_linePlace_self]
    exact Nat.succ_le_succ ih
  | copied c rest no_file no_line ih =>
    -- what follows has changed, so a place may begin here now
    rw [occurrences_cons_copied no_line, replaceAll_cons_copied file no_file, occurrences_cons]
    exact Nat.le_trans ih (Nat.le_add_right _ _)

/-! ## Two replacements and one reading

The induction for agreement needs the number of occurrences to be the same for each rest of the
template. That it is the same for the whole is enough: at no step does it become less, so equality
at the end forces it everywhere. -/

theorem replaceAll_linePlace_of_occurrences_eq {file line template : List Char}
    (h : occurrences linePlace (replaceAll filePlace file template)
      = occurrences linePlace template) :
    replaceAll linePlace line (replaceAll filePlace file template) = fill file line template := by
  induction template using readingTemplate with
  | nil => rfl
  | file rest ih =>
    -- places can only have been added, in the rest and then in front of it, so none was
    have kept := occurrences_le_replaceAll file rest
    have later := occurrences_le_append linePlace file (replaceAll filePlace file rest)
    rw [replaceAll_filePlace_self, occurrences_linePlace_filePlace] at h
    rw [replaceAll_filePlace_self, fill_filePlace,
      replaceAll_append_of_occurrences_eq line (by omega), ih (by omega)]
  | line rest ih =>
    rw [replaceAll_filePlace_linePlace, occurrences_linePlace_self, occurrences_linePlace_self] at h
    rw [replaceAll_filePlace_linePlace, replaceAll_linePlace_self, fill_linePlace,
      ih (Nat.succ.inj h)]
  | copied c rest no_file no_line ih =>
    have kept := occurrences_le_replaceAll file rest
    rw [occurrences_cons_copied no_line, replaceAll_cons_copied file no_file] at h
    have later : occurrences linePlace (replaceAll filePlace file rest)
        ≤ occurrences linePlace (c :: replaceAll filePlace file rest) :=
      occurrences_le_append linePlace [c] _
    have same : occurrences linePlace (c :: replaceAll filePlace file rest)
        = occurrences linePlace (replaceAll filePlace file rest) := by omega
    have alone : replaceAll linePlace line (c :: replaceAll filePlace file rest)
        = c :: replaceAll linePlace line (replaceAll filePlace file rest) :=
      replaceAll_append_of_occurrences_eq (a := [c]) line same
    rw [replaceAll_cons_copied file no_file, alone, fill_cons file line no_file no_line,
      ih (by omega)]

/-- The reading leaves out one dollar for each place for the line that the template has. The second
replacement leaves out one for each place that it finds, and by comparing the two the number of
places is compared. -/
theorem count_fill (file : List Char) {line : List Char} (undollared : '$' ∉ line)
    (template : List Char) :
    (fill file line template).count '$' + occurrences linePlace template
      = (replaceAll filePlace file template).count '$' := by
  induction template using readingTemplate with
  | nil => rfl
  | file rest ih =>
    rw [fill_filePlace, occurrences_linePlace_filePlace, replaceAll_filePlace_self,
      List.count_append, List.count_append, Nat.add_assoc, ih]
  | line rest ih =>
    have dollar : linePlace.count '$' = 1 := rfl
    rw [fill_linePlace, occurrences_linePlace_self, replaceAll_filePlace_linePlace,
      List.count_append, List.count_append, List.count_eq_zero.2 undollared, dollar]
    omega
  | copied c rest no_file no_line ih =>
    rw [fill_cons file line no_file no_line, occurrences_cons_copied no_line,
      replaceAll_cons_copied file no_file, List.count_cons, List.count_cons]
    omega

def filled (template : String) : LinkFormat := fun file line =>
  String.ofList (fill file.toList (decimal line) template.toList)

theorem ofTemplate_eq_filled_iff (template file : String) (line : Nat) :
    ofTemplate template file line = filled template file line ↔
      occurrences linePlace (replaceAll filePlace file.toList template.toList)
        = occurrences linePlace template.toList := by
  have undollared := dollar_not_mem_decimal line
  rw [ofTemplate, filled, String.ofList_inj]
  constructor
  · intro h
    have hcount := count_fill file.toList undollared template.toList
    have hreplaced := count_replaceAll dollar_not_mem_tail_linePlace undollared
      (replaceAll filePlace file.toList template.toList)
    rw [← linePlace_eq, h] at hreplaced
    omega
  · exact replaceAll_linePlace_of_occurrences_eq

/-- A file without dollars makes no place in a template that has dollars for its places only. These
are conditions that can be checked without replacing anything. -/
theorem ofTemplate_eq_filled {template file : String} (undollared : '$' ∉ file.toList)
    (placed : template.toList.count '$'
      = occurrences filePlace template.toList + occurrences linePlace template.toList) (line : Nat) :
    ofTemplate template file line = filled template file line := by
  refine (ofTemplate_eq_filled_iff template file line).2 (Nat.le_antisymm ?_ ?_)
  · have hcount := count_replaceAll dollar_not_mem_tail_filePlace undollared template.toList
    have hplaces := occurrences_le_count '$' "\x7bline\x7d".toList
      (replaceAll filePlace file.toList template.toList)
    rw [← filePlace_eq] at hcount
    rw [← linePlace_eq] at hplaces
    omega
  · exact occurrences_le_replaceAll file.toList template.toList

end LinkFormat

namespace Options

/-- **The address of a record is the template read once exactly when the file makes no place for the
line**, neither in itself nor with what stands around it. -/
theorem href_withTemplate_eq_filled_iff (template file : String) (line : Nat) :
    (withTemplate template).href file line = some (LinkFormat.filled template file line) ↔
      occurrences LinkFormat.linePlace
          (replaceAll LinkFormat.filePlace file.toList template.toList)
        = occurrences LinkFormat.linePlace template.toList := by
  rw [← LinkFormat.ofTemplate_eq_filled_iff template file line]
  exact Option.some_inj

/-- **A place for the line in the name of the file is filled too**, and the name is lost: what the
address says is a file of the line's number. -/
theorem href_withTemplate_fills_file :
    (withTemplate "$\x7bfile\x7d").href "$\x7bline\x7d.json" 7 = some "7.json" ∧
      LinkFormat.filled "$\x7bfile\x7d" "$\x7bline\x7d.json" 7 = "$\x7bline\x7d.json" ∧
      (withTemplate "$\x7bfile\x7d").href "$\x7bline\x7d.json" 7
        ≠ some (LinkFormat.filled "$\x7bfile\x7d" "$\x7bline\x7d.json" 7) := by
  decide +kernel

end Options

end DocTree
