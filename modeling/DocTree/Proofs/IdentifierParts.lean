import DocTree.Proofs.ByteOffsets
import DocTree.Proofs.Identifiers

/-!
# The parts of an identifier

An identifier with a separator falls apart into its parent, the separator and its own name. The
first `@` decides where, and without one the later of the last point and the last hash; so no `@` is
left in the parent, and without one no separator in the name. The place is found in bytes, as are
those of the point that ends a section and of the point that becomes a hash, and none of them cuts a
character in two: a separator has one byte.

Each way of taking an identifier apart has a structure that says everything about it: `Parted` at
the separator before its own name, `Stripped` at the first point, `Twin` at the last one.
`Qualified` is the other direction, what a section in front changes. They hold of every identifier,
`Qualified` for every plain section, and no identifier is assumed to be well formed.

The offsets are specified by searches over bytes (`firstOffset`, `lastOffset`) that know nothing of
cuts, and the parts by the slices at these offsets. What the model computes from cuts is compared
with that, so a wrong offset could not hide behind a right part.
-/

set_option autoImplicit false

namespace DocTree.Ident

open DocTree.Text

/-! ## Separators -/

theorem isSeparator_iff {c : Char} : isSeparator c = true ↔ c = '.' ∨ c = '#' ∨ c = '@' := by
  simp [isSeparator, or_assoc]

theorem narrow_of_isSeparator {c : Char} (h : isSeparator c = true) : c.utf8Size = 1 := by
  rcases isSeparator_iff.1 h with rfl | rfl | rfl <;> decide

theorem narrow_point : '.'.utf8Size = 1 := narrow_of_isSeparator (by decide)

theorem not_plain_iff {id : String} :
    ¬ Plain id ↔ '.' ∈ id.toList ∨ '#' ∈ id.toList ∨ '@' ∈ id.toList := by
  constructor
  · intro h
    simp only [Plain, not_forall, Bool.not_eq_false] at h
    obtain ⟨c, hc, mark⟩ := h
    rcases isSeparator_iff.1 mark with rfl | rfl | rfl
    · exact Or.inl hc
    · exact Or.inr (Or.inl hc)
    · exact Or.inr (Or.inr hc)
  · rintro (hc | hc | hc) plain
    · exact plain.not_mem_of_separator (by decide) hc
    · exact plain.not_mem_of_separator (by decide) hc
    · exact plain.not_mem_of_separator (by decide) hc

/-! ## Parent and name

Of the last point and the last hash the later one counts, which is a maximum of optional offsets.
That the two searches give the offset of one cut at either is `map_offset_lastCut_or`. -/

/-- **An event is cut off at the first `@`**, anything else at the last point or hash. Here the
boundary is one of offsets in bytes that were searched for on their own. -/
theorem parentBoundary_eq (id : String) :
    parentBoundary id
      = (firstOffset '@' id).or (max (lastOffset '.' id) (lastOffset '#' id)) := by
  rw [firstOffset_eq (by decide), lastOffset_eq narrow_point, lastOffset_eq (by decide),
    ← map_offset_lastCut_or, parentBoundary, parentCut]
  cases firstCut (· == '@') id.toList with
  | some cut => rfl
  | none => rfl

theorem parentCut_eq_none_iff {id : String} : parentCut id = none ↔ Plain id := by
  rw [← parentKey_eq_none_iff, parentKey, Option.map_eq_none_iff]

theorem at_not_mem_parentKey {id parent : String} (h : parentKey id = some parent) :
    '@' ∉ parent.toList := by
  obtain ⟨cut, hcut, rfl⟩ := Option.map_eq_some_iff.1 h
  intro hm
  rw [String.toList_ofList] at hm
  rcases parentCut_cases hcut with hat | ⟨none, -⟩
  · exact absurd ((firstCut_eq_some hat).2.2 '@' hm) (by decide)
  · exact none ((parentCut_eq_some hcut).1 ▸ List.mem_append_left _ hm)

theorem plain_localName {id : String} (h : '@' ∉ id.toList) : Plain (localName id) := by
  cases hcut : parentCut id with
  | none =>
    have plain := parentCut_eq_none_iff.1 hcut
    rwa [localName_of_plain plain]
  | some cut =>
    intro c hc
    rw [localName, hcut] at hc
    dsimp only at hc
    rw [String.toList_ofList] at hc
    rcases parentCut_cases hcut with hat | ⟨-, hlast⟩
    · rw [firstCut_eq_none_iff.2 (free_of_not_mem h)] at hat
      cases hat
    · obtain ⟨hw, -, free⟩ := lastCut_eq_some hlast
      have inside : c ∈ id.toList := hw ▸ List.mem_append_right _ (List.mem_cons_of_mem _ hc)
      rw [isSeparator, free c hc, free_of_not_mem h c inside]
      rfl

/-! ## The way up

Going to the parent can be repeated only so often. The number of segments is the bound, since a
parent has the first segments of its child and not all of them (`segments_parentKey`). -/

/-- What is so many steps to the parent above an identifier, or nothing if the steps end before. -/
def ancestor (id : String) : Nat → Option String
  | 0 => some id
  | n + 1 => (parentKey id).bind fun parent => ancestor parent n

/-- **The way up ends**, after no more steps than there are segments: each step leaves at least one
of them out. -/
theorem ancestor_eq_none {id : String} {n : Nat} (h : (segments id).length ≤ n) :
    ancestor id n = none := by
  induction n generalizing id with
  | zero => exact absurd (List.length_eq_zero_iff.1 (Nat.le_zero.1 h)) (segments_ne_nil id)
  | succ n ih =>
    rw [ancestor]
    cases hparent : parentKey id with
    | none => rfl
    | some parent =>
      obtain ⟨others, hothers, hs⟩ := segments_parentKey hparent
      have positive := List.length_pos_iff.2 hothers
      rw [hs, List.length_append] at h
      exact ih (by omega)

/-! ## All laws

One structure for each way to take an identifier apart, and a lemma for each; the theorem at the end
only puts them side by side. -/

/-- The parts of an identifier around the separator in front of its own name. An identifier without
one has no parent and no place to be cut. -/
structure Parted (id : String) : Prop where
  /-- Where the separator is, in bytes; ... -/
  boundary : parentBoundary id
    = (firstOffset '@' id).or (max (lastOffset '.' id) (lastOffset '#' id))
  /-- ... there is one if there is one anywhere. -/
  isSome_iff : (parentBoundary id).isSome ↔
    '.' ∈ id.toList ∨ '#' ∈ id.toList ∨ '@' ∈ id.toList
  parts : ∀ offset, parentBoundary id = some offset → ∃ parent mark,
    parentKey id = some parent ∧ isSeparator mark = true ∧
      FallsApart id offset parent mark (localName id)
  whole : parentBoundary id = none → parentKey id = none ∧ localName id = id
  parent : ∀ parent, parentKey id = some parent → '@' ∉ parent.toList
  name : '@' ∉ id.toList → Plain (localName id)
  ends : ∀ n, (segments id).length ≤ n → ancestor id n = none

/-- What is left of an identifier without its first segment. Only a point ends that segment here, so
it may have hashes in it. -/
structure Stripped (id : String) : Prop where
  parts : ∀ offset, firstOffset '.' id = some offset →
    ∃ first, '.' ∉ first.toList ∧ FallsApart id offset first '.' (stripSection id)
  whole : firstOffset '.' id = none → stripSection id = id

/-- What a section makes of an identifier by standing in front of it. The clauses are the laws by
which sections are put on and taken off. -/
structure Qualified (sectionName : Option String) (id : String) : Prop where
  parent : parentKey (qualify sectionName id)
    = some (match parentKey id with
      | some parent => qualify sectionName parent
      | none => sectionName.getD "")
  segments_eq : segments (qualify sectionName id) = sectionName.getD "" :: segments id
  stripped : stripSection (qualify sectionName id) = id

/-- The member of instances that goes with an identifier: the last point becomes a hash, and nothing
else changes. -/
structure Twin (id member : String) : Prop where
  parts : ∃ offset typeName name, lastOffset '.' id = some offset ∧
    FallsApart id offset typeName '.' name ∧ member = typeName ++ "#" ++ name
  ne : member ≠ id
  segments_eq : segments member = segments id

theorem parted (id : String) : Parted id := by
  constructor
  case boundary => exact parentBoundary_eq id
  case isSome_iff =>
    rw [← not_plain_iff, ← parentCut_eq_none_iff, parentBoundary, Option.isSome_map,
      Option.isSome_iff_ne_none]
  case parts =>
    intro offset hoffset
    obtain ⟨cut, hcut, rfl⟩ := Option.map_eq_some_iff.1 hoffset
    obtain ⟨hw, mark⟩ := parentCut_eq_some hcut
    have name : localName id = String.ofList cut.after := by rw [localName, hcut]
    refine ⟨String.ofList cut.before, cut.mark, ?_, mark, ?_⟩
    · rw [parentKey, hcut]
      rfl
    · rw [name]
      exact fallsApart cut hw (narrow_of_isSeparator mark)
  case whole =>
    intro hnone
    have plain := parentCut_eq_none_iff.1 (Option.map_eq_none_iff.1 hnone)
    exact ⟨parentKey_eq_none_iff.2 plain, localName_of_plain plain⟩
  case parent => exact fun parent h => at_not_mem_parentKey h
  case name => exact plain_localName
  case ends => exact fun n h => ancestor_eq_none h

theorem stripped (id : String) : Stripped id := by
  constructor
  case parts =>
    intro offset hoffset
    rw [firstOffset_eq narrow_point] at hoffset
    obtain ⟨cut, hcut, rfl⟩ := Option.map_eq_some_iff.1 hoffset
    obtain ⟨hw, hm, free⟩ := firstCut_eq_some hcut
    have mark : cut.mark = '.' := beq_iff_eq.1 hm
    have rest : stripSection id = String.ofList cut.after := by rw [stripSection, hcut]
    refine ⟨String.ofList cut.before, ?_, ?_⟩
    · rw [String.toList_ofList]
      exact fun point => absurd (free '.' point) (by decide)
    · rw [rest, ← mark]
      exact fallsApart cut hw (mark ▸ narrow_point)
  case whole =>
    intro hnone
    rw [firstOffset_eq narrow_point, Option.map_eq_none_iff] at hnone
    rw [stripSection, hnone]

theorem qualified {sectionName : Option String} (plain : Plain (sectionName.getD ""))
    (id : String) : Qualified sectionName id := by
  constructor
  case parent =>
    rw [qualify_getD]
    cases hparent : parentKey id with
    | some parent => rw [parentKey_qualify_of_some plain hparent, ← qualify_getD]
    | none => rw [parentKey_qualify_of_plain plain (parentKey_eq_none_iff.1 hparent)]
  case segments_eq => rw [qualify_getD, segments_qualify plain]
  case stripped => rw [qualify_getD, stripSection_qualify plain.point_not_mem]

theorem exists_twin {id : String} (point : '.' ∈ id.toList) :
    ∃ member, instanceMember id = some member ∧ Twin id member := by
  obtain ⟨before, after, hcut, hid⟩ := exists_lastCut point
  have member : instanceMember id = some (String.ofList (before ++ '#' :: after)) := by
    rw [instanceMember, hcut]
    rfl
  refine ⟨_, member, ?_⟩
  constructor
  case parts =>
    refine ⟨byteLength before, String.ofList before, String.ofList after, ?_, ?_, ?_⟩
    · rw [lastOffset_eq narrow_point, hcut]
      rfl
    · exact fallsApart ⟨before, '.', after⟩ hid.symm narrow_point
    · rw [← String.toList_inj]
      simp
  case ne => exact ne_of_instanceMember member
  case segments_eq => exact segments_instanceMember member

/-- **Identifiers put together to what they fall apart into**: at the parent, at the first segment,
behind a section without separators, and as a member of instances. -/
theorem parted_and_qualified (id : String) :
    Parted id ∧ Stripped id ∧
      (∀ sectionName : Option String, Plain (sectionName.getD "") → Qualified sectionName id) ∧
      ('.' ∈ id.toList → ∃ member, instanceMember id = some member ∧ Twin id member) :=
  ⟨parted id, stripped id, fun _ plain => qualified plain id, exists_twin⟩

/-- The point is behind seven bytes and five characters. -/
theorem parted_and_qualified_umlauts :
    Plain ((some "Übersicht").getD "") ∧ '.' ∈ "Größe.neu".toList ∧
      parentBoundary "Größe.neu" = some 7 ∧
      Qualified (some "Übersicht") "Größe.neu" ∧
      ∃ member, instanceMember "Größe.neu" = some member ∧ Twin "Größe.neu" member := by
  have plain : Plain ((some "Übersicht").getD "") := by decide
  have point : '.' ∈ "Größe.neu".toList := by decide
  have laws := parted_and_qualified "Größe.neu"
  exact ⟨plain, point, by decide, laws.2.2.1 (some "Übersicht") plain, laws.2.2.2 point⟩

end DocTree.Ident
