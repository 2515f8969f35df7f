import DocTree.Ident
import DocTree.Proofs.Cuts

/-!
# Laws of identifiers

What the records of a documentation rest on: a section in front of an identifier is taken off again,
it becomes the first segment and leaves the others as they are, and the parent of a qualified
identifier is the qualified parent. All of them need a section without separators; taking it off
only needs one without a point.

Those two hypotheses run through the whole development. `Plain` is the stronger one and is what the
docs of the program assume of sections. The weaker one is what most of the results on lists of
records need, and where it fails, `stripSection_qualify_of_point` says what is left instead: the
part of the section behind its first point, now in front of the identifier.

None of the laws is about an identifier that is well formed in some sense. Separators may stand side
by side, at the beginning or at the end, and the segments between them may be empty.
-/

set_option autoImplicit false

namespace DocTree.Ident

open DocTree.Text

/-! ## Texts of one segment

A text without separators has one segment, no parent and is its own local name. Marks of several
kinds are looked for below, and `Plain.free` answers all of these searches at once. -/

def Plain (text : String) : Prop := ∀ c ∈ text.toList, isSeparator c = false

instance (text : String) : Decidable (Plain text) :=
  List.decidableBAll (fun c => isSeparator c = false) text.toList

theorem plain_empty : Plain "" := fun _ h => nomatch h

theorem Plain.not_mem_of_separator {text : String} (h : Plain text) {c : Char}
    (hc : isSeparator c = true) : c ∉ text.toList := by
  intro hm
  rw [h c hm] at hc
  cases hc

theorem Plain.point_not_mem {text : String} (h : Plain text) : '.' ∉ text.toList :=
  h.not_mem_of_separator (by decide)

/-- The marks that a cut looks for are separators, whichever cut it is, so a plain text holds none
of them and the laws of cuts apply. -/
theorem Plain.free {text : String} (h : Plain text) {p : Char → Bool}
    (hp : ∀ c, p c = true → isSeparator c = true) : ∀ c ∈ text.toList, p c = false := by
  intro c hc
  cases hpc : p c with
  | false => rfl
  | true => exact absurd hc (h.not_mem_of_separator (hp c hpc))

theorem isSeparator_of_isAt (c : Char) (h : (c == '@') = true) : isSeparator c = true := by
  simp only [isSeparator, h, Bool.or_true]

theorem isSeparator_of_isPointOrHash (c : Char) (h : (c == '.' || c == '#') = true) :
    isSeparator c = true := by
  simp only [isSeparator, h, Bool.true_or]

/-! ## Qualified identifiers

What the point between a section and an identifier is good for. Each law is an equation of a cut at
the first point, with the section as the part in front. -/

theorem toList_qualify (s id : String) :
    (qualify (some s) id).toList = s.toList ++ '.' :: id.toList := by
  simp [qualify]

theorem qualify_getD (sectionName : Option String) (id : String) :
    qualify sectionName id = qualify (some (sectionName.getD "")) id := rfl

theorem append_qualify (s a id : String) :
    s ++ qualify (some a) id = qualify (some (s ++ a)) id := by
  simp [qualify, String.append_assoc]

/-- **Taking the section off undoes putting it in front.** The point that is put between the two is
the first one, because the section has none of its own. -/
theorem stripSection_qualify {s : String} (hs : '.' ∉ s.toList) (id : String) :
    stripSection (qualify (some s) id) = id := by
  rw [stripSection, toList_qualify, firstCut_of_mark (free_of_not_mem hs) (by rfl)]
  exact String.ofList_toList

theorem stripSection_of_no_point {id : String} (h : '.' ∉ id.toList) : stripSection id = id := by
  rw [stripSection, firstCut_eq_none_iff.2 (free_of_not_mem h)]

theorem toList_eq_of_point {id : String} (h : '.' ∈ id.toList) :
    ∃ before, id.toList = before ++ '.' :: (stripSection id).toList := by
  obtain ⟨before, after, hcut, hid⟩ := exists_firstCut h
  refine ⟨before, ?_⟩
  rw [stripSection, hcut]
  dsimp only
  rw [String.toList_ofList, hid]

theorem stripSection_append {s id : String} (hs : '.' ∉ s.toList) (hid : '.' ∈ id.toList) :
    stripSection (s ++ id) = stripSection id := by
  obtain ⟨before, after, hcut, -⟩ := exists_firstCut hid
  rw [stripSection, stripSection, String.toList_append, firstCut_append (free_of_not_mem hs), hcut]
  rfl

/-- **Of a section with a point, only the part up to the point is taken off.** No hypothesis on the
identifier is left, so this and `stripSection_qualify` cover all sections. -/
theorem stripSection_qualify_of_point {s : String} (hs : '.' ∈ s.toList) (id : String) :
    stripSection (qualify (some s) id) = qualify (some (stripSection s)) id := by
  obtain ⟨before, after, hcut, -⟩ := exists_firstCut hs
  rw [stripSection, stripSection, toList_qualify, firstCut_append_of_some hcut, hcut]
  apply String.toList_inj.1
  simp [toList_qualify]

/-- Qualified identifiers agree only where the sections and the documented identifiers do. With a
point in a section this fails: `S` with `T.a` and `S.T` with `a` make the same key. -/
theorem qualify_inj {s t id other : String} (hs : '.' ∉ s.toList) (ht : '.' ∉ t.toList)
    (h : qualify (some s) id = qualify (some t) other) : s = t ∧ id = other := by
  have hid : id = other := by rw [← stripSection_qualify hs id, h, stripSection_qualify ht]
  subst hid
  have hl := congrArg String.toList h
  rw [toList_qualify, toList_qualify] at hl
  exact ⟨String.toList_inj.1 (List.append_cancel_right hl), rfl⟩

/-! ## Segments

A section in front is one more segment if it is plain, and some more in general. -/

theorem segments_of_plain {s : String} (hs : Plain s) : segments s = [s] := by
  rw [segments, List.splitOnP_eq_singleton hs]
  simp

theorem segments_qualify {s : String} (hs : Plain s) (id : String) :
    segments (qualify (some s) id) = s :: segments id := by
  rw [segments, toList_qualify, List.splitOnP_append_cons_of_forall_mem hs _ (by decide)]
  simp [segments]

theorem segments_ne_nil (id : String) : segments id ≠ [] := by
  rw [segments, ne_eq, List.map_eq_nil_iff]
  exact List.splitOnP_ne_nil _ _

theorem segments_qualify_congr {id other : String} (h : segments id = segments other) (s : String) :
    segments (qualify (some s) id) = segments (qualify (some s) other) := by
  have split : ∀ text : String, segments (qualify (some s) text)
      = (s.toList.splitOnP isSeparator).map String.ofList ++ segments text := by
    intro text
    rw [segments, toList_qualify, List.splitOnP_append_cons _ _ (by decide), List.map_append,
      segments]
  rw [split id, split other, h]

theorem plain_of_mem_segments {id s : String} (h : s ∈ segments id) : Plain s := by
  obtain ⟨piece, hp, rfl⟩ := List.mem_map.1 h
  intro c hc
  rw [String.toList_ofList] at hc
  exact free_of_mem_splitOnP hp c hc

theorem segments_instanceMember {id member : String} (h : instanceMember id = some member) :
    segments member = segments id := by
  obtain ⟨cut, hc, rfl⟩ := Option.map_eq_some_iff.1 h
  obtain ⟨hw, hm, -⟩ := lastCut_eq_some hc
  have hmark : cut.mark = '.' := beq_iff_eq.1 hm
  rw [segments, segments, String.toList_ofList, ← hw, Cut.whole, hmark,
    List.splitOnP_append_cons _ _ (by decide), List.splitOnP_append_cons _ _ (by decide)]

theorem ne_of_instanceMember {id member : String} (h : instanceMember id = some member) :
    member ≠ id := by
  intro he
  obtain ⟨cut, hc, hmember⟩ := Option.map_eq_some_iff.1 h
  obtain ⟨hw, hm, -⟩ := lastCut_eq_some hc
  rw [he, ← String.toList_inj, String.toList_ofList, ← hw, Cut.whole, List.append_cancel_left_eq,
    List.cons.injEq, beq_iff_eq.1 hm] at hmember
  exact absurd hmember.1 (by decide)

/-! ## Parents

The cut between an identifier and its parent depends on the whole of the identifier, since an `@`
anywhere changes where it is. So the laws go by cases on whether there is one (`parentCut_cases`),
and in each case the cut is the first or the last one at some marks, of which the laws for joined
texts hold. -/

/-- Where an identifier is cut: at the first `@`, and without one at the last point or hash. The
second case keeps that there is no `@`, which decides the search in any part of the identifier. -/
theorem parentCut_cases {id : String} {cut : Cut} (h : parentCut id = some cut) :
    firstCut (· == '@') id.toList = some cut ∨
      '@' ∉ id.toList ∧ lastCut (fun c => c == '.' || c == '#') id.toList = some cut := by
  rw [parentCut] at h
  cases hat : firstCut (· == '@') id.toList with
  | some event =>
    rw [hat] at h
    exact Or.inl h
  | none =>
    rw [hat] at h
    exact Or.inr ⟨fun hm => absurd (firstCut_eq_none_iff.1 hat '@' hm) (by decide), h⟩

theorem parentCut_eq_some {id : String} {cut : Cut} (h : parentCut id = some cut) :
    cut.whole = id.toList ∧ isSeparator cut.mark = true := by
  rcases parentCut_cases h with hat | ⟨-, hlast⟩
  · exact ⟨(firstCut_eq_some hat).1, isSeparator_of_isAt _ (firstCut_eq_some hat).2.1⟩
  · exact ⟨(lastCut_eq_some hlast).1, isSeparator_of_isPointOrHash _ (lastCut_eq_some hlast).2.1⟩

theorem parentKey_eq_some {id parent : String} (h : parentKey id = some parent) :
    ∃ mark rest, isSeparator mark = true ∧ id.toList = parent.toList ++ mark :: rest := by
  obtain ⟨cut, hc, rfl⟩ := Option.map_eq_some_iff.1 h
  obtain ⟨hw, hm⟩ := parentCut_eq_some hc
  exact ⟨cut.mark, cut.after, hm, by rw [String.toList_ofList, ← hw, Cut.whole]⟩

theorem parentKey_eq_none_iff {id : String} : parentKey id = none ↔ Plain id := by
  rw [parentKey, Option.map_eq_none_iff, parentCut]
  cases hat : firstCut (· == '@') id.toList with
  | some cut =>
    obtain ⟨hw, hm, -⟩ := firstCut_eq_some hat
    have inside : cut.mark ∈ id.toList := by
      rw [← hw, Cut.whole]
      exact List.mem_append_right _ List.mem_cons_self
    constructor
    · intro h
      cases h
    · intro hp
      exact absurd inside (hp.not_mem_of_separator (isSeparator_of_isAt _ hm))
  | none =>
    rw [firstCut_eq_none_iff] at hat
    dsimp only
    rw [lastCut_eq_none_iff]
    constructor
    · intro h c hc
      rw [isSeparator, h c hc, hat c hc]
      rfl
    · intro h c hc
      exact h.free isSeparator_of_isPointOrHash c hc

theorem localName_of_plain {id : String} (h : Plain id) : localName id = id := by
  have hcut := parentKey_eq_none_iff.2 h
  rw [parentKey, Option.map_eq_none_iff] at hcut
  rw [localName, hcut]

theorem toList_eq_of_not_plain {id : String} (h : ¬ Plain id) :
    ∃ before mark, isSeparator mark = true ∧
      id.toList = before ++ mark :: (localName id).toList := by
  rw [← parentKey_eq_none_iff, parentKey, Option.map_eq_none_iff] at h
  obtain ⟨cut, hcut⟩ := Option.ne_none_iff_exists'.1 h
  obtain ⟨hw, hm⟩ := parentCut_eq_some hcut
  refine ⟨cut.before, cut.mark, hm, ?_⟩
  rw [localName, hcut]
  dsimp only
  rw [String.toList_ofList, ← hw, Cut.whole]

theorem length_localName_le (id : String) : (localName id).toList.length ≤ id.toList.length := by
  by_cases h : Plain id
  · exact Nat.le_of_eq (congrArg (fun text => text.toList.length) (localName_of_plain h))
  · obtain ⟨before, mark, -, hid⟩ := toList_eq_of_not_plain h
    have hlen := congrArg List.length hid
    rw [List.length_append, List.length_cons] at hlen
    omega

/-- **A name with a separator is cut short**, also behind a text that has none. Both functions only
take characters away from the front, so it is enough that what is left is shorter than the name. -/
theorem localName_stripSection_append_ne {s id : String} (hs : Plain s) (hid : ¬ Plain id) :
    localName (stripSection (s ++ id)) ≠ id := by
  intro he
  have hname := congrArg (fun text : String => text.toList.length) he
  by_cases point : '.' ∈ id.toList
  · -- the section up to the first point is gone
    rw [stripSection_append hs.point_not_mem point] at hname
    obtain ⟨before, hsplit⟩ := toList_eq_of_point point
    have hlen := congrArg List.length hsplit
    have hle := length_localName_le (stripSection id)
    rw [List.length_append, List.length_cons] at hlen
    omega
  · -- the parent is gone, and it takes at least all of `s`
    have none : '.' ∉ (s ++ id).toList := by
      rw [String.toList_append, List.mem_append]
      exact fun hm => hm.elim hs.point_not_mem point
    have marked : ¬ Plain (s ++ id) := by
      intro hplain
      apply hid
      intro c hc
      apply hplain
      rw [String.toList_append]
      exact List.mem_append_right _ hc
    rw [stripSection_of_no_point none] at hname
    obtain ⟨before, mark, hm, hsplit⟩ := toList_eq_of_not_plain marked
    rw [String.toList_append] at hsplit
    have covers : s.toList.length ≤ before.length := by
      refine Nat.not_lt.1 fun hlt => ?_
      have hget : (s.toList ++ id.toList)[before.length]? = some mark := by
        rw [hsplit, List.getElem?_append_right (Nat.le_refl _), Nat.sub_self]
        rfl
      rw [List.getElem?_append_left hlt] at hget
      exact hs.not_mem_of_separator hm (List.mem_of_getElem? hget)
    have hlen := congrArg List.length hsplit
    rw [List.length_append, List.length_append, List.length_cons] at hlen
    omega

theorem localName_stripSection_eq_iff {id : String} :
    localName (stripSection id) = id ↔ Plain id := by
  constructor
  · intro he
    refine Decidable.byContradiction fun hid => ?_
    have hne := localName_stripSection_append_ne plain_empty hid
    rw [String.empty_append] at hne
    exact hne he
  · intro hid
    rw [stripSection_of_no_point hid.point_not_mem, localName_of_plain hid]

/-- **The parent of a qualified identifier is the qualified parent**, when the identifier has one.
The section and the point behind it hold no `@`, so the cut is made at the same mark as before. -/
theorem parentKey_qualify_of_some {s id parent : String} (hs : Plain s)
    (h : parentKey id = some parent) :
    parentKey (qualify (some s) id) = some (qualify (some s) parent) := by
  obtain ⟨cut, hc, rfl⟩ := Option.map_eq_some_iff.1 h
  have front : ∀ c ∈ s.toList ++ ['.'], (c == '@') = false := by
    intro c hm
    rcases List.mem_append.1 hm with hm | hm
    · exact hs.free isSeparator_of_isAt c hm
    · rw [List.mem_singleton.1 hm]
      rfl
  have joined : (qualify (some s) id).toList = (s.toList ++ ['.']) ++ id.toList := by
    rw [toList_qualify, List.append_assoc]
    rfl
  have before : String.ofList ((s.toList ++ ['.']) ++ cut.before)
      = qualify (some s) (String.ofList cut.before) := by
    apply String.toList_inj.1
    rw [toList_qualify, String.toList_ofList, String.toList_ofList, List.append_assoc]
    rfl
  -- the section and the point hold no `@`, so both are cut in the same way
  rw [parentKey, parentCut, joined, firstCut_append front]
  rcases parentCut_cases hc with hat | ⟨none, hlast⟩
  · rw [hat]
    exact congrArg some before
  · rw [firstCut_eq_none_iff.2 (free_of_not_mem none), Option.map_none]
    dsimp only
    rw [lastCut_append_of_some hlast]
    exact congrArg some before

/-- The section is the parent of an identifier that has none itself. This is the case in which the
mark of the cut is the point that was put in. -/
theorem parentKey_qualify_of_plain {s id : String} (hs : Plain s) (hid : Plain id) :
    parentKey (qualify (some s) id) = some s := by
  have noAt : ∀ c ∈ s.toList ++ '.' :: id.toList, (c == '@') = false := by
    intro c hm
    rcases List.mem_append.1 hm with hm | hm
    · exact hs.free isSeparator_of_isAt c hm
    · rcases List.mem_cons.1 hm with rfl | hm
      · rfl
      · exact hid.free isSeparator_of_isAt c hm
  rw [parentKey, parentCut, toList_qualify, firstCut_eq_none_iff.2 noAt]
  dsimp only
  rw [lastCut_of_mark (hid.free isSeparator_of_isPointOrHash) (by rfl)]
  exact congrArg some String.ofList_toList

theorem mem_of_mem_stripSection {id : String} {c : Char} (h : c ∈ (stripSection id).toList) :
    c ∈ id.toList := by
  by_cases point : '.' ∈ id.toList
  · obtain ⟨before, hid⟩ := toList_eq_of_point point
    rw [hid]
    exact List.mem_append_right _ (List.mem_cons_of_mem _ h)
  · rwa [stripSection_of_no_point point] at h

theorem toList_stripSection_append {a : String} (point : '.' ∈ a.toList) {id : String}
    {l : List Char} (hid : id.toList = a.toList ++ l) :
    (stripSection id).toList = (stripSection a).toList ++ l := by
  obtain ⟨before, after, hcut, -⟩ := exists_firstCut point
  rw [stripSection, stripSection, hid, firstCut_append_of_some hcut, hcut]
  simp

/-- **A parent with a point is still the parent when both lose their section.** The point is needed
for the section to be taken off the same way: without one in the parent, the first point of the
identifier could be the mark of the cut itself. -/
theorem parentKey_stripSection {id parent : String} (h : parentKey id = some parent)
    (point : '.' ∈ parent.toList) :
    parentKey (stripSection id) = some (stripSection parent) := by
  obtain ⟨cut, hcut, hparent⟩ := Option.map_eq_some_iff.1 h
  have whole := (parentCut_eq_some hcut).1
  have before : parent.toList = cut.before := by rw [← hparent, String.toList_ofList]
  have stripped := toList_stripSection_append point
    (whole.symm.trans (congrArg (· ++ cut.mark :: cut.after) before.symm))
  rw [parentKey, parentCut, stripped]
  -- an `@` in the identifier stands behind the parent, or there is none in either
  rcases parentCut_cases hcut with hat | ⟨none, hlast⟩
  · obtain ⟨-, hmark, free⟩ := firstCut_eq_some hat
    have free' : ∀ c ∈ (stripSection parent).toList, (c == '@') = false := by
      intro c hc
      exact free c (before ▸ mem_of_mem_stripSection hc)
    rw [firstCut_of_mark free' hmark]
    exact congrArg some String.ofList_toList
  · obtain ⟨-, hmark, free⟩ := lastCut_eq_some hlast
    have noAt : ∀ c ∈ (stripSection parent).toList ++ cut.mark :: cut.after, (c == '@') = false := by
      intro c hc
      refine free_of_not_mem none c ?_
      rw [← whole, Cut.whole]
      rcases List.mem_append.1 hc with hc | hc
      · exact List.mem_append_left _ (before ▸ mem_of_mem_stripSection hc)
      · exact List.mem_append_right _ hc
    rw [firstCut_eq_none_iff.2 noAt]
    dsimp only
    rw [lastCut_of_mark free hmark]
    exact congrArg some String.ofList_toList

def lastSeparator (id : String) : Option Char := (lastCut isSeparator id.toList).map Cut.mark

/-- Whether the last separator is a point or a hash makes no difference to the parent. The right
side does not mention the mark: it is the text in front, cut at an `@` if that has one. -/
theorem parentKey_of_last {id : String} {a l : List Char} {mark : Char}
    (hid : id.toList = a ++ mark :: l) (hm : (mark == '.' || mark == '#') = true)
    (free : ∀ c ∈ l, isSeparator c = false) :
    parentKey id = some (String.ofList ((firstCut (· == '@') a).elim a Cut.before)) := by
  rw [parentKey, parentCut, hid]
  cases hat : firstCut (· == '@') a with
  | some cut =>
    rw [firstCut_append_of_some hat]
    rfl
  | none =>
    -- without an at sign in front there is none at all, for none stands behind the mark
    have noAt : ∀ c ∈ a ++ mark :: l, (c == '@') = false := by
      intro c hc
      rcases List.mem_append.1 hc with hc | hc
      · exact firstCut_eq_none_iff.1 hat c hc
      · rcases List.mem_cons.1 hc with rfl | hc
        · rw [beq_eq_false_iff_ne]
          rintro rfl
          exact absurd hm (by decide)
        · have hfree := free c hc
          rw [isSeparator, Bool.or_eq_false_iff] at hfree
          exact hfree.2
    have noMark : ∀ c ∈ l, (c == '.' || c == '#') = false := by
      intro c hc
      have hfree := free c hc
      rw [isSeparator, Bool.or_eq_false_iff] at hfree
      exact hfree.1
    rw [firstCut_eq_none_iff.2 noAt]
    dsimp only
    rw [lastCut_of_mark noMark hm]
    rfl

/-- **A method and its instance method have the same parent** when the point between its name and
its type is the last separator, whatever stands in front. -/
theorem parentKey_qualify_instanceMember {id member : String} (s : String)
    (h : instanceMember id = some member) (last : lastSeparator id = some '.') :
    parentKey (qualify (some s) member) = parentKey (qualify (some s) id) := by
  obtain ⟨cut, hcut, hmark⟩ := Option.map_eq_some_iff.1 last
  obtain ⟨hw, -, free⟩ := lastCut_eq_some hcut
  rw [Cut.whole, hmark] at hw
  have noPoint : ∀ c ∈ cut.after, (c == '.') = false := by
    intro c hc
    rw [beq_eq_false_iff_ne]
    rintro rfl
    exact absurd (free '.' hc) (by decide)
  rw [instanceMember, ← hw, lastCut_of_mark noPoint (by rfl)] at h
  cases h
  have own : (qualify (some s) id).toList
      = (s.toList ++ '.' :: cut.before) ++ '.' :: cut.after := by
    rw [toList_qualify, ← hw, List.append_assoc, List.cons_append]
  have other : (qualify (some s) (String.ofList (cut.before ++ '#' :: cut.after))).toList
      = (s.toList ++ '.' :: cut.before) ++ '#' :: cut.after := by
    rw [toList_qualify, String.toList_ofList, List.append_assoc, List.cons_append]
  rw [parentKey_of_last own (by rfl) free, parentKey_of_last other (by rfl) free]

/-- The segments of a parent are the first ones, and not all. The others are those of what stands
behind the mark, of which there is at least one, perhaps empty. -/
theorem segments_parentKey {id parent : String} (h : parentKey id = some parent) :
    ∃ others, others ≠ [] ∧ segments id = segments parent ++ others := by
  obtain ⟨mark, rest, hm, hid⟩ := parentKey_eq_some h
  refine ⟨(rest.splitOnP isSeparator).map String.ofList, ?_, ?_⟩
  · rw [ne_eq, List.map_eq_nil_iff]
    exact List.splitOnP_ne_nil _ _
  · rw [segments, segments, hid, List.splitOnP_append_cons _ _ hm, List.map_append]

theorem head?_segments_parentKey {id parent : String} (h : parentKey id = some parent) :
    (segments parent).head? = (segments id).head? := by
  obtain ⟨behind, -, hs⟩ := segments_parentKey h
  obtain ⟨first, others, hf⟩ := List.exists_cons_of_ne_nil (segments_ne_nil parent)
  rw [hs, hf]
  rfl

end DocTree.Ident
