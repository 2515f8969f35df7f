import Mathlib.Data.List.Forall2

/-!
# Steps that can fail

What a chain of steps gave when none of them failed, and where a traversal ends that checks one item
after the other. Such a traversal labels the outcome of a check with the item that was checked, and
it ends at the first failure.

Readers, the command line and the pipeline from files to documentation are all written in `Except`,
and none of their proofs unfolds a bind. They take a chain apart with the equivalences of the first
section, which say what each step gave; a `rcases` on the result names the intermediate values.

The second section is for the loops. A `mapM` over files, paths or texts stops at the first item
that fails, and what is claimed about that is always the same: which item it is, that all before it
went well, and what the fault says. `FirstFailure` is this statement for a check without labels, and
the two equivalences carry it over to a labelled one, so the label is dealt with once.
-/

set_option autoImplicit false

namespace DocTree

/-! ## One step after another

Each of these is an equivalence, so that a proof in either direction can use it. -/

section Chain

variable {ε δ α β : Type} {x : Except ε α} {b : β}

theorem bind_eq_ok_iff {f : α → Except ε β} : x >>= f = .ok b ↔ ∃ a, x = .ok a ∧ f a = .ok b := by
  cases x with
  | error e => exact iff_of_false nofun nofun
  | ok a => exact ⟨fun h => ⟨a, rfl, h⟩, fun ⟨_, hx, h⟩ => Except.ok.inj hx ▸ h⟩

theorem bind_eq_error_iff {f : α → Except ε β} {e : ε} :
    x >>= f = .error e ↔ x = .error e ∨ ∃ a, x = .ok a ∧ f a = .error e := by
  cases x with
  | error e' =>
    refine ⟨fun h => Or.inl (congrArg _ (Except.error.inj h)), ?_⟩
    rintro (h | ⟨_, hx, -⟩)
    · exact congrArg _ (Except.error.inj h)
    · cases hx
  | ok a =>
    refine ⟨fun h => Or.inr ⟨a, rfl, h⟩, ?_⟩
    rintro (hx | ⟨_, hx, h⟩)
    · cases hx
    · exact Except.ok.inj hx ▸ h

theorem map_eq_ok_iff {f : α → β} : x.map f = .ok b ↔ ∃ a, x = .ok a ∧ f a = b := by
  cases x with
  | error e => exact iff_of_false nofun nofun
  | ok a => exact ⟨fun h => ⟨a, rfl, Except.ok.inj h⟩, fun ⟨_, hx, h⟩ => Except.ok.inj hx ▸ h ▸ rfl⟩

theorem map_eq_error_iff {f : α → β} {e : ε} : x.map f = .error e ↔ x = .error e := by
  cases x with
  | error e' =>
    exact ⟨fun h => congrArg _ (Except.error.inj h), fun h => congrArg _ (Except.error.inj h)⟩
  | ok a => exact iff_of_false nofun nofun

theorem mapError_eq_ok_iff {f : ε → δ} {a : α} : x.mapError f = .ok a ↔ x = .ok a := by
  cases x with
  | error e => exact iff_of_false nofun nofun
  | ok a' => exact ⟨fun h => congrArg _ (Except.ok.inj h), fun h => congrArg _ (Except.ok.inj h)⟩

theorem mapError_eq_error_iff {f : ε → δ} {e : δ} :
    x.mapError f = .error e ↔ ∃ e', x = .error e' ∧ f e' = e := by
  cases x with
  | error e' =>
    exact ⟨fun h => ⟨e', rfl, Except.error.inj h⟩,
      fun ⟨_, hx, h⟩ => congrArg _ (Except.error.inj hx ▸ h)⟩
  | ok a => exact iff_of_false nofun nofun

end Chain

/-! ## The first failure

The split of the list at the failing item is part of the statement. Its parts are what a later proof
needs: the items before it were all checked, and those behind it never were. -/

/-- The check fails at `item` and at none of the items before it. Whether it would fail at an item
behind is left open, since that is never found out. -/
def FirstFailure {ε α β : Type} (check : α → Except ε β) (items : List α) (item : α) (fault : ε) :
    Prop :=
  ∃ before after, items = before ++ item :: after ∧
    (∀ other ∈ before, ∃ result, check other = .ok result) ∧ check item = .error fault

/-- A check with its outcome labelled by the item that was checked. Both the results and the faults
of a traversal then say where they come from. -/
structure Labels {ε δ α β γ : Type} (check : α → Except ε β) (labelled : α → Except δ γ)
    (onOk : α → β → γ) (onError : α → ε → δ) : Prop where
  ok : ∀ {item result}, check item = .ok result → labelled item = .ok (onOk item result)
  error : ∀ {item fault}, check item = .error fault → labelled item = .error (onError item fault)

section Labelled

variable {ε δ α β γ : Type} {check : α → Except ε β} {labelled : α → Except δ γ}
  {onOk : α → β → γ} {onError : α → ε → δ}

theorem firstFailure_cons_iff {first item : α} {rest : List α} {result : β} {fault : ε}
    (ok : check first = .ok result) :
    FirstFailure check (first :: rest) item fault ↔ FirstFailure check rest item fault := by
  constructor
  · rintro ⟨before, after, hitems, hbefore, hitem⟩
    cases before with
    | nil =>
      cases hitems
      rw [ok] at hitem
      cases hitem
    | cons head front =>
      cases hitems
      exact ⟨front, after, rfl, fun other ho => hbefore other (List.mem_cons_of_mem _ ho), hitem⟩
  · rintro ⟨before, after, rfl, hbefore, hitem⟩
    refine ⟨first :: before, after, rfl, ?_, hitem⟩
    intro other hother
    rcases List.mem_cons.1 hother with rfl | hother
    · exact ⟨result, ok⟩
    · exact hbefore other hother

theorem firstFailure_cons_error_iff {first item : α} {rest : List α} {fault other : ε}
    (failed : check first = .error fault) :
    FirstFailure check (first :: rest) item other ↔ item = first ∧ other = fault := by
  constructor
  · rintro ⟨before, after, hitems, hbefore, hitem⟩
    cases before with
    | nil =>
      cases hitems
      cases failed.symm.trans hitem
      exact ⟨rfl, rfl⟩
    | cons head front =>
      cases hitems
      obtain ⟨result, ok⟩ := hbefore first List.mem_cons_self
      cases failed.symm.trans ok
  · rintro ⟨rfl, rfl⟩
    exact ⟨[], rest, rfl, List.forall_mem_nil _, failed⟩

/-- A check fails at all only where it fails first. So whether a traversal fails can be asked
without regard to the order of the items. -/
theorem exists_firstFailure_iff {items : List α} :
    (∃ item fault, FirstFailure check items item fault) ↔
      ∃ item ∈ items, ∃ fault, check item = .error fault := by
  induction items with
  | nil =>
    refine iff_of_false ?_ (by simp)
    rintro ⟨item, fault, before, after, hitems, -⟩
    cases before <;> cases hitems
  | cons first rest ih =>
    rw [List.exists_mem_cons_iff]
    cases hfirst : check first with
    | error fault =>
      refine iff_of_true ⟨first, fault, ?_⟩ (Or.inl ⟨fault, rfl⟩)
      exact (firstFailure_cons_error_iff hfirst).2 ⟨rfl, rfl⟩
    | ok result =>
      simp only [firstFailure_cons_iff hfirst, ih, reduceCtorEq, exists_false, false_or]

variable (labels : Labels check labelled onOk onError)
include labels

/-- **The traversal fails with the first fault**, labelled with the item that it lies in. As an
equivalence it also says that no other fault is ever reported. -/
theorem mapM_labelled_eq_error_iff {items : List α} {refusal : δ} :
    items.mapM labelled = .error refusal ↔
      ∃ item fault, FirstFailure check items item fault ∧ refusal = onError item fault := by
  induction items with
  | nil =>
    constructor
    · intro h
      cases h
    · rintro ⟨item, fault, ⟨before, after, hitems, -⟩, -⟩
      cases before <;> cases hitems
  | cons first rest ih =>
    rw [List.mapM_cons]
    cases hfirst : check first with
    | error fault =>
      rw [labels.error hfirst]
      simp only [firstFailure_cons_error_iff hfirst]
      constructor
      · intro h
        cases h
        exact ⟨first, fault, ⟨rfl, rfl⟩, rfl⟩
      · rintro ⟨item, other, ⟨rfl, rfl⟩, rfl⟩
        rfl
    | ok result =>
      rw [labels.ok hfirst]
      simp only [firstFailure_cons_iff hfirst]
      rw [← ih]
      -- a result in front changes nothing about what failed behind it
      cases rest.mapM labelled with
      | error other => exact Iff.rfl
      | ok results => exact iff_of_false nofun nofun

/-- A traversal that does not fail gives a result for each item, in order. -/
theorem mapM_labelled_eq_ok_iff {items : List α} {results : List γ} :
    items.mapM labelled = .ok results ↔
      List.Forall₂ (fun item labelled => ∃ result, check item = .ok result ∧
        labelled = onOk item result) items results := by
  induction items generalizing results with
  | nil =>
    rw [List.forall₂_nil_left_iff]
    constructor
    · intro h
      cases h
      rfl
    · rintro rfl
      rfl
  | cons first rest ih =>
    rw [List.mapM_cons, List.forall₂_cons_left_iff]
    -- the traversal goes on only behind a result, and then its tail is a traversal again
    cases hfirst : check first with
    | error fault =>
      rw [labels.error hfirst]
      refine iff_of_false nofun ?_
      rintro ⟨_, _, ⟨result, hok, -⟩, -, -⟩
      cases hok
    | ok result =>
      rw [labels.ok hfirst]
      cases hrest : rest.mapM labelled with
      | error other =>
        refine iff_of_false nofun ?_
        rintro ⟨_, others, -, hothers, -⟩
        cases hrest.symm.trans (ih.2 hothers)
      | ok others =>
        constructor
        · intro h
          cases h
          exact ⟨_, others, ⟨result, rfl, rfl⟩, ih.1 hrest, rfl⟩
        · rintro ⟨_, found, ⟨_, hok, rfl⟩, hfound, rfl⟩
          cases hok
          cases hrest.symm.trans (ih.2 hfound)
          rfl

end Labelled

end DocTree
