import DocTree.FileSystem
import DocTree.Proofs.Steps
import Mathlib.Logic.Basic

/-!
# What writing changes

Making directories and writing a file are frames: a directory is only made where nothing was, and a
file is written to one place. So the way to a place is the same before and after (`Keeps`), and a
text is read back from the path to which it was written (`readText_of_writeText`).

A path leads to a place only through directories that are there, and a name may lead upwards. So
whether a path still leads to the same place after a change is not clear from the path; it is clear
from the fact that everything on the way was a directory and is one still. Files play no part in
this.

Making directories has its own notion (`Grows`), which is more than keeping: every place has what it
had, or had nothing and is a directory now. It is closed under repetition, so it carries through the
recursion over parents, which tries, makes the parent, and tries again. Whether any of these steps
succeeds does not matter, as a failure leaves what has been made so far.
-/

set_option autoImplicit false

namespace DocTree

namespace FileSystem

variable {fs before between after : FileSystem} {place other : Place} {entry : Entry}
  {path text : String}

/-! ## One place

What is at a place, after an entry was set there or elsewhere. The root is always a directory. -/

@[simp] theorem at?_root : fs.at? [] = some .directory := if_pos rfl

theorem at?_set (h : place ≠ []) :
    (fs.set place entry).at? other = if other = place then some entry else fs.at? other := by
  by_cases hroot : other = []
  · subst hroot
    rw [if_neg (Ne.symm h), at?_root, at?_root]
  · rw [at?, if_neg hroot, set, at?, if_neg hroot]
    by_cases ho : other = place
    · subst ho
      simp
    · rw [if_neg ho, List.find?_cons_of_neg (by simpa using Ne.symm ho), List.find?_filter]
      congr 2
      funext found
      grind

theorem ne_root_of_at? (h : fs.at? place ≠ some .directory) : place ≠ [] := by
  rintro rfl
  exact h at?_root

/-! ## Directories stay

Following a path looks at directories only, one name after the other. -/

/-- What was a directory still is one, and paths are followed from the same place. This is all that
it takes for a path that could be followed to lead to the same place again. -/
structure Keeps (before after : FileSystem) : Prop where
  working : after.working = before.working
  directory : ∀ place, before.at? place = some .directory → after.at? place = some .directory

theorem Keeps.step (h : Keeps before after) {name : String}
    (hstep : before.step place name = .ok other) : after.step place name = .ok other := by
  rw [FileSystem.step] at hstep ⊢
  cases hplace : before.at? place with
  | none =>
    rw [hplace] at hstep
    cases hstep
  | some entry =>
    cases entry with
    | file bytes =>
      rw [hplace] at hstep
      cases hstep
    | directory =>
      rw [hplace] at hstep
      rw [h.directory place hplace]
      exact hstep

theorem Keeps.follow (h : Keeps before after) {names : List String}
    (hfollow : before.follow place names = .ok other) : after.follow place names = .ok other := by
  induction names generalizing place with
  | nil => exact hfollow
  | cons name rest ih =>
    rw [FileSystem.follow, List.foldlM_cons] at hfollow ⊢
    obtain ⟨next, hstep, hrest⟩ := bind_eq_ok_iff.1 hfollow
    exact bind_eq_ok_iff.2 ⟨next, h.step hstep, ih hrest⟩

theorem Keeps.resolve (h : Keeps before after) (hresolve : before.resolve path = .ok place) :
    after.resolve path = .ok place := by
  rw [FileSystem.resolve] at hresolve ⊢
  obtain ⟨names, hnames, hfollow⟩ := bind_eq_ok_iff.1 hresolve
  have horigin : after.origin path = before.origin path := by
    rw [origin, origin, h.working]
  rw [horigin]
  exact bind_eq_ok_iff.2 ⟨names, hnames, h.follow hfollow⟩

theorem keeps_set (entry : Entry) (h : fs.at? place ≠ some .directory) :
    Keeps fs (fs.set place entry) := by
  refine ⟨rfl, ?_⟩
  intro other hother
  rw [at?_set (ne_root_of_at? h), if_neg ?_]
  · exact hother
  · rintro rfl
    exact h hother

/-! ## Directories that are made

From making one directory to making a whole row of them, by the definitions of the program. Each of
these can fail in several ways, and in every one of them the file system has grown. -/

/-- Nothing but directories has come, where nothing was. A file that was there is there with the
same bytes, and no other has come. -/
structure Grows (before after : FileSystem) : Prop where
  working : after.working = before.working
  at? : ∀ place, after.at? place = before.at? place ∨
    before.at? place = none ∧ after.at? place = some .directory

theorem Grows.refl (fs : FileSystem) : Grows fs fs := ⟨rfl, fun _ => .inl rfl⟩

theorem Grows.trans (first : Grows before between) (second : Grows between after) :
    Grows before after := by
  refine ⟨second.working.trans first.working, ?_⟩
  intro place
  rcases second.at? place with hsame | ⟨hnone, hmade⟩
  · rw [hsame]
    exact first.at? place
  · rcases first.at? place with hsame | ⟨hnone', -⟩
    · exact .inr ⟨hsame ▸ hnone, hmade⟩
    · exact .inr ⟨hnone', hmade⟩

theorem Grows.file_iff (h : Grows before after) {bytes : ByteArray} :
    after.at? place = some (.file bytes) ↔ before.at? place = some (.file bytes) := by
  rcases h.at? place with hsame | ⟨hnone, hmade⟩
  · rw [hsame]
  · rw [hnone, hmade]
    exact iff_of_false nofun nofun

theorem grows_set_directory (h : fs.at? place = none) : Grows fs (fs.set place .directory) := by
  refine ⟨rfl, ?_⟩
  intro other
  rw [at?_set (ne_root_of_at? (by rw [h]; exact nofun))]
  split
  · rename_i ho
    exact .inr ⟨ho ▸ h, rfl⟩
  · exact .inl rfl

theorem grows_makeDirectory (h : fs.makeDirectory path = .ok after) : Grows fs after := by
  obtain ⟨place, -, hmade⟩ := bind_eq_ok_iff.1 h
  split at hmade
  · cases hmade
  · rename_i hnone
    cases hmade
    exact grows_set_directory hnone

theorem grows_ensureDirectory (h : fs.ensureDirectory path = .ok after) : Grows fs after := by
  rw [ensureDirectory] at h
  split at h
  · rename_i grown hmade
    cases h
    exact grows_makeDirectory hmade
  · split at h
    · cases h
      exact .refl fs
    · cases h

theorem Growth.grows_ensureDirectory (growth : Growth) :
    Grows growth.files (growth.ensureDirectory path).files := by
  rw [Growth.ensureDirectory]
  split
  · exact .refl _
  · split
    · rename_i grown hmade
      exact FileSystem.grows_ensureDirectory hmade
    · exact .refl _

theorem grows_makeDirectories (levels : Nat) : Grows fs (fs.makeDirectories path levels).files := by
  induction levels generalizing path with
  | zero => exact .refl fs
  | succ levels ih =>
    rw [makeDirectories]
    split
    · exact .refl fs
    · split
      · rename_i grown hmade
        exact grows_ensureDirectory hmade
      · split
        · exact .refl fs
        · exact ih.trans (Growth.grows_ensureDirectory _)
      · exact .refl fs

theorem grows_makeTree : Grows fs (fs.makeTree path).files := grows_makeDirectories _

/-! ## Files that are written

A file can be written where nothing was or where a file was. In both cases no directory is lost, so
the path leads to the same place afterwards, and the text is there. -/

/-- **Writing a file changes one place**, which is none of a directory. That the place may be that
of an input is not excluded. -/
theorem writeText_eq_ok (h : fs.writeText path text = .ok after) :
    ∃ place, fs.resolve path = .ok place ∧ fs.at? place ≠ some .directory ∧
      after = fs.set place (.file text.toUTF8) := by
  rw [writeText] at h
  split at h
  · obtain ⟨place, -, hrefused⟩ := bind_eq_ok_iff.1 h
    cases hrefused
  · obtain ⟨place, hplace, hwritten⟩ := bind_eq_ok_iff.1 h
    refine ⟨place, hplace, ?_⟩
    split at hwritten
    · cases hwritten
    · rename_i hnot
      cases hwritten
      exact ⟨hnot, rfl⟩

theorem decode_toUTF8 : decode text.toUTF8 = .ok text := by
  have h : String.fromUTF8? text.toUTF8 = some text := by
    rw [String.fromUTF8?]
    exact dif_pos text.isValidUTF8
  rw [decode, h]

/-- **What is written is read back**, by the same path. The write has lost no directory, so the path
leads to the same place. -/
theorem readText_of_writeText (h : fs.writeText path text = .ok after) :
    after.readText path = .ok text := by
  obtain ⟨place, hplace, hnot, rfl⟩ := writeText_eq_ok h
  have hafter := (keeps_set (.file text.toUTF8) hnot).resolve hplace
  have hat : (fs.set place (.file text.toUTF8)).at? place = some (.file text.toUTF8) := by
    rw [at?_set (ne_root_of_at? hnot), if_pos rfl]
  have hstat : (fs.set place (.file text.toUTF8)).stat path = .ok (.file text.toUTF8) :=
    bind_eq_ok_iff.2 ⟨place, hafter, by rw [hat]⟩
  exact bind_eq_ok_iff.2 ⟨_, hstat, decode_toUTF8⟩

end FileSystem

end DocTree
