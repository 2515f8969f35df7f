import DocTree.Text.Lowercase
import Mathlib.Data.Nat.Basic

/-!
# Lower case stays as it is

Lower-casing a text twice is lower-casing it once. Every character that lower-casing can give is one
that it leaves alone: it is no capital sigma, whose form depends on its surroundings, no `İ`, and no
capital of the table. The last is a fact about the table, that the lower-case forms of one run never
meet the capitals of another; two runs that lie inside one another have every other code point each.
It is checked for pairs of runs, since there are far fewer of them than characters.

The property of a character that is carried through is `IsLow`: its lower-case form is itself, and
it is not the capital sigma. The second half follows from the first, as the table has the sigma like
any other capital, but the walk asks for the sigma before it looks into the table, and so does a
proof. A text of such characters is left alone whatever stands around each of them; the context of
the sigma, which makes everything else about lower-casing awkward, never comes up again.
-/

set_option autoImplicit false

namespace DocTree.Text

/-! ## Runs

The check over the table is one evaluation by the kernel over all pairs of runs. A pair passes for a
reason that is read off its four bounds, and `not_has_lowered` is the proof that such a reason is
one. -/

namespace CapitalRun

/-- Whether the code point is a capital of the run. In a run with a step of two the code points
between are the small letters. -/
def Has (run : CapitalRun) (n : Nat) : Prop :=
  run.first ≤ n ∧ n ≤ run.last ∧ (n - run.first) % run.step = 0

def lowered (run : CapitalRun) (n : Nat) : Nat := run.lowerFirst + (n - run.first)

/-- Whether the lower-case forms of the run lie before or behind the capitals of the other one, or
between them. Between them means that both have a step of two and begin at code points of different
parity. -/
def misses (run other : CapitalRun) : Bool :=
  (run.lowered run.last).blt other.first || other.last.blt run.lowerFirst ||
    (other.step == 2 && (run.step == 2 || run.first == run.last) &&
      (run.lowerFirst + other.first) % 2 == 1)

theorem not_has_lowered {run other : CapitalRun} (h : run.misses other = true) {n : Nat}
    (hn : run.Has n) : ¬ other.Has (run.lowered n) := by
  obtain ⟨hfirst, hlast, hstep⟩ := hn
  simp only [misses, lowered, Bool.or_eq_true, Bool.and_eq_true, beq_iff_eq, Nat.blt_eq] at h
  rintro ⟨hofirst, holast, hostep⟩
  rw [lowered] at hofirst holast hostep
  -- apart on the line, or of different parity at a step of two
  rcases h with (before | behind) | ⟨⟨two, alternate⟩, odd⟩
  · omega
  · omega
  · rw [two] at hostep
    rcases alternate with htwo | single
    · rw [htwo] at hstep
      omega
    · omega

def dotted : CapitalRun := ⟨0x130, 0x130, 1, 0x69⟩

end CapitalRun

theorem lowerInRuns_eq_some {runs : List CapitalRun} {n m : Nat}
    (h : lowerInRuns runs n = some m) : ∃ run ∈ runs, run.Has n ∧ run.lowered n = m := by
  induction runs with
  | nil => cases h
  | cons run rest ih =>
    rw [lowerInRuns] at h
    split at h
    · cases h
    case isFalse hfirst =>
      split at h
      case isTrue hin =>
        simp only [Bool.and_eq_true, decide_eq_true_eq, beq_iff_eq] at hin
        exact ⟨run, List.mem_cons_self, ⟨Nat.le_of_not_lt hfirst, hin⟩, Option.some.inj h⟩
      case isFalse =>
        obtain ⟨other, hm, ho⟩ := ih h
        exact ⟨other, List.mem_cons_of_mem _ hm, ho⟩

theorem lowerInRuns_eq_none {runs : List CapitalRun} {n : Nat} (h : ∀ run ∈ runs, ¬ run.Has n) :
    lowerInRuns runs n = none := by
  rw [Option.eq_none_iff_forall_ne_some]
  intro m hm
  obtain ⟨run, hmem, hhas, -⟩ := lowerInRuns_eq_some hm
  exact h run hmem hhas

/-- **No lower-case form of the table is a capital.** The check goes over all pairs of runs and
never over their code points, of which there are many more. -/
theorem misses_capitalRuns :
    ∀ run ∈ capitalRuns, ∀ other ∈ CapitalRun.dotted :: capitalRuns, run.misses other = true := by
  have table : (capitalRuns.all fun run =>
      (CapitalRun.dotted :: capitalRuns).all run.misses) = true := by decide +kernel
  intro run hr other ho
  exact List.all_eq_true.1 (List.all_eq_true.1 table run hr) other ho

/-! ## Characters

From runs to code points to characters. That the lower-case form of a capital is a character at all
has to be shown on the way, since `Char.ofNat` would give something else for a surrogate. -/

/-- Whether lower-casing leaves the character alone, whatever is around it. The capital sigma is the
one character for which that matters. -/
def IsLow (c : Char) : Prop := lowerChar c = [c] ∧ c ≠ capitalSigma

instance : DecidablePred IsLow := fun c =>
  inferInstanceAs (Decidable (lowerChar c = [c] ∧ c ≠ capitalSigma))

theorem isLow_of_not_capital {c : Char} (dotless : c ≠ dottedCapitalI)
    (none : lowerInRuns capitalRuns c.toNat = none) : IsLow c := by
  constructor
  · rw [lowerChar, if_neg dotless, none]
  · rintro rfl
    have sigma : lowerInRuns capitalRuns capitalSigma.toNat ≠ Option.none := by decide +kernel
    exact sigma none

theorem isLow_ofNat {run : CapitalRun} (hr : run ∈ capitalRuns) {n : Nat} (hn : run.Has n) :
    IsLow (Char.ofNat (run.lowered n)) := by
  have apart : ∀ other ∈ CapitalRun.dotted :: capitalRuns, ¬ other.Has (run.lowered n) := by
    intro other ho
    exact CapitalRun.not_has_lowered (misses_capitalRuns run hr other ho) hn
  by_cases hvalid : (run.lowered n).isValidChar
  · have value : (Char.ofNat (run.lowered n)).toNat = run.lowered n := by
      rw [Char.ofNat, dif_pos hvalid]
      rfl
    apply isLow_of_not_capital
    · intro hdotted
      apply apart CapitalRun.dotted List.mem_cons_self
      rw [← value, hdotted]
      exact ⟨Nat.le_refl _, Nat.le_refl _, rfl⟩
    · rw [value]
      exact lowerInRuns_eq_none fun other ho => apart other (List.mem_cons_of_mem _ ho)
  · -- a number that is no character stands for the first character, which has no other case
    rw [Char.ofNat, dif_neg hvalid]
    decide +kernel

/-- No character that lower-casing gives is changed by it, neither one of the table nor one of the
two for `İ`. -/
theorem isLow_of_mem_lowerChar {c d : Char} (h : d ∈ lowerChar c) : IsLow d := by
  rw [lowerChar] at h
  split at h
  case isTrue =>
    have both : IsLow 'i' ∧ IsLow '\u0307' := by decide +kernel
    rw [List.mem_cons, List.mem_singleton] at h
    rcases h with rfl | rfl
    · exact both.1
    · exact both.2
  case isFalse dotless =>
    cases hrun : lowerInRuns capitalRuns c.toNat with
    | some n =>
      rw [hrun, List.mem_singleton] at h
      obtain ⟨run, hr, hn, rfl⟩ := lowerInRuns_eq_some hrun
      rw [h]
      exact isLow_ofNat hr hn
    | none =>
      rw [hrun, List.mem_singleton] at h
      rw [h]
      exact isLow_of_not_capital dotless hrun

/-! ## Texts -/

theorem isLow_of_mem_lowerAfter {before cs : List Char} {d : Char} (h : d ∈ lowerAfter before cs) :
    IsLow d := by
  induction cs generalizing before with
  | nil => cases h
  | cons c rest ih =>
    rw [lowerAfter, List.mem_append] at h
    rcases h with h | h
    · split at h
      case isTrue =>
        have small : IsLow '\u03C2' ∧ IsLow '\u03C3' := by decide +kernel
        rw [List.mem_singleton, smallSigma] at h
        rw [h]
        split
        · exact small.1
        · exact small.2
      case isFalse => exact isLow_of_mem_lowerChar h
    · exact ih h

theorem lowerAfter_eq_self {cs : List Char} (low : ∀ c ∈ cs, IsLow c) (before : List Char) :
    lowerAfter before cs = cs := by
  induction cs generalizing before with
  | nil => rfl
  | cons c rest ih =>
    obtain ⟨hc, other⟩ := low c List.mem_cons_self
    rw [lowerAfter, if_neg other, hc, ih fun d hd => low d (List.mem_cons_of_mem _ hd)]
    rfl

theorem isLow_of_mem_lower {text : String} {c : Char} (h : c ∈ (lower text).toList) : IsLow c := by
  rw [lower, String.toList_ofList] at h
  exact isLow_of_mem_lowerAfter h

theorem lower_eq_self {text : String} (low : ∀ c ∈ text.toList, IsLow c) : lower text = text := by
  rw [lower, lowerAfter_eq_self low, String.ofList_toList]

/-- **Lower-casing a second time changes nothing.** A final sigma that the first time made is small,
and small letters are not looked at in their context. -/
theorem lower_lower (text : String) : lower (lower text) = lower text :=
  lower_eq_self fun _ hc => isLow_of_mem_lower hc

example : lower "İΣ" = "i\u0307ς" ∧ lower "i\u0307ς" = "i\u0307ς" := by decide +kernel

end DocTree.Text
