import DocTree.Json.Literal
import Mathlib.Logic.Function.Basic

/-!
# Numerals read back

A numeral is what the library writes for the number, so what is known of digits there holds here:
only digits stand in it, and their value is the number. It has no zero in front, which is what lets
the reader of literals take it, and that reader gathers its digits as long as the number fits.

The direction from a literal to a number is not inverted here, and cannot be: `1e2` and `100` are
different kinds of number, and a literal with many digits loses some. It is only numerals, as they
are written, that are read back, and the only condition is on what follows: nothing that would go on
with the literal (`EndsNumber`). Of the writer this asks that a number is followed by a comma, a
bracket or a line end, and it is.
-/

set_option autoImplicit false

namespace DocTree

namespace Text

/-! ## Digits

The two recursions are compared once. From there on `Nat.toDigits` and `Nat.ofDigitChars` are the
library's, with its lemmas. -/

theorem numeralIn_eq_toDigits {base : Nat} (two_le : 2 ≤ base) (n : Nat) :
    numeralIn base two_le n = Nat.toDigits base n := by
  induction n using Nat.strongRecOn with
  | ind n ih =>
    rw [numeralIn, Nat.toDigits_eq_if (by omega)]
    split
    · rfl
    · rw [ih _ (Nat.div_lt_self (by omega) (by omega))]

theorem decimal_eq_toDigits (n : Nat) : decimal n = Nat.toDigits 10 n := numeralIn_eq_toDigits _ n

theorem isDigit_of_mem_decimal {n : Nat} {c : Char} (h : c ∈ decimal n) : c.isDigit = true := by
  rw [decimal_eq_toDigits] at h
  exact Nat.isDigit_of_mem_toDigits (by decide) (by decide) h

theorem ne_of_isDigit {c d : Char} (hc : c.isDigit = true) (hd : d.isDigit = false) : c ≠ d := by
  rintro rfl
  rw [hc] at hd
  cases hd

theorem ofDigitChars_decimal (n : Nat) : Nat.ofDigitChars 10 (decimal n) 0 = n := by
  rw [decimal_eq_toDigits]
  exact Nat.ofDigitChars_toDigits (by decide) (by decide)

theorem decimal_injective : Function.Injective decimal := by
  intro n m h
  rw [← ofDigitChars_decimal n, h, ofDigitChars_decimal]

/-- A numeral has a first digit, and that is zero for the number zero only. The reader refuses
digits behind a leading zero, so this is what it needs to know. -/
theorem exists_decimal_eq_cons (n : Nat) :
    ∃ c digits, decimal n = c :: digits ∧ (c = '0' → n = 0 ∧ digits = []) := by
  induction n using Nat.strongRecOn with
  | ind n ih =>
    rw [decimal, numeralIn]
    by_cases small : n < 10
    · rw [if_pos small]
      have zero : ∀ d < 10, Nat.digitChar d = '0' → d = 0 := by decide
      exact ⟨_, _, rfl, fun h => ⟨zero n small h, rfl⟩⟩
    · rw [if_neg small]
      obtain ⟨c, digits, hd, hzero⟩ := ih (n / 10) (Nat.div_lt_self (by omega) (by omega))
      rw [decimal] at hd
      refine ⟨c, digits ++ [Nat.digitChar (n % 10)], by rw [hd]; rfl, fun h => ?_⟩
      obtain ⟨hnone, -⟩ := hzero h
      omega

end Text

namespace Json

open DocTree.Text

/-! ## Reading them

The reader of literals passes through the whole part, a fraction and an exponent. For a numeral the
last two are empty, because the character behind it begins neither. -/

/-- The text does not begin with anything that would belong to a number in front of it: a digit, a
point or the mark of an exponent. -/
def EndsNumber (text : List Char) : Prop :=
  ∀ c ∈ text.head?, c.isDigit = false ∧ c ≠ '.' ∧ c ≠ 'e' ∧ c ≠ 'E'

theorem endsNumber_cons {c : Char} {text : List Char} (h : c.isDigit = false)
    (sign : c ≠ '.' ∧ c ≠ 'e' ∧ c ≠ 'E') : EndsNumber (c :: text) := by
  intro d hd
  cases hd
  exact ⟨h, sign⟩

theorem EndsNumber.takeWhile {text : List Char} (h : EndsNumber text) :
    text.takeWhile Char.isDigit = [] := by
  cases text with
  | nil => rfl
  | cons c rest => rw [List.takeWhile_cons_of_neg (by rw [(h c rfl).1]; decide)]

theorem EndsNumber.dropWhile {text : List Char} (h : EndsNumber text) :
    text.dropWhile Char.isDigit = text := by
  cases text with
  | nil => rfl
  | cons c rest => rw [List.dropWhile_cons_of_neg (by rw [(h c rfl).1]; decide)]

theorem le_ofDigitChars (digits : List Char) (start : Nat) :
    start ≤ Nat.ofDigitChars 10 digits start := by
  induction digits generalizing start with
  | nil => exact Nat.le_refl _
  | cons c rest ih =>
    have hrest := ih (10 * start + (c.toNat - '0'.toNat))
    exact Nat.le_trans (by omega) hrest

/-- **All digits are gathered** if what they make fits. Since the number grows with each digit, the
bound holds on the way too. -/
theorem gatherDigits_append {digits : List Char} (digit : ∀ c ∈ digits, c.isDigit = true)
    {rest : List Char} (ends : EndsNumber rest) {start : Nat}
    (fits : Nat.ofDigitChars 10 digits start ≤ Number.greatestInteger) :
    gatherDigits start (digits ++ rest)
      = (Nat.ofDigitChars 10 digits start, digits.length, rest) := by
  induction digits generalizing start with
  | nil =>
    cases rest with
    | nil => rfl
    | cons c rest =>
      rw [List.nil_append, gatherDigits, (ends c rfl).1]
      rfl
  | cons c digits ih =>
    have step : Nat.ofDigitChars 10 (c :: digits) start
        = Nat.ofDigitChars 10 digits (start * 10 + digitValue c) := by
      rw [Nat.mul_comm]
      rfl
    rw [step] at fits ⊢
    -- what is gathered only grows, so it fits now if it fits in the end
    have longer := Nat.le_trans (le_ofDigitChars digits (start * 10 + digitValue c)) fits
    rw [List.cons_append, gatherDigits, digit c List.mem_cons_self]
    simp only [Bool.true_and, decide_eq_true longer, if_true,
      ih (fun d hd => digit d (List.mem_cons_of_mem _ hd)) fits, List.length_cons]

theorem readAfterWhole_of_ends {rest : List Char} (ends : EndsNumber rest) (negative : Bool)
    (n : Nat) : readAfterWhole negative n 0 rest = .ok (wholeNumber negative n, rest) := by
  unfold readAfterWhole
  split
  · exact absurd rfl (ends '.' rfl).2.1
  · exact absurd rfl (ends 'e' rfl).2.2.1
  · exact absurd rfl (ends 'E' rfl).2.2.2
  · rfl

/-- **A numeral is read as its number**, whatever follows that does not belong to it. -/
theorem readNumber_decimal {n : Nat} (fits : n ≤ Number.greatestInteger) {rest : List Char}
    (ends : EndsNumber rest) (negative : Bool) :
    readNumber negative (decimal n ++ rest) = .ok (wholeNumber negative n, rest) := by
  have digit : ∀ c ∈ decimal n, c.isDigit = true := fun c hc => isDigit_of_mem_decimal hc
  have gathered : gatherDigits 0 (decimal n ++ rest) = _ :=
    gatherDigits_append digit ends (Nat.le_trans (Nat.le_of_eq (ofDigitChars_decimal n)) fits)
  rw [ofDigitChars_decimal] at gathered
  obtain ⟨c, digits, hd, hzero⟩ := exists_decimal_eq_cons n
  rw [hd, List.cons_append] at gathered ⊢
  by_cases h : c = '0'
  · obtain ⟨rfl, rfl⟩ := hzero h
    subst h
    rw [List.nil_append]
    cases rest with
    | nil => rfl
    | cons d rest =>
      rw [readNumber, (ends d rfl).1]
      exact readAfterWhole_of_ends ends negative 0
  · have hc := digit c (hd ▸ List.mem_cons_self)
    simp only [readNumber, hc, Bool.not_true, Bool.false_eq_true, if_false, gathered,
      ends.takeWhile, ends.dropWhile, List.length_nil]
    exact readAfterWhole_of_ends ends negative n

/-! ## Integers

A negative integer is written with its sign in front of a numeral. The least of them is one further
from zero than the greatest signed one, and the bounds of the reader have to allow for that. -/

/-- The integers that are kept as such: the signed and the unsigned ones of 64 bits. -/
def FitsInteger (n : Int) : Prop :=
  Number.leastInteger ≤ n ∧ n ≤ Number.greatestInteger

instance : DecidablePred FitsInteger := fun n =>
  inferInstanceAs (Decidable (Number.leastInteger ≤ n ∧ n ≤ Number.greatestInteger))

theorem wholeNumber_neg {n : Int} (fits : FitsInteger n) (negative : n < 0) :
    wholeNumber true n.natAbs = .integer n := by
  have bound := fits.1
  have large : ¬ (n.natAbs = 0 ∨ Nat.pow 2 63 < n.natAbs) := by
    rw [Number.leastInteger] at bound
    omega
  have back : -(n.natAbs : Int) = n := by omega
  rw [wholeNumber, if_neg (by decide), if_neg large, back]

theorem FitsInteger.natAbs_le {n : Int} (fits : FitsInteger n) :
    n.natAbs ≤ Number.greatestInteger := by
  obtain ⟨least, greatest⟩ := fits
  have order : Nat.pow 2 63 ≤ Number.greatestInteger := by decide
  rw [Number.leastInteger] at least
  omega

end Json

end DocTree
