/-!
# Binary floating-point numbers, exactly

The finite non-negative numbers of the 64-bit binary format, as a mantissa and a power of two.
Nothing is computed in floating point: an operation is carried out on exact fractions of natural
numbers and its result rounded once, to the nearest number of the format, a tie going to the even
mantissa. A result beyond the largest number is no number of the format, hence the `Option`. Powers
are written as `Nat.pow`, which stays the same whatever else is imported.

Floating point itself would do for running the program, but not for reasoning about it: the logic
has no equations for its operations, so nothing could be proved of a literal that was read. As
natural numbers the literals are compared, printed and read back like everything else.
-/

set_option autoImplicit false

namespace DocTree.Json

/-- The number `mantissa * 2 ^ exponent`. Numbers of the format have a mantissa below `2 ^ 53` and
an exponent from `-1074` to `971`; a mantissa below `2 ^ 52` goes with the least exponent only. -/
structure Binary64 where
  mantissa : Nat
  exponent : Int
deriving DecidableEq, Repr

namespace Binary64

/-! ## The bounds of the format -/

def leastExponent : Int := -1074

def greatestExponent : Int := 971

def fullMantissa : Nat := Nat.pow 2 52

def zero : Binary64 := ⟨0, leastExponent⟩

def isZero (x : Binary64) : Bool := x.mantissa == 0

/-! ## Fractions

A rounding needs the quotient and the remainder of a division only. The exponent is found first,
from the lengths of the numerator and the denominator; the guess can be off by one, and the number
of units at that exponent shows it. -/

def numerator (x : Binary64) : Nat := x.mantissa * Nat.pow 2 x.exponent.toNat

def denominator (x : Binary64) : Nat := Nat.pow 2 (-x.exponent).toNat

/-- The natural number nearest to a fraction, of two the even one. -/
def nearestNat (num den : Nat) : Nat :=
  let whole := num / den
  let twice := 2 * (num % den)
  if twice < den then whole
  else if den < twice then whole + 1
  else whole + whole % 2

/-- An exponent at which the fraction, counted in units of `2 ^ exponent`, has 53 bits or, at the
bottom of the format, fewer. -/
def exponentFor (num den : Nat) : Int :=
  let guess : Int := (num.log2 : Int) - den.log2 - 53
  let units := num * Nat.pow 2 (-guess).toNat / (den * Nat.pow 2 guess.toNat)
  max leastExponent (if units < 2 * fullMantissa then guess else guess + 1)

/-- The number of the format nearest to a fraction; nothing when that is beyond the largest. A
fraction may well be nearest to zero, which is no fault. -/
def ofFraction (num den : Nat) : Option Binary64 :=
  if num = 0 then some zero
  else
    let exponent := exponentFor num den
    let units :=
      nearestNat (num * Nat.pow 2 (-exponent).toNat) (den * Nat.pow 2 exponent.toNat)
    let number : Binary64 :=
      if units = 2 * fullMantissa then ⟨fullMantissa, exponent + 1⟩ else ⟨units, exponent⟩
    if number.exponent ≤ greatestExponent then some number else none

/-! ## Arithmetic -/

def ofNat (n : Nat) : Option Binary64 := ofFraction n 1

def mul (x y : Binary64) : Option Binary64 :=
  ofFraction (x.numerator * y.numerator) (x.denominator * y.denominator)

def div (x y : Binary64) : Option Binary64 :=
  ofFraction (x.numerator * y.denominator) (x.denominator * y.numerator)

/-- The number nearest to a power of ten. -/
def powerOfTen (n : Nat) : Option Binary64 := ofNat (Nat.pow 10 n)

end Binary64

end DocTree.Json
