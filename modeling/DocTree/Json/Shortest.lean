import DocTree.Json.Binary64

/-!
# The shortest decimal of a binary number

Around a number of the binary format lies the interval of reals that round to it. Its shortest
decimal is the one on the coarsest power-of-ten grid that has a point in this interval; if a grid
has such a point, one of the number's two neighbours on the grid is one, so only these two are
tested. When both lie in the interval, the nearer is taken, and the even one of two as near.

All comparisons are between natural numbers: the bounds of the interval are counted in quarters of
the number's last place, and both these and the points of the grid are brought to one unit. The
common algorithms reach the same decimal faster, by tables and by bounds on errors. This one follows
the definition, and a grid is looked at for at most two dozen exponents.
-/

set_option autoImplicit false

namespace DocTree.Json

structure Decimal where
  digits : Nat
  exponent : Int
deriving DecidableEq, Repr

namespace Binary64

/-! ## The interval that rounds to a number -/

/-- How far the interval reaches down, in quarters of the last place. Below a power of two the
neighbour is only half as far. -/
def quartersBelow (x : Binary64) : Nat :=
  if x.mantissa = fullMantissa ∧ leastExponent < x.exponent then 1 else 2

/-- Whether the bounds themselves round to the number, as ties go to the even mantissa. -/
def closedInterval (x : Binary64) : Bool := x.mantissa % 2 == 0

def quarterSize (x : Binary64) (e : Int) : Nat :=
  Nat.pow 2 (x.exponent - 2).toNat * Nat.pow 10 (-e).toNat

def gridSize (x : Binary64) (e : Int) : Nat :=
  Nat.pow 2 (2 - x.exponent).toNat * Nat.pow 10 e.toNat

def covers (x : Binary64) (d : Decimal) : Bool :=
  let point := d.digits * x.gridSize d.exponent
  let low := (4 * x.mantissa - x.quartersBelow) * x.quarterSize d.exponent
  let high := (4 * x.mantissa + 2) * x.quarterSize d.exponent
  if x.closedInterval then low ≤ point && point ≤ high else low < point && point < high

/-! ## The two neighbours on a grid -/

/-- The better of the number's two neighbours on the grid of `10 ^ e`, if one of them rounds to
the number. -/
def onGrid (x : Binary64) (e : Int) : Option Decimal :=
  let value := 4 * x.mantissa * x.quarterSize e
  let step := x.gridSize e
  let below := value / step
  let twice := 2 * (value % step)
  let lower : Decimal := ⟨below, e⟩
  let upper : Decimal := ⟨below + 1, e⟩
  match x.covers lower, x.covers upper with
  | false, false => none
  | true, false => some lower
  | false, true => some upper
  | true, true =>
    if twice < step then some lower
    else if step < twice then some upper
    else if below % 2 = 0 then some lower else some upper

/-- An exponent of ten beyond the number: as many binary places as the number has, in decimal
places, and one more. -/
def exponentBeyond (x : Binary64) : Int := (x.mantissa.log2 + x.exponent + 2) * 30103 / 100000 + 1

/-- The exponents of the grids to look at, from the coarsest. The first lies beyond the number, and
seventeen digits always suffice. -/
def gridExponents (x : Binary64) : List Int :=
  (List.range 24).map fun (n : Nat) => x.exponentBeyond - n

def shortest (x : Binary64) : Decimal :=
  if x.isZero then ⟨0, 0⟩
  else (x.gridExponents.findSome? x.onGrid).getD ⟨0, 0⟩

end Binary64

end DocTree.Json
