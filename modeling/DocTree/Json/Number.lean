import DocTree.Json.Shortest
import DocTree.Text.Numeral

/-!
# Numbers of a JSON text

A number is kept as an integer when its literal is one and fits 64 bits, signed or unsigned; every
other literal is the binary floating-point number nearest to what was read. Zero with a sign is of
the second kind, since an integer could not keep the sign.

Writing keeps the two apart: an integer has digits only, a floating-point number always a point or
an exponent. Numbers from `1e-5` up to below `1e16` are written in full and the others with an
exponent. A number that was read can therefore be told from its text again as far as its kind goes,
and an integer altogether.
-/

set_option autoImplicit false

namespace DocTree.Json

open DocTree.Text

/-! ## The two kinds of number -/

inductive Number where
  | integer (n : Int)
  | real (negative : Bool) (magnitude : Binary64)
deriving DecidableEq, Repr

/-- The largest integer that is kept as one. It is unsigned, while the least one is signed, so the
two are not opposite to each other. -/
def Number.greatestInteger : Nat := Nat.pow 2 64 - 1

def Number.leastInteger : Int := -(Nat.pow 2 63 : Nat)

/-! ## Written decimals

The place of the point decides among four forms: behind the digits, inside them, in front of them
with zeros between, and after the first digit with an exponent. -/

/-- How many places before the point a decimal may have and still be written in full. -/
def Decimal.mostPlaces : Int := 16

/-- How many zeros may follow the point at once before an exponent is used. -/
def Decimal.mostZeros : Int := 4

def Decimal.text (d : Decimal) : List Char :=
  let digits := decimal d.digits
  let point : Int := digits.length + d.exponent
  if 0 ≤ d.exponent ∧ point ≤ mostPlaces then
    digits ++ List.replicate d.exponent.toNat '0' ++ ['.', '0']
  else if 0 < point ∧ point ≤ mostPlaces then
    digits.take point.toNat ++ '.' :: digits.drop point.toNat
  else if -mostZeros ≤ point ∧ point ≤ 0 then
    '0' :: '.' :: List.replicate (-point).toNat '0' ++ digits
  else
    let fraction := if digits.length ≤ 1 then [] else '.' :: digits.drop 1
    let sign := if 0 < point then '+' else '-'
    digits.take 1 ++ fraction ++ 'e' :: sign :: decimal (point - 1).natAbs

def signOf (negative : Bool) : List Char := if negative then ['-'] else []

def Number.text : Number → List Char
  | .integer n => signOf (n < 0) ++ decimal n.natAbs
  | .real negative magnitude => signOf negative ++ magnitude.shortest.text

end DocTree.Json
