import DocTree.Json.Fault

/-!
# Number literals

A literal is read in one pass, digit by digit. The digits are gathered in a 64-bit significand as
long as they fit; the digits that do not fit are passed over, and those before the point raise the
exponent instead. What results is rounded to a binary number in steps, each rounded on its own: the
significand, the power of ten, and their product or quotient. A power of ten below the smallest one
that the format holds is divided out in two steps.

So a literal with many digits may become a number that is not the nearest to it. That is part of
what is modelled here, and the reason why the number that a literal gives is not specified by the
literal alone: only integers are (`Number.Kept` in `Proofs.ReadRecords`), and only those are claimed
to be read back from what was written.
-/

set_option autoImplicit false

namespace DocTree.Json

/-! ## Magnitudes

Each of the steps may leave the format at the top. At the bottom nothing is refused: what is too
small to be told from zero is zero. -/

def greatestPower : Nat := 308

/-- The binary number for `significand * 10 ^ exponent`; nothing when it is too large. -/
def magnitude (significand : Nat) (exponent : Int) : Option Binary64 := do
  let start ← Binary64.ofNat significand
  if 0 ≤ exponent then
    if exponent ≤ greatestPower then start.mul (← Binary64.powerOfTen exponent.toNat)
    else if start.isZero then some .zero
    else none
  else
    let down := exponent.natAbs
    if down ≤ greatestPower then start.div (← Binary64.powerOfTen down)
    else if down ≤ 2 * greatestPower then
      let closer ← start.div (← Binary64.powerOfTen greatestPower)
      closer.div (← Binary64.powerOfTen (down - greatestPower))
    else some .zero

/-- The number of a literal without point and exponent whose digits all fit. -/
def wholeNumber (negative : Bool) (significand : Nat) : Number :=
  if !negative then .integer significand
  else if significand = 0 ∨ Nat.pow 2 63 < significand then
    .real true ((Binary64.ofNat significand).getD .zero)
  else .integer (-significand)

/-- The number of any other literal; a fault at what follows it when it is too large. -/
def scaledNumber (negative : Bool) (significand : Nat) (exponent : Int) (rest : List Char) :
    Except Fault (Number × List Char) :=
  match magnitude significand exponent with
  | some x => .ok (.real negative x, rest)
  | none => .error (.here .numberOutOfRange rest)

/-! ## Digits

Both loops stop before the number grows beyond a bound, for different reasons. A significand that is
full loses digits, and the number is still known to nineteen of them; an exponent that is too long
settles the matter by its sign. -/

def digitValue (c : Char) : Nat := c.toNat - '0'.toNat

/-- Gathers digits as long as the significand fits 64 bits, and counts them. -/
def gatherDigits : Nat → List Char → Nat × Nat × List Char
  | significand, [] => (significand, 0, [])
  | significand, c :: rest =>
    let longer := significand * 10 + digitValue c
    if c.isDigit && longer ≤ Number.greatestInteger then
      let (all, count, after) := gatherDigits longer rest
      (all, count + 1, after)
    else (significand, 0, c :: rest)

/-- The largest exponent that is read; a longer one is decided by its sign alone. -/
def greatestExponent : Nat := Nat.pow 2 31 - 1

/-- Reads the digits of an exponent; the value is missing when it grows too large, and then the
rest begins after the digit that made it so. -/
def exponentDigits : Nat → List Char → Option Nat × List Char
  | value, [] => (some value, [])
  | value, c :: rest =>
    if c.isDigit then
      let longer := value * 10 + digitValue c
      if longer ≤ greatestExponent then exponentDigits longer rest else (none, rest)
    else (some value, c :: rest)

/-! ## The parts of a literal -/

def readExponentDigits (negative : Bool) (significand : Nat) (start : Int) (down : Bool) :
    List Char → Except Fault (Number × List Char)
  | [] => .error (.atEnd .value)
  | c :: rest =>
    if !c.isDigit then .error (.next .invalidNumber (c :: rest))
    else match exponentDigits 0 (c :: rest) with
      | (some value, after) =>
        scaledNumber negative significand (if down then start - value else start + value) after
      | (none, after) =>
        if significand ≠ 0 ∧ !down then .error (.here .numberOutOfRange after)
        else .ok (.real negative .zero, after.dropWhile Char.isDigit)

def readExponent (negative : Bool) (significand : Nat) (start : Int) (text : List Char) :
    Except Fault (Number × List Char) :=
  match text with
  | '+' :: rest => readExponentDigits negative significand start false rest
  | '-' :: rest => readExponentDigits negative significand start true rest
  | _ => readExponentDigits negative significand start false text

def readScale (negative : Bool) (significand : Nat) (exponent : Int) (text : List Char) :
    Except Fault (Number × List Char) :=
  match text with
  | 'e' :: rest => readExponent negative significand exponent rest
  | 'E' :: rest => readExponent negative significand exponent rest
  | _ => scaledNumber negative significand exponent text

def readFraction (negative : Bool) (significand passed : Nat) (text : List Char) :
    Except Fault (Number × List Char) :=
  let (all, count, after) := gatherDigits significand text
  match text with
  | [] => .error (.atEnd .value)
  | c :: _ =>
    if !c.isDigit then .error (.next .invalidNumber text)
    else readScale negative all ((passed : Int) - count) (after.dropWhile Char.isDigit)

def readAfterWhole (negative : Bool) (significand passed : Nat) (text : List Char) :
    Except Fault (Number × List Char) :=
  match text with
  | '.' :: rest => readFraction negative significand passed rest
  | 'e' :: rest => readExponent negative significand passed rest
  | 'E' :: rest => readExponent negative significand passed rest
  | _ =>
    if passed = 0 then .ok (wholeNumber negative significand, text)
    else scaledNumber negative significand passed text

/-- Reads a literal after its sign. A zero in front of another digit is refused, and so is a literal
that has no digit. -/
def readNumber (negative : Bool) : List Char → Except Fault (Number × List Char)
  | [] => .error (.atEnd .value)
  | '0' :: rest =>
    match rest with
    | [] => readAfterWhole negative 0 0 rest
    | c :: _ =>
      if c.isDigit then .error (.next .invalidNumber rest) else readAfterWhole negative 0 0 rest
  | c :: rest =>
    if !c.isDigit then .error (.next .invalidNumber (c :: rest))
    else
      let (significand, _, after) := gatherDigits 0 (c :: rest)
      let passed := after.takeWhile Char.isDigit
      readAfterWhole negative significand passed.length (after.dropWhile Char.isDigit)

end DocTree.Json
