import ScriptBridge.Double.Basic

/-!
Decimal digits of doubles: the fewest digits that read back, a fixed number of places, and the
double nearest to a decimal.
-/

namespace ScriptBridge

/-- The number `significand * 10 ^ exponent`. -/
structure Decimal where
  significand : Nat
  exponent : Int
deriving DecidableEq, Repr

def decimalDigits (n : Nat) : List Char := Nat.toDigits 10 n

namespace Decimal

/-- Beyond these powers of ten every decimal overflows or vanishes. -/
def largestPower : Int := 400

def toDouble (negative : Bool) (d : Decimal) : Double :=
  let top : Int := d.exponent + (decimalDigits d.significand).length
  if d.significand = 0 ∨ top < -largestPower then Double.zero negative
  else if largestPower < top then .infinity negative
  else if 0 ≤ d.exponent then
    Double.nearest negative (d.significand * 10 ^ d.exponent.toNat * Double.one) 1
  else Double.nearest negative (d.significand * Double.one) (10 ^ (-d.exponent).toNat)

/-- Moves trailing zeros of the significand into the exponent. -/
def normalize (d : Decimal) : Decimal :=
  if h : d.significand ≠ 0 ∧ d.significand % 10 = 0 then
    normalize ⟨d.significand / 10, d.exponent + 1⟩
  else d
termination_by d.significand
decreasing_by omega

end Decimal

namespace Double

/-- The exponent `n` with `10 ^ (n - 1) ≤ units / 2^1074 < 10 ^ n`, for a positive count. -/
def decimalPoint (units : Nat) : Int :=
  let whole := units / one
  if whole ≠ 0 then (decimalDigits whole).length
  else
    -- a positive double is at least 10^-324, so the scaled number is never zero
    ((decimalDigits (units * 10 ^ 330 / one)).length : Int) - 330

/-- The numbers that round to a positive finite double, in quarter steps: the two ends, and whether
they belong to the range. -/
structure Reach where
  low : Nat
  high : Nat
  closed : Bool

def reach (units : Nat) : Reach :=
  let shift := units.log2 - 52
  let spacing := 2 ^ shift
  let lower := if shift ≠ 0 ∧ units = 2 ^ (shift + 52) then spacing else 2 * spacing
  ⟨4 * units - lower, 4 * units + 2 * spacing, units / spacing % 2 = 0⟩

/-- Whether `num / den` quarter steps lies in the range. -/
def Reach.contains (r : Reach) (num den : Nat) : Bool :=
  if r.closed then r.low * den ≤ num && num ≤ r.high * den
  else r.low * den < num && num < r.high * den

/-- Of the two decimals with last place `10 ^ exponent` around the number, the one in reach that is
nearer, an exact tie going up. -/
def nearestInReach? (units : Nat) (exponent : Int) : Option Decimal :=
  let up := 10 ^ exponent.toNat
  let down := 10 ^ (-exponent).toNat
  -- the number is `num / den` last places
  let num := units * down
  let den := one * up
  let below := num / den
  let rest := num % den
  let r := reach units
  let inReach (s : Nat) : Bool := r.contains (4 * s * one * up) down
  match inReach below && below ≠ 0, inReach (below + 1) with
  | true, true => some ⟨if 2 * rest < den then below else below + 1, exponent⟩
  | true, false => some ⟨below, exponent⟩
  | false, true => some ⟨below + 1, exponent⟩
  | false, false => none

/-- Tries one digit more at a time. -/
def shortestFrom (units : Nat) (point : Int) : Nat → Nat → Decimal
  | 0, _ => ⟨0, 0⟩
  | tries + 1, count =>
    match nearestInReach? units (point - count) with
    | some d => d.normalize
    | none => shortestFrom units point tries (count + 1)

/-- The shortest decimal that reads back as a positive finite double; of several the nearest.
Seventeen digits always suffice. -/
def shortest (units : Nat) : Decimal := shortestFrom units (decimalPoint units) 18 1

/-- A count of steps rounded to `places` decimal places, exact halves to the even neighbour: the
digits before and after the point. -/
def fixed (places units : Nat) : List Char × List Char :=
  let scaled := roundHalfEven (units * 10 ^ places) one
  let text := decimalDigits scaled
  let text := List.replicate (places + 1 - text.length) '0' ++ text
  text.splitAt (text.length - places)

end Double

end ScriptBridge
