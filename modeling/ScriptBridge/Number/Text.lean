import ScriptBridge.Double.Decimal

/-!
How a number is written: the text the host gives, and the one a script gives.

Both use positional notation from 1e-6 up to 1e21 and an exponent outside. They differ only in
large whole numbers: the host writes every digit of the number, a script the fewest digits that
read back, filled up with zeros.
-/

namespace ScriptBridge.Number

def exponentText (e : Int) : List Char :=
  'e' :: (if e < 0 then '-' else '+') :: decimalDigits e.natAbs

/-- Digits placed so that the decimal point stands after the first `point` of them. -/
def layout (ds : List Char) (point : Int) : List Char :=
  if ds.length ≤ point ∧ point ≤ 21 then ds ++ List.replicate (point - ds.length).toNat '0'
  else if 0 < point ∧ point ≤ 21 then ds.take point.toNat ++ '.' :: ds.drop point.toNat
  else if -6 < point ∧ point ≤ 0 then '0' :: '.' :: List.replicate (-point).toNat '0' ++ ds
  else
    match ds with
    | [d] => d :: exponentText (point - 1)
    | d :: rest => d :: '.' :: rest ++ exponentText (point - 1)
    | [] => exponentText (point - 1)

/-- The fewest digits of a positive count of steps, laid out. -/
def shortestText (units : Nat) : List Char :=
  let d := Double.shortest units
  let ds := decimalDigits d.significand
  layout ds (d.exponent + ds.length)

def signed (negative : Bool) (text : List Char) : List Char :=
  if negative then '-' :: text else text

def scriptText : Double → List Char
  | .nan => "NaN".toList
  | .infinity negative => signed negative "Infinity".toList
  | .finite negative units _ => if units = 0 then ['0'] else signed negative (shortestText units)

/-- Whole numbers from here on are written with an exponent. -/
def wholeLimit : Nat := 10 ^ 21

/-- The text of a number on the host: whole numbers below 1e21 with all their digits. -/
def hostText : Double → List Char
  | .nan => "NaN".toList
  | .infinity negative => signed negative "Infinity".toList
  | .finite negative units _ =>
    if units = 0 then ['0']
    else if units % Double.one = 0 ∧ units / Double.one < wholeLimit then
      signed negative (decimalDigits (units / Double.one))
    else signed negative (shortestText units)

/-- All digits of the whole part, without an exponent at any size. -/
def wholeText (d : Double) : List Char :=
  signed d.isNegative (decimalDigits d.magnitude)

end ScriptBridge.Number
