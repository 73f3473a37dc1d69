/-!
Double-precision numbers, counted exactly.

Every finite double is a whole number of steps of 2^-1074, so a finite number is its sign and the
count of those steps. Comparison and truncation are then questions about natural numbers, and
arithmetic is exact arithmetic followed by one rounding (`Double.nearest`).
-/

namespace ScriptBridge

/-- Powers of natural numbers and integers are those of the core library, whatever else there is. -/
@[default_instance 20000]
instance (priority := 2000) corePower {α : Type} [NatPow α] : Pow α Nat := instPowNat

/-- Whether a count of steps is a finite double: at most 53 significant bits, below 2^1024. -/
def Representable (units : Nat) : Prop :=
  units < 2 ^ 2098 ∧ units % 2 ^ (units.log2 - 52) = 0

instance (units : Nat) : Decidable (Representable units) :=
  inferInstanceAs (Decidable (_ ∧ _))

/-- A double, with one value for all its not-a-number patterns. -/
inductive Double where
  | nan
  | infinity (negative : Bool)
  | finite (negative : Bool) (units : Nat) (fits : Representable units)
deriving DecidableEq

/-- The quotient rounded to a whole number, an exact half going to the even neighbour. -/
def roundHalfEven (num den : Nat) : Nat :=
  let whole := num / den
  let rest := num % den
  if 2 * rest < den then whole
  else if den < 2 * rest then whole + 1
  else if whole % 2 = 0 then whole else whole + 1

namespace Double

/-- The number of steps that make one. -/
def one : Nat := 2 ^ 1074

theorem representable_zero : Representable 0 := by
  refine ⟨?_, Nat.zero_mod _⟩
  apply Nat.two_pow_pos

def zero (negative : Bool) : Double := .finite negative 0 representable_zero

instance : Inhabited Double := ⟨zero false⟩

/-- The finite double of that many steps, or infinity where there is none. -/
def ofUnits (negative : Bool) (units : Nat) : Double :=
  if fits : Representable units then .finite negative units fits else .infinity negative

/-- The double nearest to `num / den` steps. -/
def nearest (negative : Bool) (num den : Nat) : Double :=
  let spacing := 2 ^ ((num / den).log2 - 52)
  ofUnits negative (roundHalfEven num (den * spacing) * spacing)

def ofNat (n : Nat) : Double := nearest false (n * one) 1

def ofInt (n : Int) : Double := nearest (n < 0) (n.natAbs * one) 1

/-! ### The interchange format -/

/-- Reads sign, biased exponent and fraction from a 64-bit pattern. -/
def ofBits (bits : Nat) : Double :=
  let negative := bits / 2 ^ 63 % 2 = 1
  let exponent := bits / 2 ^ 52 % 2048
  let fraction := bits % 2 ^ 52
  if exponent = 2047 then if fraction = 0 then .infinity negative else .nan
  else if exponent = 0 then ofUnits negative fraction
  else ofUnits negative ((2 ^ 52 + fraction) * 2 ^ (exponent - 1))

def signBit (negative : Bool) : Nat := if negative then 2 ^ 63 else 0

def toBits : Double → Nat
  | .nan => 2047 * 2 ^ 52 + 2 ^ 51
  | .infinity negative => signBit negative + 2047 * 2 ^ 52
  | .finite negative units _ =>
    if units < 2 ^ 52 then signBit negative + units
    else
      let shift := units.log2 - 52
      signBit negative + (shift + 1) * 2 ^ 52 + (units / 2 ^ shift - 2 ^ 52)

/-! ### Tests and comparison -/

def isNaN : Double → Bool
  | .nan => true
  | _ => false

def isFinite : Double → Bool
  | .finite .. => true
  | _ => false

def isZero : Double → Bool
  | .finite _ 0 _ => true
  | _ => false

def isNegative : Double → Bool
  | .nan => false
  | .infinity negative | .finite negative .. => negative

def isNegativeZero : Double → Bool
  | .finite true 0 _ => true
  | _ => false

def isIntegral : Double → Bool
  | .finite _ units _ => units % one = 0
  | _ => false

def signed (negative : Bool) (units : Nat) : Int := if negative then -units else units

def lt : Double → Double → Bool
  | .nan, _ | _, .nan => false
  | .infinity a, .infinity b => a && !b
  | .infinity a, .finite .. => a
  | .finite .., .infinity b => !b
  | .finite a u _, .finite b v _ => signed a u < signed b v

/-- Numeric equality: the zeros are equal and not-a-number equals nothing. -/
def eq : Double → Double → Bool
  | .nan, _ | _, .nan => false
  | .infinity a, .infinity b => a == b
  | .finite a u _, .finite b v _ => signed a u == signed b v
  | _, _ => false

def le (x y : Double) : Bool := lt x y || eq x y

/-- Numeric equality under which not-a-number equals itself. -/
def sameValueZero (x y : Double) : Bool := (x.isNaN && y.isNaN) || eq x y

/-! ### Arithmetic -/

def neg : Double → Double
  | .nan => .nan
  | .infinity negative => .infinity !negative
  | .finite negative units fits => .finite (!negative) units fits

def abs : Double → Double
  | .nan => .nan
  | .infinity _ => .infinity false
  | .finite _ units fits => .finite false units fits

def add : Double → Double → Double
  | .nan, _ | _, .nan => .nan
  | .infinity a, .infinity b => if a = b then .infinity a else .nan
  | .infinity a, .finite .. => .infinity a
  | .finite .., .infinity b => .infinity b
  | .finite a u _, .finite b v _ =>
    let sum := signed a u + signed b v
    if sum = 0 then zero (a && b) else nearest (sum < 0) sum.natAbs 1

def sub (x y : Double) : Double := add x y.neg

def mul : Double → Double → Double
  | .nan, _ | _, .nan => .nan
  | .infinity a, .infinity b => .infinity (a != b)
  | .infinity a, .finite b v _ => if v = 0 then .nan else .infinity (a != b)
  | .finite a u _, .infinity b => if u = 0 then .nan else .infinity (a != b)
  | .finite a u _, .finite b v _ => nearest (a != b) (u * v) one

def div : Double → Double → Double
  | .nan, _ | _, .nan => .nan
  | .infinity _, .infinity _ => .nan
  | .infinity a, .finite b .. => .infinity (a != b)
  | .finite a .., .infinity b => zero (a != b)
  | .finite a u _, .finite b v _ =>
    if v = 0 then if u = 0 then .nan else .infinity (a != b)
    else nearest (a != b) (u * one) v

/-- The remainder that keeps the sign of the dividend. -/
def rem : Double → Double → Double
  | .nan, _ | _, .nan => .nan
  | .infinity _, _ => .nan
  | x, .infinity _ => x
  | .finite a u _, .finite _ v _ => if v = 0 then .nan else ofUnits a (u % v)

/-- Drops the fraction, keeping the sign also of a zero. -/
def trunc : Double → Double
  | .nan => .nan
  | .infinity negative => .infinity negative
  | .finite negative units _ => ofUnits negative (units / one * one)

/-- The whole part of the magnitude of a finite number. -/
def magnitude : Double → Nat
  | .finite _ units _ => units / one
  | _ => 0

/-- The whole part of a finite number. -/
def toInt : Double → Int
  | .finite negative units _ => signed negative (units / one)
  | _ => 0

/-- The whole part clamped to the unsigned words of `bits` bits; not-a-number gives zero. -/
def toWord (bits : Nat) : Double → Nat
  | .nan => 0
  | .infinity negative => if negative then 0 else 2 ^ bits - 1
  | .finite negative units _ => if negative then 0 else min (units / one) (2 ^ bits - 1)

def min (x y : Double) : Double := if lt x y then x else y

def max (x y : Double) : Double := if lt x y then y else x

end Double

end ScriptBridge
