import ScriptBridge.Double.Decimal

/-!
Instants in milliseconds since 1970-01-01 UTC, their calendar date and their texts.
-/

namespace ScriptBridge.Calendar

/-- A date of the proleptic Gregorian calendar with the time of day. -/
structure Civil where
  year : Int
  month : Nat
  day : Nat
  hour : Nat
  minute : Nat
  second : Nat
  milli : Nat
  /-- Counted from Sunday. -/
  weekday : Nat
deriving DecidableEq, Repr

def millisPerDay : Int := 86400000

/-- Year, month and day of a day counted from 1970-01-01. Years are counted from March, in eras of
400 years. -/
def civilOfDay (days : Int) : Int × Nat × Nat :=
  let shifted := days + 719468
  let era := shifted / 146097
  let dayOfEra := (shifted % 146097).toNat
  let yearOfEra := (dayOfEra - dayOfEra / 1460 + dayOfEra / 36524 - dayOfEra / 146096) / 365
  let dayOfYear := dayOfEra - (365 * yearOfEra + yearOfEra / 4 - yearOfEra / 100)
  let shiftedMonth := (5 * dayOfYear + 2) / 153
  let day := dayOfYear - (153 * shiftedMonth + 2) / 5 + 1
  let month := if shiftedMonth < 10 then shiftedMonth + 3 else shiftedMonth - 9
  (yearOfEra + era * 400 + (if month ≤ 2 then 1 else 0), month, day)

def civil (millis : Int) : Civil :=
  let days := millis / millisPerDay
  let rest := (millis % millisPerDay).toNat
  let (year, month, day) := civilOfDay days
  { year, month, day
    hour := rest / 3600000, minute := rest / 60000 % 60, second := rest / 1000 % 60
    milli := rest % 1000, weekday := ((days + 4) % 7).toNat }

/-- The years a host date may lie in. -/
def firstYear : Int := -262143

def lastYear : Int := 262142

def isHostDate (millis : Int) : Bool :=
  let year := (civil millis).year
  firstYear ≤ year && year ≤ lastYear

/-! ### Texts -/

/-- Digits filled up with zeros on the left. -/
def padded (width n : Nat) : List Char :=
  let ds := decimalDigits n
  List.replicate (width - ds.length) '0' ++ ds

/-- A year: four digits, and a sign outside 0 to 9999. -/
def yearText (year : Int) : List Char :=
  if 0 ≤ year ∧ year ≤ 9999 then padded 4 year.toNat
  else (if year < 0 then '-' else '+') :: padded 4 year.natAbs

def weekdayName (n : Nat) : List Char :=
  (["Sun", "Mon", "Tue", "Wed", "Thu", "Fri", "Sat"].getD n "").toList

def monthName (n : Nat) : List Char :=
  (["Jan", "Feb", "Mar", "Apr", "May", "Jun", "Jul", "Aug", "Sep", "Oct", "Nov", "Dec"].getD
    (n - 1) "").toList

def clockText (c : Civil) : List Char :=
  padded 2 c.hour ++ ':' :: padded 2 c.minute ++ ':' :: padded 2 c.second

def dayText (c : Civil) (year : List Char) : List Char :=
  weekdayName c.weekday ++ ' ' :: monthName c.month ++ ' ' :: padded 2 c.day ++ ' ' :: year ++
    ' ' :: clockText c ++ " GMT+0000".toList

/-- `Thu Jan 01 1970 00:00:00 GMT+0000 (Coordinated Universal Time)`. -/
def longText (millis : Int) : List Char :=
  let c := civil millis
  dayText c (yearText c.year) ++ " (Coordinated Universal Time)".toList

def dashedDate (year : List Char) (c : Civil) : List Char :=
  year ++ '-' :: padded 2 c.month ++ '-' :: padded 2 c.day ++ 'T' :: clockText c

/-- `1970-01-01T00:00:00.000Z`. -/
def stampText (millis : Int) : List Char :=
  let c := civil millis
  dashedDate (yearText c.year) c ++ '.' :: padded 3 c.milli ++ ['Z']

/-- `1970-01-01T00:00:00+00:00`, with milliseconds where there are any. -/
def offsetText (millis : Int) : List Char :=
  let c := civil millis
  dashedDate (yearText c.year) c ++ (if c.milli = 0 then [] else '.' :: padded 3 c.milli) ++
    "+00:00".toList

/-! ### Script dates -/

/-- The farthest instant a script date may hold. -/
def scriptLimit : Int := 8640000000000000

/-- A script writes years before 0 with a minus sign before four digits. -/
def scriptText (millis : Int) : List Char :=
  let c := civil millis
  let year := if c.year < 0 then '-' :: padded 4 c.year.natAbs else padded 4 c.year.toNat
  dayText c year

/-- A script stamp writes years outside 0 to 9999 with a sign and six digits. -/
def scriptStamp (millis : Int) : List Char :=
  let c := civil millis
  let year :=
    if 0 ≤ c.year ∧ c.year ≤ 9999 then padded 4 c.year.toNat
    else (if c.year < 0 then '-' else '+') :: padded 6 c.year.natAbs
  dashedDate year c ++ '.' :: padded 3 c.milli ++ ['Z']

end ScriptBridge.Calendar
