import ScriptBridge.Double.Decimal
import ScriptBridge.Locale.Symbols

/-!
Numbers written for a locale: resolving options, grouping digits, and the decimal, percent and
currency styles.
-/

namespace ScriptBridge

/-! ### Grouping -/

/-- The width of the next group to the left, after the last one. -/
def Grouping.nextWidth : Grouping → Nat
  | .threes => 3
  | .threeThenTwos => 2

/-- Splits digits into groups, given the width of the last group; the first may be shorter. -/
def groupDigits (grouping : Grouping) (width : Nat) (ds : List Char) : List (List Char) :=
  if _ : 0 < width ∧ width < ds.length then
    groupDigits grouping grouping.nextWidth (ds.take (ds.length - width)) ++
      [ds.drop (ds.length - width)]
  else [ds]
termination_by ds.length
decreasing_by
  simp only [List.length_take]
  omega

/-- The digits of a whole part with the separators of a locale. -/
def LocaleSymbols.grouped (symbols : LocaleSymbols) (ds : List Char) : List Char :=
  if ds.length < symbols.minGroupedDigits then ds
  else List.intercalate symbols.group (groupDigits symbols.grouping 3 ds)

/-! ### Options -/

structure NumberFormatOptions where
  style : Option String := none
  currency : Option String := none
  currencyDisplay : Option String := none
  minimumFractionDigits : Option Double := none
  maximumFractionDigits : Option Double := none
  useGrouping : Option Bool := none

inductive NumberStyle where
  | decimal
  | percent
  | currency (symbol : String)
deriving DecidableEq, Repr

structure NumberFormat where
  locale : LanguageTag
  symbols : LocaleSymbols
  style : NumberStyle
  minimumDigits : Nat
  maximumDigits : Nat
  useGrouping : Bool

namespace NumberFormat

def currencyCode (code : String) : Except LocaleError String :=
  let cs := code.toList
  if cs.length = 3 ∧ cs.all LanguageTag.isLetter then
    .ok (String.ofList (cs.map LanguageTag.upper))
  else .error (.invalidCurrency code)

def displayedSymbol (code : String) (tag : LanguageTag) (display : Option String) :
    Except LocaleError String :=
  match display.getD "symbol" with
  | "symbol" => .ok (Currency.symbol code tag)
  | "narrowSymbol" => .ok (Currency.narrow (Currency.symbol code tag))
  | "code" => .ok code
  | other => .error (.invalidOption "currencyDisplay" other)

/-- A number of fraction digits: a finite number whose whole part lies between 0 and 100. -/
def digitsOption (option : String) : Option Double → Except LocaleError (Option Nat)
  | none => .ok none
  | some v =>
    if v.isFinite ∧ 0 ≤ v.toInt ∧ v.toInt ≤ 100 then .ok (some v.toInt.toNat)
    else .error (.digitsOutOfRange option)

/-- The least and greatest number of fraction digits, from those given and the defaults. -/
def fractionRange (least greatest : Option Nat) (defaultLeast defaultGreatest : Nat) :
    Except LocaleError (Nat × Nat) :=
  match least, greatest with
  | none, none => .ok (defaultLeast, defaultGreatest)
  | some lo, none => .ok (lo, max defaultGreatest lo)
  | none, some hi => .ok (min defaultLeast hi, hi)
  | some lo, some hi =>
    if hi < lo then .error (.digitsOutOfRange "maximumFractionDigits") else .ok (lo, hi)

/-- The style with its default numbers of fraction digits. -/
def resolveStyle (tag : LanguageTag) (currency : Option String) (o : NumberFormatOptions) :
    Except LocaleError (NumberStyle × Nat × Nat) :=
  match o.style.getD "decimal" with
  | "decimal" => .ok (.decimal, 0, 3)
  | "percent" => .ok (.percent, 0, 0)
  | "currency" =>
    match currency with
    | none => .error .missingCurrency
    | some code =>
      (displayedSymbol code tag o.currencyDisplay).map fun symbol =>
        (.currency symbol, Currency.fractionDigits code, Currency.fractionDigits code)
  | other => .error (.invalidOption "style" other)

/-- Resolves a locale and options. A currency code is checked also where the style has no use for
it. -/
def resolve (locale : String) (o : NumberFormatOptions) : Except LocaleError NumberFormat := do
  let tag ← LanguageTag.parse locale
  let currency ← match o.currency with
    | none => .ok none
    | some code => (currencyCode code).map some
  let (style, defaultLeast, defaultGreatest) ← resolveStyle tag currency o
  let least ← digitsOption "minimumFractionDigits" o.minimumFractionDigits
  let greatest ← digitsOption "maximumFractionDigits" o.maximumFractionDigits
  let (lo, hi) ← fractionRange least greatest defaultLeast defaultGreatest
  return { locale := tag, symbols := .ofTag tag, style, minimumDigits := lo, maximumDigits := hi,
           useGrouping := o.useGrouping.getD true }

/-! ### Formatting -/

/-- Drops zeros at the end of a fraction, but keeps at least `least` digits. -/
def trimFraction (least : Nat) (fraction : List Char) : List Char :=
  fraction.take least ++ dropTailWhile (· == '0') (fraction.drop least)

def finiteText (f : NumberFormat) (units : Nat) : List Char :=
  let (whole, fraction) := Double.fixed f.maximumDigits units
  let whole := if f.useGrouping then f.symbols.grouped whole else whole
  match trimFraction f.minimumDigits fraction with
  | [] => whole
  | fraction => whole ++ f.symbols.decimal ++ fraction

def magnitudeText (f : NumberFormat) : Double → List Char
  | .nan => "NaN".toList
  | .infinity _ => ['∞']
  | .finite _ units _ => f.finiteText units

/-- Puts a currency symbol to the digits. A symbol that ends in a letter never touches them. -/
def placeCurrency (placement : CurrencyPlacement) (symbol digits : List Char) : List Char :=
  match placement with
  | .before =>
    if symbol.getLast?.any LanguageTag.isLetter then
      symbol ++ LocaleSymbols.noBreakSpace ++ digits
    else symbol ++ digits
  | .beforeSpaced => symbol ++ LocaleSymbols.noBreakSpace ++ digits
  | .after => digits ++ LocaleSymbols.noBreakSpace ++ symbol

/-- The text of a number; a minus sign stands first, also for negative zero. -/
def format (f : NumberFormat) (value : Double) : List Char :=
  let sign := if value.isNegative then ['-'] else []
  let body := match f.style with
    | .decimal => f.magnitudeText value.abs
    | .percent =>
      f.magnitudeText (value.abs.mul (.ofNat 100)) ++ f.symbols.percentSeparator ++ ['%']
    | .currency symbol =>
      placeCurrency f.symbols.currency symbol.toList (f.magnitudeText value.abs)
  sign ++ body

end NumberFormat

end ScriptBridge
