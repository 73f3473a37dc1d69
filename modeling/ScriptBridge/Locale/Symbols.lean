import ScriptBridge.Locale.Tag

/-!
How locales write numbers: marks, grouping and currency conventions.
-/

namespace ScriptBridge

inductive Grouping where
  /-- Groups of three digits. -/
  | threes
  /-- Three digits last, groups of two before them. -/
  | threeThenTwos
deriving DecidableEq, Repr

inductive CurrencyPlacement where
  | before
  | beforeSpaced
  | after
deriving DecidableEq, Repr

structure LocaleSymbols where
  decimal : List Char
  group : List Char
  currency : CurrencyPlacement
  percentSeparator : List Char
  grouping : Grouping := .threes
  /-- Shorter whole parts are not grouped. -/
  minGroupedDigits : Nat := 4
deriving DecidableEq, Repr

namespace LocaleSymbols

def noBreakSpace : List Char := ['\u00a0']

def narrowSpace : List Char := ['\u202f']

def english : LocaleSymbols := ⟨['.'], [','], .before, [], .threes, 4⟩

/-- The conventions of a language, or of a language in a region. -/
def table : List (List String × LocaleSymbols) :=
  [(["en", "ja", "zh", "ko", "th", "he", "ms", "fil"], english),
   (["en-IN", "hi", "bn"], { english with grouping := .threeThenTwos }),
   (["de", "it", "da", "el"], ⟨[','], ['.'], .after, noBreakSpace, .threes, 4⟩),
   (["de-AT"], ⟨[','], noBreakSpace, .beforeSpaced, noBreakSpace, .threes, 4⟩),
   (["de-CH", "de-LI"], ⟨['.'], ['’'], .beforeSpaced, [], .threes, 4⟩),
   (["nl", "pt"], ⟨[','], ['.'], .beforeSpaced, [], .threes, 4⟩),
   (["id", "tr"], ⟨[','], ['.'], .before, [], .threes, 4⟩),
   (["pt-PT"], ⟨[','], noBreakSpace, .after, [], .threes, 4⟩),
   (["es"], ⟨[','], ['.'], .after, noBreakSpace, .threes, 5⟩),
   (["es-MX"], ⟨['.'], [','], .before, [], .threes, 4⟩),
   (["es-US"], ⟨['.'], [','], .before, noBreakSpace, .threes, 4⟩),
   (["fr"], ⟨[','], narrowSpace, .after, narrowSpace, .threes, 4⟩),
   (["fr-CH"], ⟨[','], narrowSpace, .after, [], .threes, 4⟩),
   (["ru", "uk", "cs", "sk", "sv", "nb", "no", "fi", "bg"],
     ⟨[','], noBreakSpace, .after, noBreakSpace, .threes, 4⟩),
   (["pl"], ⟨[','], noBreakSpace, .after, [], .threes, 5⟩)]

def find? (key : String) : Option LocaleSymbols :=
  (table.find? fun row => row.1.contains key).map (·.2)

/-- The conventions of the language in its region, else of the language, else the English ones. -/
def ofTag (tag : LanguageTag) : LocaleSymbols :=
  let language := String.ofList tag.language
  let regional := tag.region.bind fun region => find? (language ++ "-" ++ String.ofList region)
  (regional <|> find? language).getD english

end LocaleSymbols

/-! ### Currencies -/

namespace Currency

def fractionDigits (code : String) : Nat :=
  if code ∈ ["JPY", "KRW", "VND", "CLP", "ISK", "UGX", "PYG", "XAF", "XOF"] then 0
  else if code ∈ ["BHD", "KWD", "JOD", "OMR", "TND", "IQD", "LYD"] then 3
  else 2

def symbol (code : String) (tag : LanguageTag) : String :=
  let language := String.ofList tag.language
  let region := String.ofList (tag.region.getD [])
  match code with
  | "USD" =>
    if language = "en" ∧ region ∈ ["CA", "AU", "NZ", "SG", "HK"] then "US$" else "$"
  | "EUR" => "€"
  | "GBP" => "£"
  | "JPY" => if language = "ja" then "￥" else "¥"
  | "CNY" => if language = "zh" then "¥" else "CN¥"
  | "KRW" => "₩"
  | "INR" => "₹"
  | "CAD" => if region = "CA" then "$" else "CA$"
  | "AUD" => if region = "AU" then "$" else "A$"
  | "MXN" => if region = "MX" then "$" else "MX$"
  | "NZD" => if region = "NZ" then "$" else "NZ$"
  | "HKD" => "HK$"
  | "TWD" => "NT$"
  | "BRL" => "R$"
  | "RUB" => if language = "ru" then "₽" else code
  | "TRY" => if language = "tr" then "₺" else code
  | "ILS" => "₪"
  | "VND" => "₫"
  | "PHP" => "₱"
  | _ => code

/-- A symbol without the letters in front of it; a symbol of letters only stays as it is. -/
def narrow (symbol : String) : String :=
  match symbol.toList.dropWhile LanguageTag.isLetter with
  | [] => symbol
  | rest => String.ofList rest

end Currency

end ScriptBridge
