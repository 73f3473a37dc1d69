/-!
What can be wrong with a locale or with formatting options.
-/

namespace ScriptBridge

inductive LocaleError where
  | invalidTag (tag : String)
  | invalidCurrency (code : String)
  | missingCurrency
  | invalidOption (option value : String)
  | digitsOutOfRange (option : String)
deriving DecidableEq, Repr

namespace LocaleError

def message : LocaleError → String
  | invalidTag tag => "invalid language tag: " ++ tag
  | invalidCurrency code => "invalid currency code in NumberFormat(): " ++ code
  | missingCurrency => "Currency code is required with currency style."
  | invalidOption option value => "invalid value \"" ++ value ++ "\" for option " ++ option
  | digitsOutOfRange option => option ++ " value is out of range."

/-- Whether scripts see a range error; a missing currency is a type error. -/
def isRangeError : LocaleError → Bool
  | missingCurrency => false
  | _ => true

end LocaleError

end ScriptBridge
