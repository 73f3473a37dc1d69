import ScriptBridge.Error
import ScriptBridge.Value

/-!
Pictures of values: what a value looks like at one moment, without identity.
-/

namespace ScriptBridge

inductive Picture where
  | undefined
  | null
  | bool (b : Bool)
  | number (d : Double)
  | string (s : String)
  | sequence (items : List Picture)
  | plain (entries : List (String × Picture))
  | function (name : String) (onHost : Bool)
  | date (millis : Int)
  | error (e : ErrorValue)
  /-- A script object, by its listed properties. -/
  | script (entries : List (String × Picture))
  /-- A property whose value has no form on the host. -/
  | failure (e : Error)
  /-- A script object of a runtime that is gone. -/
  | released
  /-- The value of a variable. -/
  | variable (name : String)
  /-- A container around this place, counted from the nearest. -/
  | enclosing (levels : Nat)

instance : Inhabited Picture := ⟨.undefined⟩

end ScriptBridge
