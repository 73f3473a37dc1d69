import ScriptBridge.Double.Basic

/-!
Limits and defaults of a script runtime.
-/

namespace ScriptBridge

structure EngineConfig where
  memoryLimit : Option Nat := none
  maxStackSize : Option Nat := none
  gcThreshold : Option Nat := none
  /-- The locale of texts for which a script names none. -/
  defaultLocale : String := "en-US"
  /-- The largest length a script may give a host sequence, or an array it hands to the host. -/
  maxArrayLength : Nat := 2 ^ 24
deriving DecidableEq, Repr

end ScriptBridge
