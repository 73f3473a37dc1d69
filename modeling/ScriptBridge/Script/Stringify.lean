import ScriptBridge.Script.Properties

/-!
The document text a script makes of a value.
-/

namespace ScriptBridge.Script

def hexEscape (u : UInt16) : List Char :=
  let n := u.toNat
  ['\\', 'u', Nat.digitChar (n / 4096), Nat.digitChar (n / 256 % 16),
   Nat.digitChar (n / 16 % 16), Nat.digitChar (n % 16)]

/-- A code unit that is no half of a pair, inside a literal. -/
def escapeUnit (u : UInt16) : Utf16 :=
  if u = 0x22 then .ofString "\\\""
  else if u = 0x5c then .ofString "\\\\"
  else if u = 0x08 then .ofString "\\b"
  else if u = 0x09 then .ofString "\\t"
  else if u = 0x0a then .ofString "\\n"
  else if u = 0x0c then .ofString "\\f"
  else if u = 0x0d then .ofString "\\r"
  else if u < 0x20 || Utf16.isLead u || Utf16.isTrail u then .ofChars (hexEscape u)
  else [u]

/-- The inside of a literal; surrogates that stand alone are escaped. -/
def escapeUnits : Utf16 → Utf16
  | [] => []
  | [u] => escapeUnit u
  | u :: v :: rest =>
    if Utf16.isLead u && Utf16.isTrail v then u :: v :: escapeUnits rest
    else escapeUnit u ++ escapeUnits (v :: rest)

def quoteUnits (t : Utf16) : Utf16 := 0x22 :: escapeUnits t ++ [0x22]

/-- What stands for a value in a document: the result of its own `toJSON` if it has one; undefined
for what has no document. -/
def documentValue (r : Reentry) (key : Utf16) (v : ScriptValue) : ScriptAct ScriptValue := do
  let v ← match v with
    | .object _ | .bigint _ =>
      match ← callable? (← getValue r v (.ofString "toJSON")) with
      | some f => r.call f v [.string key]
      | none => pure v
    | v => pure v
  match v with
  | .symbol _ => return .undefined
  | .object _ => return if (← callable? v).isSome then .undefined else v
  | v => return v

/-- The primitive inside a wrapper object, or the value itself. -/
def unwrapped (v : ScriptValue) : ScriptAct ScriptValue := do
  match v with
  | .object id =>
    match ← Act.object? id with
    | some { kind := .wrapper (.symbol _), .. } => return v
    | some { kind := .wrapper inner, .. } => return inner
    | _ => return v
  | v => return v

/-- The text of a value that has a document; `around` are the objects it lies in, and objects nest
less than `depth` deep. -/
def documentText (r : Reentry) : Nat → List ObjectId → ScriptValue → ScriptAct Utf16
  | 0, _, _ => Act.giveUp
  | depth + 1, around, v => do
    match ← unwrapped v with
    | .object id =>
      if id ∈ around then Act.throwType "circular reference"
      else
        let inner (key : PropertyKey) (absent : Option Utf16) : ScriptAct (Option Utf16) := do
          match ← documentValue r (key.text?.getD []) (← get r id key) with
          | .undefined => return absent
          | v => return some (← documentText r depth (id :: around) v)
        if ← isArray (ε := ScriptValue) (.object id) then
          let length ← lengthOf r id
          let items ← Act.mapAll (fun i => inner (.ofNat i) (some (.ofString "null")))
            (List.range length)
          return .ofString "[" ++ List.intercalate (Utf16.ofString ",") (items.filterMap fun i => i) ++
            .ofString "]"
        else
          let members ← Act.mapAll (fun key => do
            return (← inner key none).map fun text =>
              quoteUnits (key.text?.getD []) ++ .ofString ":" ++ text) (← listedKeys id)
          return .ofString "\x7b" ++
            List.intercalate (Utf16.ofString ",") (members.filterMap fun m => m) ++ .ofString "\x7d"
    | .string t => return quoteUnits t
    | .number d =>
      return if d.isFinite then .ofChars (Number.scriptText d) else .ofString "null"
    | .bool b => return .ofString (if b then "true" else "false")
    | .bigint _ => Act.throwType "bigint are forbidden in JSON.stringify"
    | _ => return .ofString "null"

def stringify (r : Reentry) (v : ScriptValue) : ScriptAct ScriptValue := do
  match ← documentValue r [] v with
  | .undefined => return .undefined
  | v => return .string (← documentText r r.bound [] v)

end ScriptBridge.Script
