import ScriptBridge.World.Act

/-!
Error objects of the script heap, and throwing them.
-/

namespace ScriptBridge

/-- The stack text the engine puts on the errors it makes. -/
def engineStack : String := "    at <eval> (eval_script:1:2)\n"

/-- A script text as a string value. -/
def ScriptValue.ofString (s : String) : ScriptValue := .string (.ofString s)

def errorProperties (message : Utf16) : Entries PropertyKey Property :=
  (Entries.empty.insert (.ofString "message") (.hidden (.string message))).insert
    (.ofString "stack") (.hidden (.ofString engineStack))

/-! ### Names in messages -/

def messageLimit : Nat := 255

/-- A name that is not all ASCII is cut as soon as it has this many bytes. -/
def nameLimit : Nat := 58

/-- Cuts a name of which `used` bytes have been taken. -/
def cutName (used : Nat) : Utf16 → Utf16
  | [] => []
  | u :: rest =>
    if used < nameLimit then
      u :: cutName (used + if u < 0x80 then 1 else if u < 0x800 then 2 else 3) rest
    else []

def messageName (name : Utf16) : Utf16 := if name.all (· < 0x80) then name else cutName 0 name

namespace Act

variable {ε α : Type}

def newErrorOf (prototype : ObjectId) (message : Utf16) : Act ε ObjectId :=
  newObject { kind := .error, prototype := some prototype, properties := errorProperties message }

/-- A new error of a standard class; of the general one where the name is none of them. -/
def newError (className : String) (message : Utf16) : Act ε ObjectId :=
  newErrorOf ((Intrinsic.errorPrototype? className).getD Intrinsic.errorPrototype) message

def throwNew (className message : String) : ScriptAct α := do
  let id ← newError className (.ofString message)
  fail (.object id)

def throwType (message : String) : ScriptAct α := throwNew "TypeError" message

/-- Throws an error the engine makes whose message has a name in it. -/
def throwNamed (className before : String) (name : Utf16) (after : String) : ScriptAct α := do
  let message := Utf16.ofString before ++ messageName name ++ Utf16.ofString after
  let id ← newError className (message.take messageLimit)
  fail (.object id)

def putProperty (id : ObjectId) (key : PropertyKey) (p : Property) : Act ε Unit :=
  editObject id (·.write key p) (·.becomes_write key p)

end Act

end ScriptBridge
