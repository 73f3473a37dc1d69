import ScriptBridge.Bridge.Iterator
import ScriptBridge.Host.Eval
import ScriptBridge.Script.Call
import ScriptBridge.Value.Equality
import ScriptBridge.Value.Inspect
import ScriptBridge.Value.Json

/-!
A session: one script runtime at a time, the variables and the log that outlive it, and what host
code can ask of it.
-/

namespace ScriptBridge

/-! ### Levels of calls -/

/-- How many steps data is followed that might not end. -/
def stepLimit : Nat := 1000000

/-- How deep calls may nest. -/
def callLimit : Nat := 1000

/-- Evaluation with calls nested at most `depth` deep; deeper ones overflow the stack. -/
def Reentry.within : Nat → Reentry
  | 0 =>
    { call := fun _ _ _ => do
        Act.fail (.object (← Act.newErrorOf Intrinsic.internalErrorPrototype
          (.ofString "stack overflow")))
      runHost := fun _ _ _ => Act.fail (Error.exception "InternalError" "stack overflow")
      bound := stepLimit }
  | depth + 1 =>
    { call := fun id this args => Script.callObject (within depth) id this args
      runHost := fun id this args => Host.runFunction (within depth) id this args
      bound := stepLimit }

namespace Session

/-- Evaluation at the top of a session. -/
def top : Reentry := Reentry.within callLimit

/-- Enters the runtime. When it is left, host errors that nobody recovered are dropped. -/
def enter {α : Type} (x : HostAct α) : HostAct α := x.entering

/-! ### Jobs -/

/-- Runs jobs, also those queued meanwhile, and counts them. What they throw is lost. -/
def runJobsWithin : Nat → Nat → HostAct Nat
  | 0, _ => Act.giveUp
  | steps + 1, done => do
    match ← Act.takeJob with
    | none => return done
    | some job =>
      let _ ← (Script.eval top job.scope job.body).attempt (δ := Error)
      runJobsWithin steps (done + 1)

def runJobs : HostAct Nat := runJobsWithin stepLimit 0

/-- Does something in the runtime, then the jobs it queued. A failure leaves the jobs waiting. -/
def thenJobs {α : Type} (x : HostAct α) : HostAct α := do
  let a ← enter x
  let _ ← runJobs
  return a

/-! ### Globals -/

def setGlobal (name : String) (v : Value) : HostAct Unit :=
  enter do
    let v ← Bridge.toScript v
    Bridge.intoHost top (Script.set top Intrinsic.globalObject (.ofString name) v)

def readGlobal (name : String) : HostAct Value := do
  let v ← Bridge.intoHost top (Script.get top Intrinsic.globalObject (.ofString name))
  Bridge.toHost top v

def global (name : String) : HostAct Value := enter (readGlobal name)

/-! ### Runtimes -/

/-- Drops the runtime, if there is one, and starts a new one with the functions `exit` and `log`. -/
def start : HostAct Unit := do
  Act.restart
  let exit ← Act.newFunction { name := "exit", arity := .between 0 1, body := .exit }
  setGlobal "exit" (.function (.host exit))
  let log ← Act.newFunction { name := "log", arity := .atLeast 0, body := .log }
  setGlobal "log" (.function (.host log))

/-- Opens a session, unless the default locale is no language tag. -/
def opened (config : EngineConfig) : Except Error World :=
  match LanguageTag.parse config.defaultLocale with
  | .error e => .error (.conversion (.locale e))
  | .ok _ => .ok ((start { config }).2)

/-! ### Running -/

def evaluate (e : HostExpr) : HostAct Value := enter (Host.eval top .top e)

def execute (source : ScriptSource) : HostAct Value :=
  thenJobs do Bridge.toHost top (← Bridge.intoHost top (Script.run top source))

def executeFile (path : String) (content : Except ReadFault ScriptSource) : HostAct Value :=
  match content with
  | .ok source => execute source
  | .error fault => Act.fail (.read path fault)

def callFunction (f : Callback) (this : Value) (args : List Value) : HostAct Value :=
  thenJobs (Bridge.invoke top f this args)

def callGlobal (name : String) (args : List Value) : HostAct Value :=
  thenJobs do
    match ← readGlobal name with
    | .function f => Bridge.invoke top f .undefined args
    | _ => Act.fail (Error.exception "TypeError" (name ++ " is not a function"))

def callMethod (s : SequenceId) (method : String) (args : List Value) : HostAct Sequence.Answer :=
  enter (Sequence.callNamed top s method args)

def assign (name : String) (v : Value) : HostAct Unit := do
  Act.modify (·.setVariable name v)
  setGlobal name v

/-! ### Iteration -/

/-- The items of an iterable, at most `limit` of them; a failure is the last one. Afterwards the
iterator is closed if asked to. -/
def iterate (v : Value) (limit : Option Nat) (close : Bool) :
    HostAct (List (Except Error Value)) :=
  enter do
    let it ← Bridge.Iterator.ofValue top v
    let (items, it) ← it.take top (limit.getD stepLimit)
    if close then it.close top
    return items

/-! ### Stand-ins -/

/-- Whether two sequences have one stand-in. Both stand-ins are held while they are compared. -/
def sameHandle (s t : SequenceId) : HostAct Bool :=
  let handle (s : SequenceId) : HostAct ScriptRef := do
    match ← Bridge.standIn (.sequence s) with
    | .object id => Bridge.hold id
    | v => Bridge.wrongType v "object"
  do
    let a ← enter (handle s)
    let b ← enter (handle t)
    Act.letGo a
    Act.letGo b
    return a.identity == b.identity

/-! ### Conversions -/

/-- The types host code can ask a value to be. -/
inductive Target where
  | number
  | boolean
  | string
  | sequence
  | plain
  | function
deriving DecidableEq, Repr

def Target.name : Target → String
  | number => "number"
  | boolean => "boolean"
  | string => "string"
  | sequence => "array"
  | plain => "plain object"
  | function => "function"

def Target.accepts : Target → Value → Bool
  | number, .number _ | boolean, .bool _ | string, .string _ | sequence, .sequence _
  | plain, .plain _ | function, .function _ => true
  | _, _ => false

def Target.expect (t : Target) (v : Value) : Except Error Value :=
  if t.accepts v then .ok v else .error (.conversion (.mismatch t.name v.typeName))

end Session

end ScriptBridge
