import ScriptBridge.Session
import ScriptBridge.Settings

/-!
The command line: what it asks for, and what running it prints and exits with.
-/

namespace ScriptBridge.CommandLine

/-! ### Options -/

structure Options where
  config : Option String := none
  source : Option String := none
  json : Bool := false
  script : Option String := none
deriving DecidableEq, Repr

/-- Reads the words of a command line; `none` where they make no sense together. -/
def Options.read? (o : Options) : List String → Option Options
  | [] => if o.source.isSome && o.script.isSome then none else some o
  | "--json" :: rest => if o.json then none else read? { o with json := true } rest
  | "-c" :: path :: rest | "--config" :: path :: rest =>
    if o.config.isSome then none else read? { o with config := some path } rest
  | "-e" :: text :: rest | "--eval" :: text :: rest =>
    if o.source.isSome then none else read? { o with source := some text } rest
  | word :: rest =>
    if word.startsWith "-" || o.script.isSome then none
    else read? { o with script := some word } rest

/-! ### Failures -/

/-- Why a run failed: what was going on, and what caused it, the nearest cause first. -/
structure Failure where
  doing : String
  causes : List String := []
deriving DecidableEq, Repr

/-- A cause and what stands behind it. -/
def causesOf (e : Error) : List String :=
  match e with
  | .engine fault => [e.text, fault.message]
  | .read _ fault => [e.text, fault.reason]
  | e => [e.text]

def settingsCauses (e : SettingsError) : List String :=
  match e with
  | .read _ fault => [e.message, fault.reason]
  | e => [e.message]

/-- A text with every line but the first behind `indent`. -/
def indented (indent : List Char) (text : List Char) : List Char :=
  text.flatMap fun c => if c = '\n' then c :: indent else [c]

def blanks (n : Nat) : List Char := List.replicate n ' '

/-- The causes, one below the other; several are numbered. -/
def causeLines : List String → List (List Char)
  | [] => []
  | [cause] => [blanks 4 ++ indented (blanks 4) cause.toList]
  | causes => causes.zipIdx.map fun (cause, i) =>
    let number := decimalDigits i
    blanks (5 - number.length) ++ number ++ ": ".toList ++ indented (blanks 7) cause.toList

def Failure.text (f : Failure) : List Char :=
  let report := "Error: ".toList ++ f.doing.toList
  if f.causes.isEmpty then report ++ ['\n']
  else
    report ++ "\n\nCaused by:\n".toList ++ List.intercalate ['\n'] (causeLines f.causes) ++ ['\n']

/-! ### Running -/

inductive Program where
  | inline (source : ScriptSource)
  | file (path : String) (content : Except ReadFault ScriptSource)
  | nothing

structure Request where
  /-- The settings file and what it holds, if there is one. -/
  config : Option (String × Except ReadFault String) := none
  json : Bool := false
  program : Program

structure Report where
  code : Nat
  output : List Char := []
  failure : Option Failure := none

def settings (config : Option (String × Except ReadFault String)) : Except Failure Settings :=
  match config with
  | none => .ok {}
  | some (path, content) =>
    match Settings.load path content with
    | .ok s => .ok s
    | .error e => .error { doing := "loading " ++ path, causes := settingsCauses e }

/-- What is printed for the value of a program: its text, or its document; nothing for undefined. -/
def printed (h : Heap) (json : Bool) (v : Value) : List Char :=
  if json then
    ((h.json v).map (Json.pretty 0)).getD "null".toList ++ ['\n']
  else if v.isUndefined then []
  else h.text v ++ ['\n']

/-- Runs a program in an open session; `doing` names what is going on. -/
def runProgram (json : Bool) (doing : String) (x : HostAct Value) (w : World) :
    Except Failure (List Char × Option Int) :=
  match x w with
  | (.value v, w) => .ok (printed w.heap json v, w.exitCode)
  | (.failure e, _) => .error { doing, causes := causesOf e }
  | (.exhausted, _) => .error { doing }

def outcome (request : Request) : Except Failure (List Char × Option Int) := do
  let settings ← settings request.config
  match Session.opened settings.engine with
  | .error e => .error { doing := "starting script runtime", causes := causesOf e }
  | .ok w =>
    match request.program with
    | .inline source =>
      runProgram request.json "evaluating inline source" (Session.execute source) w
    | .file path content =>
      runProgram request.json ("running " ++ path) (Session.executeFile path content) w
    | .nothing => .error { doing := "nothing to run: pass a script file or --eval <source>" }

/-- Runs a request. The exit code is what the program asked for, in 8 bits. -/
def run (request : Request) : Report :=
  match outcome request with
  | .ok (output, code) => { code := ((code.getD 0) % 256).toNat, output }
  | .error failure => { code := 1, failure := some failure }

/-- The exit code for words that make no sense. -/
def misuse : Report := { code := 2 }

end ScriptBridge.CommandLine
