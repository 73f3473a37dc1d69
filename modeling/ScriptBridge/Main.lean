import ScriptBridge.CommandLine
import ScriptBridge.Script.Document

/-!
The program: it reads the files its command line names, runs the script, and prints what came of it.
Scripts are written as documents.
-/

namespace ScriptBridge.CommandLine

/-- What a file holds, or why it cannot be read. -/
def fileContent (path : String) : IO (Except ReadFault String) := do
  try return .ok (← IO.FS.readFile path)
  catch e =>
    match e with
    | .noFileOrDirectory .. => return .error .notFound
    | .inappropriateType .. => return .error .isDirectory
    | e => return .error (.other (toString e))

def scriptOfText (text : String) : ScriptSource :=
  match Json.parse text.toList with
  | some j => .ofJson j
  | none => .malformed

def requestOf (o : Options) : IO Request := do
  let config ← o.config.mapM fun path => do return (path, ← fileContent path)
  let program ← match o.source, o.script with
    | some text, _ => pure (.inline (scriptOfText text))
    | none, some path => do
      let content ← fileContent path
      pure (.file path (content.map scriptOfText))
    | none, none => pure .nothing
  return { config, json := o.json, program }

/-- Does what the words of a command line ask for; the result is the exit code. -/
def start (args : List String) : IO UInt32 := do
  match Options.read? {} args with
  | none =>
    IO.eprintln "error: the arguments cannot be used together"
    return UInt32.ofNat misuse.code
  | some o =>
    let report := run (← requestOf o)
    IO.print (String.ofList report.output)
    match report.failure with
    | some failure => IO.eprint (String.ofList failure.text)
    | none => pure ()
    return UInt32.ofNat report.code

end ScriptBridge.CommandLine

def main (args : List String) : IO UInt32 := ScriptBridge.CommandLine.start args
