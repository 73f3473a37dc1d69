import ScriptBridge.Locale.Error
import ScriptBridge.Number.Text
import ScriptBridge.Text.Blank

/-!
Errors of the bridge: each cause with the script class it surfaces as and its message.
-/

namespace ScriptBridge

structure ScriptException where
  name : String
  message : String
  stack : Option String := none
deriving DecidableEq, Repr

/-- What can be wrong with the arguments of a call. -/
inductive ArgumentFault where
  | tooFew (function : String) (required passed : Nat)
  | tooMany (function : String) (allowed passed : Nat)
  | notCallable (method : String)
  | custom (message : String)
deriving DecidableEq

inductive ConversionFault where
  | mismatch (expected found : String)
  | invalidLength
  | invalidDate
  | dateOutOfRange (millis : Double)
  | nestedTooDeep
  /-- A kind of script value that has no form on the host. -/
  | noHostForm (kind : String)
  /-- A reference into a script runtime that is gone. -/
  | released (what : String)
  | locale (error : LocaleError)
  | custom (name message : String)
deriving DecidableEq

/-- Operations that make no sense where they are asked for. -/
inductive LogicFault where
  | nullThis (method : String)
  | emptyFold (method : String)
  | notAnIndex (key : String)
  | custom (message : String)
deriving DecidableEq

/-- Failures of the script engine that are no script exceptions. -/
inductive EngineFault where
  /-- Text with a surrogate that stands alone, after so many bytes. -/
  | illFormedText (offset : Nat)
  | wrongType (found expected : String)
  /-- A reference that belongs to another runtime and was not released. -/
  | foreignReference
deriving DecidableEq

inductive ReadFault where
  | notFound
  | isDirectory
  | other (reason : String)
deriving DecidableEq

inductive Error where
  | argument (fault : ArgumentFault)
  | conversion (fault : ConversionFault)
  | logic (fault : LogicFault)
  /-- Raised by the host function of that name. -/
  | host (function message : String)
  | script (exception : ScriptException)
  | engine (fault : EngineFault)
  | read (path : String) (fault : ReadFault)
deriving DecidableEq

def plural (n : Nat) (noun : String) : String := if n = 1 then noun else noun ++ "s"

def natText (n : Nat) : String := String.ofList (decimalDigits n)

def ArgumentFault.message : ArgumentFault → String
  | tooFew function required passed =>
    function ++ ": At least " ++ natText required ++ " " ++ plural required "argument" ++
      " required, but only " ++ natText passed ++ " passed"
  | tooMany function allowed passed =>
    function ++ ": At most " ++ natText allowed ++ " " ++ plural allowed "argument" ++
      " accepted, but " ++ natText passed ++ " passed"
  | notCallable method => method ++ ": callback is not a function"
  | custom message => message

def ConversionFault.scriptName : ConversionFault → String
  | mismatch .. | noHostForm _ => "TypeError"
  | invalidLength | invalidDate | dateOutOfRange _ | nestedTooDeep => "RangeError"
  | released _ => "ReferenceError"
  | locale error => if error.isRangeError then "RangeError" else "TypeError"
  | custom name _ => name

def ConversionFault.message : ConversionFault → String
  | mismatch expected found => "expected " ++ expected ++ ", found " ++ found
  | invalidLength => "invalid array length"
  | invalidDate => "invalid Date cannot cross into the host"
  | dateOutOfRange millis => "date out of range: " ++ String.ofList (Number.wholeText millis)
  | nestedTooDeep => "array nesting too deep to cross into the host"
  | noHostForm kind => "cannot convert a " ++ kind ++ " value to a host value"
  | released what => what ++ " outlived its script runtime"
  | locale error => error.message
  | custom _ message => message

def LogicFault.message : LogicFault → String
  | nullThis method => method ++ ": this is null"
  | emptyFold method => method ++ " of empty array with no initial value"
  | notAnIndex key => "cannot set " ++ key ++ " on a host array"
  | custom message => message

def EngineFault.message : EngineFault → String
  | illFormedText offset =>
    "Conversion from string failed: invalid utf-8 sequence of 1 bytes from index " ++
      natText offset
  | wrongType found expected =>
    "Error converting from js '" ++ found ++ "' into type '" ++ expected ++ "'"
  | foreignReference => "Restoring Persistent in an unrelated runtime"

def ReadFault.reason : ReadFault → String
  | notFound => "No such file or directory (os error 2)"
  | isDirectory => "Is a directory (os error 21)"
  | other reason => reason

namespace Error

/-- An exception of the script language raised by the bridge itself. -/
def exception (name message : String) : Error := script { name, message }

def scriptName : Error → String
  | argument _ | logic _ => "TypeError"
  | conversion fault => fault.scriptName
  | host .. | read .. => "Error"
  | script e => e.name
  | engine _ => "InternalError"

def message : Error → String
  | argument fault => fault.message
  | conversion fault => fault.message
  | logic fault => fault.message
  | host function message => function ++ ": " ++ message
  | script e => e.message
  | engine fault => fault.message
  | read path fault => "failed to read " ++ path ++ ": " ++ fault.reason

def stack : Error → Option String
  | script e => e.stack
  | _ => none

/-- The text shown to people: class and message, except that a file error is its message. -/
def text (e : Error) : String :=
  match e with
  | read .. => e.message
  | _ => e.scriptName ++ ": " ++ e.message

end Error

/-! ### Stack frames -/

namespace ScriptException

/-- The lines of a stack that hold anything, trimmed. -/
def framesOf (stack : List Char) : List (List Char) :=
  ((textLines stack).map trimBlank).filter (!·.isEmpty)

def frames (e : ScriptException) : List (List Char) := framesOf (e.stack.getD "").toList

def firstFrame (e : ScriptException) : Option String := e.frames.head?.map String.ofList

/-- The frames after the first, one a line. -/
def remainingFrames (e : ScriptException) : Option String :=
  match e.frames.tail with
  | [] => none
  | rest => some (String.ofList (List.intercalate ['\n'] rest))

end ScriptException

end ScriptBridge
