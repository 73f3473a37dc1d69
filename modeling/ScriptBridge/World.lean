import ScriptBridge.Bridge.Roots
import ScriptBridge.Collection.Arena
import ScriptBridge.Config
import ScriptBridge.Host.Expr
import ScriptBridge.Json.Basic
import ScriptBridge.Picture
import ScriptBridge.Script.Object

/-!
The state that host and script share: the host heap, the script heap of the live runtime with what
ties the two together, and what a session records.
-/

namespace ScriptBridge

inductive HostBody where
  | expression (e : HostExpr)
  | exit
  /-- Appends a picture of the first argument to the log, and returns it. -/
  | log

structure HostFunction where
  name : String
  arity : Arity
  body : HostBody

structure Heap where
  sequences : Arena (List Value) := .empty
  plains : Arena (Entries String Value) := .empty
  functions : Arena HostFunction := .empty

namespace Heap

def sequence (h : Heap) (id : SequenceId) : List Value := (h.sequences.get? id.index).getD []

def setSequence (h : Heap) (id : SequenceId) (items : List Value) : Heap :=
  { h with sequences := h.sequences.set id.index items }

/-- The handle the next new sequence gets. -/
def nextSequence (h : Heap) : SequenceId := ⟨h.sequences.size⟩

def pushSequence (h : Heap) (items : List Value) : Heap :=
  { h with sequences := h.sequences.push items }

def plain (h : Heap) (id : PlainId) : Entries String Value := (h.plains.get? id.index).getD .empty

def setPlain (h : Heap) (id : PlainId) (entries : Entries String Value) : Heap :=
  { h with plains := h.plains.set id.index entries }

def nextPlain (h : Heap) : PlainId := ⟨h.plains.size⟩

def pushPlain (h : Heap) (entries : Entries String Value) : Heap :=
  { h with plains := h.plains.push entries }

def function? (h : Heap) (id : HostFunctionId) : Option HostFunction := h.functions.get? id.index

def functionName (h : Heap) (id : HostFunctionId) : String :=
  ((h.function? id).map (·.name)).getD ""

def nextFunction (h : Heap) : HostFunctionId := ⟨h.functions.size⟩

def pushFunction (h : Heap) (f : HostFunction) : Heap :=
  { h with functions := h.functions.push f }

def allSequences (h : Heap) : List SequenceId := (List.range h.sequences.size).map .mk

/-- More than any path through distinct containers. -/
def depthBound (h : Heap) : Nat := h.sequences.size + h.plains.size + 1

def callbackName (h : Heap) : Callback → String
  | .host id => h.functionName id
  | .script _ name => name

/-! #### What a write changes -/

theorem sequence_setSequence_self {h : Heap} {id : SequenceId} (made : id.index < h.sequences.size)
    (items : List Value) : (h.setSequence id items).sequence id = items := by
  have here : (h.sequences.set id.index items).get? id.index = some items := by
    rw [Arena.get?_set, if_pos ⟨rfl, made⟩]
  rw [sequence, setSequence, here]
  rfl

theorem sequence_setSequence_of_ne (h : Heap) {id other : SequenceId} (ne : id ≠ other)
    (items : List Value) : (h.setSequence id items).sequence other = h.sequence other := by
  have apart : id.index ≠ other.index := fun same => ne (congrArg SequenceId.mk same)
  have there : (h.sequences.set id.index items).get? other.index =
      h.sequences.get? other.index := by
    rw [Arena.get?_set, if_neg fun both => apart both.1]
  rw [sequence, setSequence, there]
  rfl

theorem sequence_pushSequence_next (h : Heap) (items : List Value) :
    (h.pushSequence items).sequence h.nextSequence = items := by
  have here : (h.sequences.push items).get? h.sequences.size = some items :=
    Arena.get?_push_size _ _
  rw [sequence, pushSequence, nextSequence, here]
  rfl

theorem sequence_pushSequence_of_lt {h : Heap} {id : SequenceId}
    (made : id.index < h.sequences.size) (items : List Value) :
    (h.pushSequence items).sequence id = h.sequence id := by
  have there : (h.sequences.push items).get? id.index = h.sequences.get? id.index := by
    rw [Arena.get?_push, if_neg (Nat.ne_of_lt made)]
  rw [sequence, pushSequence, there]
  rfl

theorem plain_setPlain_self {h : Heap} {id : PlainId} (made : id.index < h.plains.size)
    (entries : Entries String Value) : (h.setPlain id entries).plain id = entries := by
  have here : (h.plains.set id.index entries).get? id.index = some entries := by
    rw [Arena.get?_set, if_pos ⟨rfl, made⟩]
  rw [plain, setPlain, here]
  rfl

@[simp] theorem size_plains_setPlain (h : Heap) (id : PlainId) (entries : Entries String Value) :
    (h.setPlain id entries).plains.size = h.plains.size :=
  Arena.size_set _ _ _

end Heap

structure Engine where
  objects : Arena Object := .empty
  symbols : Nat := 0
  jobs : List Job := []
  registry : Registry := {}
  /-- The script objects the host has held, in the order of their identities, from 1. -/
  held : List ObjectId := []
  roots : Roots := {}
  /-- Host errors thrown into the script and not yet recovered, by tag. -/
  stash : List (Nat × Error) := []
  nextTag : Nat := 1
  /-- How many entries into the runtime are open. -/
  depth : Nat := 0

structure World where
  config : EngineConfig := {}
  heap : Heap := {}
  engine : Engine := {}
  /-- Counts the runtimes started. -/
  runtime : Nat := 0
  /-- The references that earlier runtimes released when they went, by runtime and number. -/
  released : List (Nat × Nat) := []
  /-- The session variables, in the order of their names. -/
  bindings : List (String × Value) := []
  log : List Picture := []
  exitCode : Option Int := none

instance : Inhabited World := ⟨{}⟩

namespace World

def boundTo? (w : World) (name : String) : Option Value :=
  (w.bindings.find? (·.1 == name)).map (·.2)

def setVariable (w : World) (name : String) (v : Value) : World :=
  { w with bindings := Json.insertMember name v w.bindings }

end World

end ScriptBridge
