import ScriptBridge.Value.Text

/-!
Flattening nested sequences.
-/

namespace ScriptBridge.Heap

/-- Replaces nested sequences by their elements, `depth` levels deep and going down only into the
available ones; the others stay as they are. -/
def flattenAvailable (h : Heap) (available : List SequenceId) (depth : Double)
    (items : List Value) : List Value :=
  items.flatMap fun item =>
    match item with
    | .sequence nested =>
      if _ : nested ∈ available then
        if (Double.ofNat 1).le depth then
          h.flattenAvailable (available.erase nested) (depth.sub (.ofNat 1)) (h.sequence nested)
        else [item]
      else [item]
    | item => [item]
termination_by available.length
decreasing_by exact length_erase_lt ‹_›

/-- The elements of a sequence with those nested in it up to `depth` levels. A sequence inside
itself is not opened again. -/
def flatten (h : Heap) (id : SequenceId) (depth : Double) : List Value :=
  h.flattenAvailable (h.allSequences.erase id) depth (h.sequence id)

/-- The elements of a list of values, sequences among them opened one level. -/
def spread (h : Heap) (items : List Value) : List Value :=
  items.flatMap fun item =>
    match item with
    | .sequence nested => h.sequence nested
    | item => [item]

end ScriptBridge.Heap
