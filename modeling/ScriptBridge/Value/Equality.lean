import ScriptBridge.World

/-!
Structural equality of host values.
-/

namespace ScriptBridge.Heap

def equalLists (eq : Value → Value → Bool) : List Value → List Value → Bool
  | [], [] => true
  | x :: xs, y :: ys => eq x y && equalLists eq xs ys
  | _, _ => false

/-- Equality by contents for values that nest less than `depth` deep: sequences element by element,
plain objects key by key in any order, dates and errors by value, all else as scripts compare. -/
def equalWithin (h : Heap) : Nat → Value → Value → Bool
  | 0, _, _ => false
  | depth + 1, a, b =>
    match a, b with
    | .sequence i, .sequence j =>
      i == j || equalLists (h.equalWithin depth) (h.sequence i) (h.sequence j)
    | .plain i, .plain j =>
      i == j ||
        ((h.plain i).size == (h.plain j).size &&
          (h.plain i).toList.all fun (key, v) =>
            match (h.plain j).get? key with
            | some w => h.equalWithin depth v w
            | none => false)
    | .date m, .date n => m == n
    | .error d, .error e => d == e
    | a, b => a.strictEquals b

def structurallyEqual (h : Heap) (a b : Value) : Bool := h.equalWithin h.depthBound a b

end ScriptBridge.Heap
