/-!
Storage whose cells are named by the order in which they were made and are never given up.
-/

namespace ScriptBridge

structure Arena (α : Type) where
  cells : Array α

namespace Arena

variable {α : Type}

def empty : Arena α := ⟨#[]⟩

instance : Inhabited (Arena α) := ⟨empty⟩

def size (a : Arena α) : Nat := a.cells.size

def get? (a : Arena α) (i : Nat) : Option α := a.cells[i]?

/-- Adds a cell; its name is the old size. -/
def push (a : Arena α) (x : α) : Arena α := ⟨a.cells.push x⟩

/-- Writes a cell; a name never given out is ignored. -/
def set (a : Arena α) (i : Nat) (x : α) : Arena α := ⟨a.cells.setIfInBounds i x⟩

@[simp] theorem size_push (a : Arena α) (x : α) : (a.push x).size = a.size + 1 := by
  simp [push, size]

@[simp] theorem size_set (a : Arena α) (i : Nat) (x : α) : (a.set i x).size = a.size := by
  simp [set, size]

theorem lt_size_of_get? {a : Arena α} {i : Nat} {x : α} (found : a.get? i = some x) :
    i < a.size :=
  (Array.getElem?_eq_some_iff.1 found).1

theorem get?_push (a : Arena α) (x : α) (i : Nat) :
    (a.push x).get? i = if i = a.size then some x else a.get? i := by
  exact Array.getElem?_push

theorem get?_push_size (a : Arena α) (x : α) : (a.push x).get? a.size = some x := by
  rw [get?_push, if_pos rfl]

theorem get?_set (a : Arena α) (i j : Nat) (x : α) :
    (a.set i x).get? j = if i = j ∧ j < a.size then some x else a.get? j := by
  simp only [set, get?, size, Array.getElem?_setIfInBounds]
  by_cases h : i = j
  · subst h
    by_cases hi : i < a.cells.size <;> simp [hi]
  · simp [h]

end Arena

end ScriptBridge
