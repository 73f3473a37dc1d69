import ScriptBridge.Number.Literal
import ScriptBridge.Sequence.Range
import ScriptBridge.World.Act

/-!
Writing slots of host sequences and changing their lengths. No sequence grows past the largest
length there is, and a script may make none grow past the limit of its runtime.
-/

namespace ScriptBridge.Sequence

/-- Writes a slot, filling up with undefined where it lies past the end. -/
def writeSlot (s : SequenceId) (index : Nat) (v : Value) : HostAct Unit := do
  let items ← Act.elements s
  if index < items.length ∨ index + 1 ≤ Number.lengthLimit then
    Act.setElements s (write items index v .undefined)
  else Act.fail (.conversion .invalidLength)

theorem writeSlot_eq (s : SequenceId) (index : Nat) (v : Value) (w : World) :
    writeSlot s index v w =
      if index < (w.heap.sequence s).length ∨ index + 1 ≤ Number.lengthLimit then
        (.value (), { w with
          heap := w.heap.setSequence s (write (w.heap.sequence s) index v .undefined) })
      else (.failure (.conversion .invalidLength), w) := by
  rw [writeSlot, Act.elements, Act.read_bind]
  split <;> rfl

def setLength (s : SequenceId) (length : Nat) : HostAct Unit := do
  let items ← Act.elements s
  if length ≤ items.length ∨ length ≤ Number.lengthLimit then
    Act.setElements s (resize items length .undefined)
  else Act.fail (.conversion .invalidLength)

theorem setLength_eq (s : SequenceId) (length : Nat) (w : World) :
    setLength s length w =
      if length ≤ (w.heap.sequence s).length ∨ length ≤ Number.lengthLimit then
        (.value (), { w with
          heap := w.heap.setSequence s (resize (w.heap.sequence s) length .undefined) })
      else (.failure (.conversion .invalidLength), w) := by
  rw [setLength, Act.elements, Act.read_bind]
  split <;> rfl

/-- As `writeSlot`, for a script: past the end only below the limit of the runtime. -/
def writeSlotWithin (s : SequenceId) (index : Nat) (v : Value) : HostAct Unit := do
  let items ← Act.elements s
  let limit ← Act.read (·.config.maxArrayLength)
  if index < items.length ∨ index < limit then writeSlot s index v
  else Act.fail (.conversion .invalidLength)

theorem writeSlotWithin_of_room {s : SequenceId} {index : Nat} {w : World} (v : Value)
    (room : index < (w.heap.sequence s).length ∨ index < w.config.maxArrayLength) :
    writeSlotWithin s index v w = writeSlot s index v w := by
  rw [writeSlotWithin, Act.elements, Act.read_bind, Act.read_bind, if_pos room]

theorem writeSlotWithin_of_no_room {s : SequenceId} {index : Nat} {w : World} (v : Value)
    (full : ¬(index < (w.heap.sequence s).length ∨ index < w.config.maxArrayLength)) :
    writeSlotWithin s index v w = (.failure (.conversion .invalidLength), w) := by
  rw [writeSlotWithin, Act.elements, Act.read_bind, Act.read_bind, if_neg full]
  rfl

/-- Turns an existing slot into undefined. -/
def clearSlot (s : SequenceId) (index : Nat) : HostAct Unit := do
  let items ← Act.elements s
  if index < items.length then writeSlot s index .undefined

/-- Assigns a length given as a number, for a script: greater than the present one only up to the
limit of the runtime. -/
def assignLength (s : SequenceId) (requested : Double) : HostAct Unit := do
  let items ← Act.elements s
  let limit ← Act.read (·.config.maxArrayLength)
  match Number.arrayLength? requested with
  | some n =>
    if n ≤ items.length ∨ n ≤ limit then setLength s n else Act.fail (.conversion .invalidLength)
  | none => Act.fail (.conversion .invalidLength)

theorem assignLength_of_length {s : SequenceId} {d : Double} {n : Nat} {w : World}
    (is : Number.arrayLength? d = some n)
    (allowed : n ≤ (w.heap.sequence s).length ∨ n ≤ w.config.maxArrayLength) :
    assignLength s d w = setLength s n w := by
  rw [assignLength, Act.elements, Act.read_bind, Act.read_bind, is]
  exact congrArg (Act.run · w) (if_pos allowed)

theorem assignLength_of_no_length {s : SequenceId} {d : Double} {w : World}
    (none : ∀ n, Number.arrayLength? d = some n →
      ¬(n ≤ (w.heap.sequence s).length ∨ n ≤ w.config.maxArrayLength)) :
    assignLength s d w = (.failure (.conversion .invalidLength), w) := by
  rw [assignLength, Act.elements, Act.read_bind, Act.read_bind]
  cases is : Number.arrayLength? d with
  | none => rfl
  | some n => exact congrArg (Act.run · w) (if_neg (none n is))

/-- The slot a key of a property access names: a word without its canonical form being asked for. -/
def slotOfKey? (key : String) : Option Nat := Number.word? 10 key.toList

end ScriptBridge.Sequence
