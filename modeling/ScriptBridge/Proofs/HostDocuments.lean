import ScriptBridge.Proofs.Nesting
import ScriptBridge.Value.Json

/-!
The documents that the host makes of values in which nothing contains itself. How many levels are
allowed does not show in them, so the document of a container is made of those of what it holds.
-/

namespace ScriptBridge

theorem documents_congr {f g : Value → Option Json} {items : List Value}
    (same : ∀ item ∈ items, f item = g item) :
    items.map (fun item => (f item).getD .null) = items.map (fun item => (g item).getD .null) := by
  refine List.map_congr_left fun item mem => ?_
  rw [same item mem]

theorem members_congr {f g : Value → Option Json} {entries : List (String × Value)}
    (same : ∀ e ∈ entries, f e.2 = g e.2) :
    entries.filterMap (fun e => (f e.2).map (e.1, ·)) =
      entries.filterMap (fun e => (g e.2).map (e.1, ·)) := by
  refine List.filterMap_congr fun e mem => ?_
  rw [same e mem]

namespace Heap.Grounded

variable {h : Heap} {v inner : Value} {s : SequenceId} {p : PlainId}

/-- More levels than are enough make no difference to the document of a value. -/
theorem jsonWithin_eq (grounded : h.Grounded v) : ∀ {level level'}, h.Enough v level →
    h.Enough v level' → h.jsonWithin level v = h.jsonWithin level' v := by
  induction grounded with
  | intro v children ih =>
    intro level level' enough enough'
    have grounded : h.Grounded v := .intro v children
    obtain ⟨level, rfl⟩ := enough.exists_succ
    obtain ⟨level', rfl⟩ := enough'.exists_succ
    have same {inner : Value} (holds : h.Holds v inner) :
        h.jsonWithin level inner = h.jsonWithin level' inner :=
      ih inner holds (enough.inside grounded holds) (enough'.inside grounded holds)
    cases v with
    | sequence s =>
      exact congrArg (fun items => some (Json.array items)) (documents_congr fun _ mem => same mem)
    | plain p =>
      exact congrArg (fun members => some (Json.object (Json.sortMembers members)))
        (members_congr fun _ mem => same (List.mem_map_of_mem mem))
    | _ => rfl

/-- What lies in a value has the document there that it has by itself. -/
theorem jsonWithin_child (grounded : h.Grounded v) (holds : h.Holds v inner) :
    h.jsonWithin (h.sequences.size + h.plains.size) inner = h.json inner :=
  (grounded.child holds).jsonWithin_eq ((h.enough_depthBound v).inside grounded holds)
    (h.enough_depthBound inner)

theorem json_sequence (grounded : h.Grounded (.sequence s)) :
    h.json (.sequence s) =
      some (.array ((h.sequence s).map fun item => (h.json item).getD .null)) :=
  congrArg (fun items => some (Json.array items))
    (documents_congr fun _ mem => grounded.jsonWithin_child mem)

theorem json_plain (grounded : h.Grounded (.plain p)) :
    h.json (.plain p) = some (.object (Json.sortMembers
      ((h.plain p).toList.filterMap fun e => (h.json e.2).map (e.1, ·)))) :=
  congrArg (fun members => some (Json.object (Json.sortMembers members)))
    (members_congr fun _ mem => grounded.jsonWithin_child (List.mem_map_of_mem mem))

end Heap.Grounded

end ScriptBridge
