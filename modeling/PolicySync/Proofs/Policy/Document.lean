import PolicySync.Policy.Document
import PolicySync.Proofs.Policy.Value

/-!
# Documents under a path

A change of what stands alone under a path is a change of that and of nothing else, and it is found
there again.
-/

namespace PolicySync.Policy.Document

/-- A document under keys, with nothing beside it. -/
def under : List String → Document → Document
  | [], d => d
  | key :: keys, d => .folder [(.string key, under keys d)]

theorem update_under (change : Option Document → Option Document) (path : List String)
    (rest : List Value) (d : Document) :
    update change (path.map .string ++ rest) (some (under path d)) =
      (update change rest (some d)).map (under path) := by
  induction path with
  | nil => simp [under]
  | cons key keys ih =>
    rw [List.map_cons, List.cons_append, under, update]
    simp only [field?, List.find?_cons, Value.same_string, Option.map_some, ih, setField, if_true]
    cases update change rest (some d) <;> rfl

theorem update_none (change : Option Document → Option Document) (path : List String) :
    update change (path.map .string) none = (change none).map (under path) := by
  induction path with
  | nil => simp [update, under]
  | cons key keys ih =>
    rw [List.map_cons, update, ih]
    cases change none <;> rfl

theorem get?_under (path rest : List String) (d : Document) :
    get? (path ++ rest) (under path d) = get? rest d := by
  induction path with
  | nil => rfl
  | cons key keys ih =>
    rw [List.cons_append, under, get?]
    simp only [field?, List.find?_cons, Value.same_string, Option.map_some, Option.bind_some, ih]

end PolicySync.Policy.Document
