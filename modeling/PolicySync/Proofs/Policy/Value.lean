import PolicySync.Policy.Value
import PolicySync.Proofs.Data.SortedMap

/-!
# Values that are text

Texts are the same value only when they are the same text. An object whose keys are texts is a map:
the last of several fields with one key is kept, and fields that are in order stay as they are.
-/

namespace PolicySync.Policy.Value

theorem same_string (s : String) : same (.string s) (.string s) = true := by
  change decide (compare s s = .eq) = true
  simp

private theorem cmp_string_lt {a b : String} (h : a < b) : cmp (.string a) (.string b) = .lt := by
  change compareOfLessAndEq a b = .lt
  rw [compareOfLessAndEq, if_pos h]

private theorem cmp_string_gt {a b : String} (h : b < a) : cmp (.string a) (.string b) = .gt := by
  change compareOfLessAndEq a b = .gt
  have hlt : ¬ a < b := fun hab => String.lt_irrefl _ (String.lt_trans hab h)
  have hne : a ≠ b := fun hab => String.lt_irrefl b (hab ▸ h)
  rw [compareOfLessAndEq, if_neg hlt, if_neg hne]

/-- A field under a text. -/
def textField (e : String × Value) : Value × Value := (.string e.1, e.2)

private theorem insertField_string (key : String) (v : Value) (entries : List (String × Value)) :
    insertField (.string key) v (entries.map textField) =
      (insertEntry key v entries).map textField := by
  induction entries with
  | nil => rfl
  | cons e rest ih =>
    obtain ⟨k, w⟩ := e
    by_cases hlt : key < k
    · have hcmp := cmp_string_lt hlt
      simp [insertEntry, insertField, textField, hlt, hcmp]
    by_cases heq : key = k
    · subst heq
      have hcmp : cmp (.string key) (.string key) = .eq := by
        simpa [same] using same_string key
      simp [insertEntry, insertField, textField, hcmp]
    · have hgt : k < key := Std.lt_of_le_of_ne (String.not_lt.mp hlt) (Ne.symm heq)
      have hcmp := cmp_string_gt hgt
      simp [insertEntry, insertField, textField, hlt, heq, hcmp] at ih ⊢
      exact ih

/-- An object with texts for keys is a map with these keys. -/
theorem objectOf_textFields (entries : List (String × Value)) :
    objectOf (entries.map textField) =
      .object ((SortedMap.ofList entries).entries.map textField) := by
  suffices hfold : ∀ m : SortedMap Value,
      (entries.map textField).foldl (fun o f => insertField f.1 f.2 o) (m.entries.map textField) =
        (entries.foldl (fun m e => m.insert e.1 e.2) m).entries.map textField from
    congrArg Value.object (hfold .empty)
  induction entries with
  | nil => intro m; rfl
  | cons e rest ih =>
    intro m
    have hinsert : insertField (.string e.1) e.2 (m.entries.map textField) =
        (m.insert e.1 e.2).entries.map textField := insertField_string e.1 e.2 m.entries
    rw [List.map_cons, List.foldl_cons, List.foldl_cons, ← ih]
    exact congrArg (List.foldl _ · _) hinsert

/-- An object with texts for keys keeps fields that ascend as they are. -/
theorem objectOf_ascending {α : Type} {entries : List (String × α)} (value : String × α → Value)
    (h : entries.Pairwise fun a b => a.1 < b.1) :
    objectOf (entries.map fun e => (.string e.1, value e)) =
      .object (entries.map fun e => (.string e.1, value e)) := by
  have hsorted : (entries.map fun e => (e.1, value e)).Pairwise fun a b => a.1 < b.1 := by
    rwa [List.pairwise_map]
  have hobject := objectOf_textFields (entries.map fun e => (e.1, value e))
  rw [SortedMap.entries_ofList hsorted, List.map_map] at hobject
  exact hobject

end PolicySync.Policy.Value
