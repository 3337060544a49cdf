import PolicySync.Proofs.Labels.Module
import PolicySync.Proofs.Policy.Value

/-!
# Labels are read back

The query for the labels of a system leads to the rule that was written for it, and evaluating that
gives the labels.
-/

namespace PolicySync.Labels

open PolicySync.Policy PolicySync.Text

def value (labels : Labels) : Value :=
  .object (labels.entries.map fun e => (.string e.1, .string e.2))

theorem literal_evaluates (labels : Labels) : Evaluates (literal labels) labels.value := by
  have hobject := Value.objectOf_ascending (fun e : String × String => Value.string e.2)
    labels.sorted
  rw [value, ← hobject]
  exact Evaluates.object fun e _ => ⟨Evaluates.quoted _ _, Evaluates.quoted _ _⟩

theorem ofRow_value (labels : Labels) : ofRow [labels.value] = labels.entries := by
  simp [ofRow, value, ofFields, List.filterMap_map]

/-- Labels are read back from the text that is written for them, unless the id is a reserved word.
An id that is written with escapes hides its labels: the module is then found under another name. -/
theorem decode_render (id : String) (labels : Labels) :
    decode id (render id labels) =
      if reservedWords.contains id then .error (.malformed fragment)
      else if id.toList.all Quoted.isPlain then .ok labels else .ok .empty := by
  have hparse := parse?_render id labels
  split
  · next hres =>
    rw [decode, compile_render, if_pos hres]
    rfl
  · next hres =>
    rw [if_neg hres] at hparse
    have hdecode : decode id (render id labels) = _ :=
      decode_rule true hparse (by simpa using hres) (literal_inert labels)
        (literal_evaluates labels) rfl
    rw [hdecode, ofRow_value, SortedMap.ofList_entries]

/-- Labels of a resource are read back as they were: nothing is dropped, added or altered. -/
theorem labels_roundTrip {id : String} (h : IsResourceName id) (labels : Labels) :
    decode id (render id labels) = .ok labels := by
  rw [decode_render, h.unreserved, if_neg Bool.false_ne_true,
    if_pos h.plain]

theorem labels_roundTrip_web :
    IsResourceName "web-1.a" ∧
      decode "web-1.a" (render "web-1.a" (.ofList [("", "\""), ("\\", "\n"), ("𝄞", "")])) =
        .ok (.ofList [("", "\""), ("\\", "\n"), ("𝄞", "")]) :=
  ⟨by decide, labels_roundTrip (by decide) _⟩

/-- The labels of one resource are not read as those of another. -/
theorem decode_render_of_ne {a b : String} (hres : reservedWords.contains a = false)
    (hplain : a.toList.all Quoted.isPlain = true) (hne : a ≠ b) (labels : Labels) :
    decode b (render a labels) = .ok .empty := by
  have hparse := parse?_render a labels
  rw [hres, if_neg Bool.false_ne_true] at hparse
  exact decode_rule_of_ne true hparse (literal_inert labels) hplain hne

end PolicySync.Labels
