import PolicySync.Proofs.Selectors.Module

/-!
# Selectors are read back

The two bindings of the compiled rule are found under the names that were written, and their terms
hold the selectors.
-/

namespace PolicySync

open PolicySync.Policy PolicySync.Text

theorem Selector.ofFields_term (s : Selector) :
    Selector.ofFields (s.entries.map fun e => (.string e.1, .set (e.2.map .string))) = s := by
  have hmembers (values : List String) : stringMembers (values.map .string) = values := by
    simp [stringMembers, List.filterMap_map]
  simp [ofFields, List.filterMap_map, hmembers]

namespace Selectors

/-- The rule is that of the fragment of the selectors. -/
theorem rule?_compiled {m : Module} {locals : Locals} {trees : List ModuleTree} :
    Compiled.rule? ⟨.ofList [(matchHelperFragment.1, helperModule), (fragment, m)], locals, trees⟩
      fragment rule = m.rule? rule := by
  have hlt : matchHelperFragment.1 < fragment := by decide
  have hget : (SortedMap.ofList [(matchHelperFragment.1, helperModule),
      (fragment, m)]).get? fragment = some m := by
    refine SortedMap.get?_eq_some.mpr ?_
    rw [SortedMap.entries_ofList (by simpa using hlt)]
    simp
  change ((SortedMap.ofList [_, _]).get? fragment).bind _ = _
  rw [hget]
  rfl

/-- Selectors are read back from what is read as their module, in either dialect. -/
theorem decode_dialect {source id : String} {s : Selectors} (newer : Bool)
    (hparse : ModuleTree.parse? source = some (dialectTree newer id s)) :
    decode source = .ok s := by
  rw [decode, compile_dialect newer hparse]
  change Except.ok (extract _) = _
  rw [extract, rule?_compiled]
  change Except.ok (Selectors.mk (Selector.ofFields _) (Selector.ofFields _)) = _
  rw [Selector.ofFields_term, Selector.ofFields_term]

/-- Selectors are read back from the text that is written for them, for every id that the policy
language does not reserve. -/
theorem decode_render (id : String) (s : Selectors) :
    decode (render id s) =
      if reservedWords.contains id then .error (.malformed fragment) else .ok s := by
  have hparse := parse?_render id s
  split
  · next hres =>
    rw [decode, compile_render, if_pos hres]
    rfl
  · next hres =>
    rw [if_neg hres] at hparse
    exact decode_dialect true hparse

/-- Selectors of a resource are read back as they were: every list in its order and with its
duplicates, an empty list under its key, and each group by itself. -/
theorem selectors_roundTrip {id : String} (h : IsResourceName id) (s : Selectors) :
    decode (render id s) = .ok s := by
  rw [decode_render, h.unreserved, if_neg Bool.false_ne_true]

theorem selectors_roundTrip_web :
    IsResourceName "web-1.a" ∧
      decode (render "web-1.a" ⟨.ofList [("a", ["x", "\"", "x"]), ("b", [])], .ofList [("a", [])]⟩) =
        .ok ⟨.ofList [("a", ["x", "\"", "x"]), ("b", [])], .ofList [("a", [])]⟩ :=
  ⟨by decide, selectors_roundTrip (by decide) _⟩

end Selectors

end PolicySync
