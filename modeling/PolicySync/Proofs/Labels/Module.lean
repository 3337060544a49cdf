import PolicySync.Proofs.Labels.Template

/-!
# The compiled module of labels

The text that is written for labels compiles to one rule with the labels as its value, unless the id
is a reserved word. It calls nothing, and no variable is renamed in it.
-/

namespace PolicySync.Labels

open PolicySync.Policy PolicySync.Text

def module (id : String) (labels : Labels) : Module where
  package := [.var "metadata", .string (Quoted.escape id), .string "labels"]
  imports := [⟨[.var "rego", .string "v1"], none⟩]
  rules := [{ name := "labels", isDefault := false, args := [], key := none,
              value := some (.object (labels.entries.map fun e => (.string e.1, .string e.2))),
              bodies := [] }]

theorem literal_inert (labels : Labels) : (literal labels).Inert := by
  refine Expr.Inert.object fun f hf => ?_
  obtain ⟨e, -, rfl⟩ := List.mem_map.mp hf
  exact ⟨Expr.Inert.quoted _ _, Expr.Inert.quoted _ _⟩

private theorem ofExpr_literal (labels : Labels) :
    Term.ofExpr (literal labels) =
      .object (labels.entries.map fun e => (.string e.1, .string e.2)) := by
  rw [literal, Term.ofExpr]
  congr 1
  induction labels.entries with
  | nil => rfl
  | cons e rest ih => rw [List.map_cons, fieldsOfExprs, ih]; rfl

theorem ofTree_tree (id : String) (labels : Labels) :
    Module.ofTree (tree id labels) = module id labels := by
  change Policy.Module.mk _ _ [Rule.mk _ _ _ _ (some (Term.ofExpr (literal labels))) _] = _
  rw [ofExpr_literal]
  rfl

theorem calls_module (id : String) (labels : Labels) :
    (module id labels).rules.flatMap Rule.calls = [] := by
  rw [← ofTree_tree]
  exact calls_ruleModule true (literal_inert labels)

/-- What is written for labels is refused for an id that is a reserved word, and else compiles to
the module meant. -/
theorem compile_render (id : String) (labels : Labels) :
    compile [(fragment, render id labels)] =
      if reservedWords.contains id then .error (.malformed fragment)
      else .ok ⟨.singleton fragment (module id labels), [], [tree id labels]⟩ := by
  have hparse := parse?_render id labels
  split
  · next hres =>
    rw [if_pos hres] at hparse
    exact compile_of_unread (readFragments_malformed hparse)
  · next hres =>
    rw [if_neg hres] at hparse
    rw [← ofTree_tree]
    exact compile_rule true hparse (literal_inert labels)

theorem packagePath?_module (id : String) (labels : Labels) :
    (module id labels).packagePath? = some ["metadata", id, "labels"] ↔
      id.toList.all Quoted.isPlain = true :=
  refSegments?_escape

end PolicySync.Labels
