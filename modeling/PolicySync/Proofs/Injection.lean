import PolicySync.Proofs.Labels.Module
import PolicySync.Proofs.Selectors.Module

/-!
# Generated modules hold nothing but their template

Ids, labels and selectors are text that a user chooses. Whatever they hold, the modules that are
written for them compile to the template with literals in its holes: no text ends its literal early,
and none adds a rule, an import, a statement or a call. An id that needs escapes between quotes is
not put into the package as it is, but as it is written.
-/

namespace PolicySync

open PolicySync.Policy PolicySync.Text

/-- The modules generated for an id are refused when the id is a reserved word, and else they are
the template. Their packages name the id exactly when no character of it needs an escape. -/
theorem generated_modules (id : String) (labels : Labels) (s : Selectors) :
    compile [(Labels.fragment, Labels.render id labels)] =
        (if reservedWords.contains id then .error (.malformed Labels.fragment)
        else .ok ⟨.singleton Labels.fragment (Labels.module id labels), [],
          [Labels.tree id labels]⟩) ∧
      compile [(Selectors.fragment, Selectors.render id s), matchHelperFragment] =
        (if reservedWords.contains id then .error (.malformed Selectors.fragment)
        else .ok ⟨.ofList [(matchHelperFragment.1, Selectors.helperModule),
          (Selectors.fragment, Selectors.module id s)], Selectors.locals,
          [Selectors.tree id s, Selectors.helperTree]⟩) ∧
      (Labels.module id labels).rules.flatMap Rule.calls = [] ∧
      ((Labels.module id labels).packagePath? = some ["metadata", id, "labels"] ↔
        id.toList.all Quoted.isPlain = true) ∧
      ((Selectors.module id s).packagePath? = some ["stacks", id, "selectors"] ↔
        id.toList.all Quoted.isPlain = true) :=
  ⟨Labels.compile_render id labels, Selectors.compile_render id s, Labels.calls_module id labels,
    Labels.packagePath?_module id labels, Selectors.packagePath?_module id s⟩

/-- A quote in an id is in the package with its escape. -/
theorem generated_modules_quote :
    compile [(Labels.fragment, Labels.render "a\"b" .empty)] =
        .ok ⟨.singleton Labels.fragment (Labels.module "a\"b" .empty), [],
          [Labels.tree "a\"b" .empty]⟩ ∧
      (Labels.module "a\"b" .empty).packagePath? = some ["metadata", "a\\\"b", "labels"] ∧
      (Labels.module "a\"b" .empty).packagePath? ≠ some ["metadata", "a\"b", "labels"] := by
  have hpath : (Labels.module "a\"b" .empty).packagePath? =
      some ["metadata", "a\\\"b", "labels"] := by
    decide
  refine ⟨?_, hpath, ?_⟩
  · rw [Labels.compile_render]
    rfl
  · rw [hpath]
    decide

end PolicySync
