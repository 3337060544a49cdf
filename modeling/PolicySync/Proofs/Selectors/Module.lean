import PolicySync.Proofs.Data.SortedMap
import PolicySync.Proofs.Policy.Compile
import PolicySync.Proofs.Policy.Inert
import PolicySync.Proofs.Selectors.Template

/-!
# The compiled module of selectors

The text that is written for selectors compiles, next to the matching helper, to one rule whose body
has four clauses, unless the id is a reserved word. Its three variables are renamed.
-/

namespace PolicySync

open PolicySync.Policy PolicySync.Text

namespace Selector

/-- The object that holds the sets of a selector, as a term. -/
def term (s : Selector) : Term :=
  .object (s.entries.map fun e => (.string e.1, .set (e.2.map .string)))

theorem literal_inert (s : Selector) : (literal s).Inert := by
  refine Expr.Inert.object fun f hf => ?_
  obtain ⟨e, -, rfl⟩ := List.mem_map.mp hf
  refine ⟨Expr.Inert.quoted _ _, Expr.Inert.set fun v hv => ?_⟩
  obtain ⟨w, -, rfl⟩ := List.mem_map.mp hv
  exact Expr.Inert.quoted _ _

private theorem termsOfExprs_quoted (values : List String) :
    termsOfExprs (values.map quotedExpr) = values.map .string := by
  induction values with
  | nil => rfl
  | cons v rest ih => rw [List.map_cons, termsOfExprs, ih]; rfl

theorem ofExpr_literal (s : Selector) : Term.ofExpr (literal s) = s.term := by
  rw [literal, Term.ofExpr, term]
  congr 1
  induction s.entries with
  | nil => rfl
  | cons e rest ih =>
    have hvalue : Term.ofExpr (.set (e.2.map quotedExpr)) = .set (e.2.map .string) := by
      rw [← termsOfExprs_quoted]
      rfl
    rw [List.map_cons, fieldsOfExprs, ih, hvalue]
    rfl

end Selector

namespace Selectors

/-- The statement that binds the n-th declaration of a body to a term. -/
def bindingClause (n : Nat) (t : Term) : Clause :=
  .mk false (.call [.ref [.var "assign"], .var (localName n), t]) []

/-- The body of the rule once its variables are renamed. -/
def clauses (s : Selectors) : Body :=
  [bindingClause 0 s.incl.term, bindingClause 1 s.excl.term,
    bindingClause 2 (.ref [.var "data", .string "metadata", .var "system_id"]),
    .mk false (.call [.ref [.var "match", .string "all"],
      .ref [.var (localName 2), .string "labels", .string "labels"], .var (localName 0),
      .var (localName 1)]) []]

/-- The view of the module with a body of its rule. -/
def moduleWith (id : String) (body : Body) : Module where
  package := [.var "stacks", .string (Quoted.escape id), .string "selectors"]
  imports :=
    [⟨[.var "data", .string "library", .string "v1", .string "utils", .string "labels",
        .string "match", .string "v1"], some "match"⟩,
      ⟨[.var "rego", .string "v1"], none⟩]
  rules := [{ name := rule, isDefault := false, args := [], key := some (.var "system_id"),
              value := none, bodies := [body] }]

def module (id : String) (s : Selectors) : Module := moduleWith id (clauses s)

/-- The view of the module in either dialect, with a body of its rule. -/
def dialectModule (newer : Bool) (id : String) (body : Body) : Module :=
  { moduleWith id body with
    imports := ⟨[.var "data", .string "library", .string "v1", .string "utils", .string "labels",
      .string "match", .string "v1"], some "match"⟩ ::
        if newer then [⟨[.var "rego", .string "v1"], none⟩] else [] }

def locals : Locals := ["include", "exclude", "metadata"]

def helperModule : Module := Module.ofTree helperTree

/-- The body of the rule as it is written. -/
def writtenClauses (s : Selectors) : Body :=
  [.mk false (.call [.ref [.var "assign"], .var "include", s.incl.term]) [],
    .mk false (.call [.ref [.var "assign"], .var "exclude", s.excl.term]) [],
    .mk false (.call [.ref [.var "assign"], .var "metadata",
      .ref [.var "data", .string "metadata", .var "system_id"]]) [],
    .mk false (.call [.ref [.var "match", .string "all"],
      .ref [.var "metadata", .string "labels", .string "labels"], .var "include",
      .var "exclude"]) []]

private theorem clausesOfStmts_body (s : Selectors) :
    clausesOfStmts (body s) = writtenClauses s := by
  change [Clause.mk false (.ofTerm (.call [_, _, Term.ofExpr s.incl.literal])) _,
    Clause.mk false (.ofTerm (.call [_, _, Term.ofExpr s.excl.literal])) _, _, _] = _
  rw [Selector.ofExpr_literal, Selector.ofExpr_literal]
  rfl

theorem ofTree_tree (newer : Bool) (id : String) (s : Selectors) :
    Module.ofTree (dialectTree newer id s) = dialectModule newer id (writtenClauses s) := by
  change Policy.Module.mk _ _ [Rule.mk _ _ _ _ _ [clausesOfStmts (body s)]] = _
  rw [clausesOfStmts_body]
  cases newer <;> rfl

/-- The names in force at the end of the body. -/
def scope : Scope :=
  [("metadata", localName 2), ("exclude", localName 1), ("include", localName 0)]

private theorem rename_clauses (s : Selectors) :
    renameBody [] (writtenClauses s) [] = (clauses s, scope, locals) := by
  have hincl := (Selector.literal_inert s.incl).rename
  have hexcl := (Selector.literal_inert s.excl).rename
  rw [Selector.ofExpr_literal] at hincl hexcl
  simp only [writtenClauses, renameBody, Clause.rename, Payload.rename, hincl, hexcl,
    renameModifiers, Term.declare, Term.rename, renameTerms]
  rfl

private theorem rename_written (newer : Bool) (id : String) (s : Selectors) :
    (dialectModule newer id (writtenClauses s)).rename [] =
      (dialectModule newer id (clauses s), locals) := by
  simp only [dialectModule, moduleWith, Module.rename, renameRules, Rule.rename, rename_clauses]
  rfl

private theorem calls_written (s : Selectors) :
    callsOfBody (writtenClauses s) = [
      [.ref [.var "assign"], .var "include", s.incl.term],
      [.ref [.var "assign"], .var "exclude", s.excl.term],
      [.ref [.var "assign"], .var "metadata",
        .ref [.var "data", .string "metadata", .var "system_id"]],
      [.ref [.var "match", .string "all"],
        .ref [.var "metadata", .string "labels", .string "labels"], .var "include",
        .var "exclude"]] := by
  have hincl := (Selector.literal_inert s.incl).calls
  have hexcl := (Selector.literal_inert s.excl).calls
  rw [Selector.ofExpr_literal] at hincl hexcl
  simp [writtenClauses, callsOfBody, Clause.calls, Payload.calls, callsOfTerms,
    callsOfModifiers, Term.calls, hincl, hexcl]

/-- The fragments of a selectors module in the order of their names. -/
theorem entries_lower (tree : ModuleTree) :
    (lowerFragments [(fragment, tree), (matchHelperFragment.1, helperTree)]).entries =
      [(matchHelperFragment.1, helperModule), (fragment, Module.ofTree tree)] := by
  have hlt : matchHelperFragment.1 < fragment := by decide
  exact SortedMap.entries_ofList_swap hlt

theorem readFragments_helper {source : String} {tree : ModuleTree}
    (hparse : ModuleTree.parse? source = some tree) :
    readFragments [(fragment, source), matchHelperFragment] =
      .ok [(fragment, tree), (matchHelperFragment.1, helperTree)] := by
  have hhelper : readFragments [matchHelperFragment] =
      .ok [(matchHelperFragment.1, helperTree)] := readFragments_cons parse?_helper rfl
  exact readFragments_cons hparse hhelper

private theorem undefinedCall?_lower (newer : Bool) (id : String) (s : Selectors) :
    undefinedCall? (lowerFragments [(fragment, dialectTree newer id s),
      (matchHelperFragment.1, helperTree)]) = none := by
  refine undefinedCall?_eq_none fun e he => ?_
  rw [entries_lower, ofTree_tree] at he ⊢
  rcases List.mem_cons.mp he with rfl | he
  · exact Module.undefinedCall?_of_no_calls rfl
  · rw [List.mem_singleton] at he
    subst he
    have hcalls : (dialectModule newer id (writtenClauses s)).rules.flatMap Rule.calls =
        callsOfBody (writtenClauses s) := by
      simp [dialectModule, moduleWith, Rule.calls, callsOfTerms, Term.calls]
    -- `match` stands for the package of the helper, which has a rule `all`
    rw [Module.undefinedCall?, hcalls, calls_written]
    cases newer <;> rfl

/-- What is read as the module of selectors, in either dialect, compiles next to the helper. -/
theorem compile_dialect {source id : String} {s : Selectors} (newer : Bool)
    (hparse : ModuleTree.parse? source = some (dialectTree newer id s)) :
    compile [(fragment, source), matchHelperFragment] =
      .ok ⟨.ofList [(matchHelperFragment.1, helperModule),
        (fragment, dialectModule newer id (clauses s))], locals,
        [dialectTree newer id s, helperTree]⟩ := by
  refine compile_of_read (readFragments_helper hparse) (undefinedCall?_lower newer id s) ?_
  have hhelper : helperModule.rename [] = (helperModule, []) := rfl
  rw [entries_lower, ofTree_tree]
  simp only [renameModules, hhelper, rename_written]

/-- What is written for selectors is refused for an id that is a reserved word, and else compiles to
the module meant. -/
theorem compile_render (id : String) (s : Selectors) :
    compile [(fragment, render id s), matchHelperFragment] =
      if reservedWords.contains id then .error (.malformed fragment)
      else .ok ⟨.ofList [(matchHelperFragment.1, helperModule), (fragment, module id s)], locals,
        [tree id s, helperTree]⟩ := by
  have hparse := parse?_render id s
  split
  · next hres =>
    rw [if_pos hres] at hparse
    exact compile_of_unread (readFragments_malformed hparse)
  · next hres =>
    rw [if_neg hres] at hparse
    exact compile_dialect true hparse

theorem packagePath?_module (id : String) (s : Selectors) :
    (module id s).packagePath? = some ["stacks", id, "selectors"] ↔
      id.toList.all Quoted.isPlain = true :=
  refSegments?_escape

end Selectors

end PolicySync
