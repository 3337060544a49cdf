import PolicySync.Proofs.Policy.LocalName
import PolicySync.Proofs.Selectors.RoundTrip

/-!
# Modules with one selectors rule

A selectors rule binds its two groups, in either order, and may go on with what the groups are there
for. Whatever the groups are written as, the text of such a module is read as that rule, and the
selectors in it are the objects that the two names are bound to.
-/

namespace PolicySync.Selectors

open PolicySync.Policy PolicySync.Text

/-- How the body of a selectors rule goes on after its groups. -/
inductive Ending where
  /-- Nothing follows. -/
  | bare
  /-- The system is given by name. -/
  | named (system : String)
  /-- The labels of the system are matched against both groups. -/
  | matched

namespace Ending

/-- The first token after the groups. -/
def first : Ending → Token
  | .bare => .symbol .braceClose
  | .named _ => .name "system_id"
  | .matched => .name "metadata"

/-- The lexemes after the first token, up to the brace. -/
def others : Ending → List Lexeme
  | .bare => []
  | .named system =>
    [.apart (.symbol .declare), .apart (quotedToken system), .fresh "\n" (.symbol .braceClose)]
  | .matched => tailLexemes.tail

def lexemes (ending : Ending) (before : String) : List Lexeme :=
  .fresh before ending.first :: ending.others

def stmts : Ending → Query
  | .bare => []
  | .named system =>
    [.mk (.expr false (.assign .declare (.var "system_id") (quotedExpr system))) []]
  | .matched => [metadataStmt, matchStmt]

def imports : Ending → List ImportDecl
  | .matched => [matchImport, newerImport]
  | _ => [newerImport]

/-- The imports, and the rule up to its body. -/
def headLexemes : Ending → List Lexeme
  | .matched => Selectors.headLexemes
  | _ => [.fresh "\n\n" (.name "import"), .apart (.name "rego")] ++ dotted ["v1"] ++ ruleLexemes

theorem readMoreStmts_lexemes (ending : Ending) (before : String) (fuel : Nat) :
    readMoreStmts newerKeywords (fuel + 30) (.symbol .braceClose) (ending.lexemes before) =
      some (ending.stmts, []) := by
  cases ending with
  | bare => rfl
  | named system => rfl
  | matched => exact readMoreStmts_tail true before fuel

end Ending

/-- The names of the groups in the order in which they are bound. -/
def AreGroups (first second : String) : Prop :=
  first = "include" ∧ second = "exclude" ∨ first = "exclude" ∧ second = "include"

theorem AreGroups.first_eq {first second : String} (h : AreGroups first second) :
    first = "include" ∨ first = "exclude" := h.imp And.left And.left

theorem AreGroups.second_eq {first second : String} (h : AreGroups first second) :
    second = "include" ∨ second = "exclude" := by
  rcases h with ⟨-, h⟩ | ⟨-, h⟩
  · exact .inr h
  · exact .inl h

def groupLexemes (before name : String) (vs : List Lexeme) : List Lexeme :=
  .fresh before (.name name) :: .apart (.symbol .declare) :: vs

/-- The statement that binds a group. -/
def groupStmt (name : String) (e : Expr) : Stmt :=
  .mk (.expr false (.assign .declare (.var name) e)) []

/-- The module whose rule binds two groups. -/
def ruleTree (id : String) (ending : Ending) (first second : String) (e₁ e₂ : Expr) :
    ModuleTree where
  package := ⟨"stacks", [Quoted.escape id, "selectors"]⟩
  imports := ending.imports
  strict := true
  rules := [.rule (.set (.var rule) (.var "system_id"))
    [⟨none, groupStmt first e₁ :: groupStmt second e₂ :: ending.stmts⟩]]

section

variable {id first second before₁ before₂ before₃ source : String} {ending : Ending} {e₁ e₂ : Expr}
  {vs₁ vs₂ : List Lexeme}

private theorem readMoreStmts_second (hsecond : second = "include" ∨ second = "exclude")
    (h₂ : ReadsTerm newerKeywords vs₂ e₂) {fuel : Nat}
    (hfuel : 10 * (vs₂.length + 3) + 10 ≤ fuel) :
    readMoreStmts newerKeywords fuel (.symbol .braceClose)
        (groupLexemes before₂ second vs₂ ++ ending.lexemes before₃) =
      some (groupStmt second e₂ :: ending.stmts, []) := by
  obtain ⟨fuel, rfl⟩ : ∃ n, fuel = n + 32 := ⟨fuel - 32, by omega⟩
  have hends : endsTerm (ending.lexemes before₃) = true := by
    cases ending <;> rfl
  have hcomma : expect .comma (ending.lexemes before₃) = none := by
    cases ending <;> rfl
  have hwith : expectWord "with" (ending.lexemes before₃) = none := by
    cases ending <;> rfl
  have hstmt : readStmt newerKeywords (fuel + 30)
      (groupLexemes before₂ second vs₂ ++ ending.lexemes before₃) =
        some (groupStmt second e₂, ending.lexemes before₃) :=
    Selector.readStmt_declare true hsecond h₂ hends hcomma hwith (by omega)
  change ((readStmt _ (fuel + 30)
    (groupLexemes before₂ second vs₂ ++ ending.lexemes before₃)).bind _) = _
  rw [hstmt]
  change ((readMoreStmts _ (fuel + 30) _ (ending.lexemes before₃)).bind _) = _
  rw [ending.readMoreStmts_lexemes]
  rfl

private theorem readRule_groups (hgroups : AreGroups first second)
    (h₁ : ReadsTerm newerKeywords vs₁ e₁) (h₂ : ReadsTerm newerKeywords vs₂ e₂) :
    readRule newerKeywords (ruleLexemes ++ (groupLexemes before₁ first vs₁ ++
        (groupLexemes before₂ second vs₂ ++ ending.lexemes before₃))) =
      some (.rule (.set (.var rule) (.var "system_id"))
        [⟨none, groupStmt first e₁ :: groupStmt second e₂ :: ending.stmts⟩], []) := by
  have hsecond := hgroups.second_eq
  have hends : endsTerm (groupLexemes before₂ second vs₂ ++ ending.lexemes before₃) = true := by
    rcases hsecond with rfl | rfl <;> rfl
  have hwith : expectWord "with" (groupLexemes before₂ second vs₂ ++ ending.lexemes before₃) =
      none := by
    rcases hsecond with rfl | rfl <;> rfl
  have hstmt : readStmt newerKeywords
      (callBound (groupLexemes before₁ first vs₁ ++
        (groupLexemes before₂ second vs₂ ++ ending.lexemes before₃)))
      (groupLexemes before₁ first vs₁ ++
        (groupLexemes before₂ second vs₂ ++ ending.lexemes before₃)) = _ :=
    Selector.readStmt_declare true hgroups.first_eq h₁ hends rfl hwith (by
      simp only [callBound, groupLexemes, List.length_append, List.length_cons]
      omega)
  have hmore : readMoreStmts newerKeywords
      (callBound (groupLexemes before₂ second vs₂ ++ ending.lexemes before₃)) (.symbol .braceClose)
      (groupLexemes before₂ second vs₂ ++ ending.lexemes before₃) = _ :=
    readMoreStmts_second hsecond h₂ (by
      simp only [callBound, groupLexemes, Ending.lexemes, List.length_append, List.length_cons]
      omega)
  exact readRule_block hstmt rfl rfl hmore rfl

/-- The lexemes of a module that binds two groups are read as that module. -/
theorem readModule_groups (hgroups : AreGroups first second)
    (hres : reservedWords.contains id = false)
    (h₁ : ReadsTerm newerKeywords vs₁ e₁) (h₂ : ReadsTerm newerKeywords vs₂ e₂) :
    readModule (packageLine "stacks" id "selectors" ++ (ending.headLexemes ++
        (groupLexemes before₁ first vs₁ ++
          (groupLexemes before₂ second vs₂ ++ ending.lexemes before₃)))) =
      some (ruleTree id ending first second e₁ e₂) := by
  have hrule : readRule newerKeywords (ruleLexemes ++ (groupLexemes before₁ first vs₁ ++
      (groupLexemes before₂ second vs₂ ++ ending.lexemes before₃))) = _ :=
    readRule_groups hgroups h₁ h₂
  generalize groupLexemes before₁ first vs₁ ++
    (groupLexemes before₂ second vs₂ ++ ending.lexemes before₃) = body at hrule ⊢
  cases ending
  all_goals
    change ((readSegmentPath (.apart (.name "stacks") :: (pathLexemes id "selectors" ++
      .fresh "\n\n" (.name "import") :: (_ ++ body)))).bind _) = _
    rw [readSegmentPath_packageLine (by decide) (by decide), hres, if_neg Bool.false_ne_true]
    change (((readRule newerKeywords (ruleLexemes ++ body)).bind _).bind _) = _
    rw [hrule]
    rfl

/-- The view of the module before its variables are renamed. -/
private def view (id : String) (ending : Ending) (first second : String) (t₁ t₂ : Term) :
    Module where
  package := [.var "stacks", .string (Quoted.escape id), .string "selectors"]
  imports := ending.imports.map fun i => ⟨refOfPath i.path, i.name⟩
  rules := [{ name := rule, isDefault := false, args := [], key := some (.var "system_id"),
              value := none,
              bodies := [.mk false (.call [.ref [.var "assign"], .var first, t₁]) [] ::
                .mk false (.call [.ref [.var "assign"], .var second, t₂]) [] ::
                  clausesOfStmts ending.stmts] }]

private theorem ofTree_ruleTree :
    Module.ofTree (ruleTree id ending first second e₁ e₂) =
      view id ending first second (Term.ofExpr e₁) (Term.ofExpr e₂) := rfl

private theorem undefinedCall?_groups (he₁ : e₁.Inert) (he₂ : e₂.Inert) :
    undefinedCall? (lowerFragments [(fragment, ruleTree id ending first second e₁ e₂),
      (matchHelperFragment.1, helperTree)]) = none := by
  refine undefinedCall?_eq_none fun e he => ?_
  rw [entries_lower, ofTree_ruleTree] at he ⊢
  rcases List.mem_cons.mp he with rfl | he
  · exact Module.undefinedCall?_of_no_calls rfl
  · rw [List.mem_singleton] at he
    subst he
    have hcalls : (view id ending first second (Term.ofExpr e₁) (Term.ofExpr e₂)).rules.flatMap
        Rule.calls = [.ref [.var "assign"], .var first, Term.ofExpr e₁] ::
          [.ref [.var "assign"], .var second, Term.ofExpr e₂] ::
            callsOfBody (clausesOfStmts ending.stmts) := by
      simp [view, Rule.calls, callsOfBody, Clause.calls, Payload.calls, callsOfTerms,
        callsOfModifiers, Term.calls, he₁.calls, he₂.calls]
    -- the groups call nothing of a package, and `match` stands for that of the helper
    rw [Module.undefinedCall?, hcalls]
    cases ending <;> rfl

/-- The renamed rule begins with the two groups, bound to the first two new names. -/
private theorem exists_rename (id : String) (ending : Ending) (hgroups : AreGroups first second)
    (he₁ : e₁.Inert) (he₂ : e₂.Inert) :
    ∃ m locals r more, (view id ending first second (Term.ofExpr e₁) (Term.ofExpr e₂)).rename [] =
        (m, first :: second :: locals) ∧
      m.rule? rule = some r ∧ r.bodies =
        [bindingClause 0 (Term.ofExpr e₁) :: bindingClause 1 (Term.ofExpr e₂) :: more] := by
  -- each assignment declares its group, so the groups come first among the new names
  rcases hgroups with ⟨rfl, rfl⟩ | ⟨rfl, rfl⟩
  all_goals
    cases ending
    all_goals
      simp only [view, Module.rename, renameRules, Rule.rename, renameBody, Clause.rename,
        Payload.rename, he₁.rename, he₂.rename, renameModifiers, Term.declare]
      exact ⟨_, _, _, _, rfl, rfl, rfl⟩

private theorem ofClause?_bindingClause {locals : Locals} {n : Nat} {word name : String}
    {fields : List (Term × Term)} (hword : locals[n]? = some word) :
    Selector.ofClause? locals name (bindingClause n (.object fields)) =
      if word = name then some (Selector.ofFields fields) else none := by
  change (if locals.resolve (localName n) = name then _ else _) = _
  rw [Locals.resolve_localName hword]

private theorem ofRule_groups (locals : Locals) {r : Rule} {more : List Clause}
    {fs₁ fs₂ : List (Term × Term)}
    (hbodies : r.bodies = [bindingClause 0 (.object fs₁) :: bindingClause 1 (.object fs₂) :: more])
    (hne : first ≠ second) :
    Selector.ofRule r (first :: second :: locals) first = .ofFields fs₁ ∧
      Selector.ofRule r (first :: second :: locals) second = .ofFields fs₂ := by
  have h₁ (name : String) : Selector.ofClause? (first :: second :: locals) name
      (bindingClause 0 (.object fs₁)) = _ := ofClause?_bindingClause rfl
  have h₂ (name : String) : Selector.ofClause? (first :: second :: locals) name
      (bindingClause 1 (.object fs₂)) = _ := ofClause?_bindingClause rfl
  rw [Selector.ofRule, Selector.ofRule, hbodies, List.flatten_singleton]
  constructor
  · rw [List.findSome?_cons, h₁, if_pos rfl]
    rfl
  · rw [List.findSome?_cons, h₁, if_neg hne]
    simp only
    rw [List.findSome?_cons, h₂, if_pos rfl]
    rfl

/-- The selectors in a module are the two objects that its rule binds. -/
theorem decode_groups {fs₁ fs₂ : List (Expr × Expr)} (hgroups : AreGroups first second)
    (he₁ : (Expr.object fs₁).Inert) (he₂ : (Expr.object fs₂).Inert)
    (hparse : ModuleTree.parse? source =
      some (ruleTree id ending first second (.object fs₁) (.object fs₂))) :
    decode source = .ok
      (if first = "include" then
        ⟨.ofFields (fieldsOfExprs fs₁), .ofFields (fieldsOfExprs fs₂)⟩
      else ⟨.ofFields (fieldsOfExprs fs₂), .ofFields (fieldsOfExprs fs₁)⟩) := by
  obtain ⟨m, locals, r, more, hrename, hrule, hbodies⟩ :=
    exists_rename id ending hgroups he₁ he₂
  have hmodules : renameModules (lowerFragments [(fragment,
      ruleTree id ending first second (.object fs₁) (.object fs₂)),
        (matchHelperFragment.1, helperTree)]).entries [] =
      ([(matchHelperFragment.1, helperModule), (fragment, m)], first :: second :: locals) := by
    have hhelper : helperModule.rename [] = (helperModule, []) := rfl
    rw [entries_lower, ofTree_ruleTree]
    simp only [renameModules, hhelper, hrename]
  have hne : first ≠ second := by
    rcases hgroups with ⟨rfl, rfl⟩ | ⟨rfl, rfl⟩ <;> decide
  obtain ⟨hfirst, hsecond⟩ := ofRule_groups locals hbodies hne
  rw [decode, compile_of_read (readFragments_helper hparse) (undefinedCall?_groups he₁ he₂)
    hmodules]
  change Except.ok (extract _) = _
  rw [extract, rule?_compiled, hrule]
  rcases hgroups with ⟨rfl, rfl⟩ | ⟨rfl, rfl⟩
  · rw [if_pos rfl, ← hfirst, ← hsecond]
  · rw [if_neg (by decide), ← hfirst, ← hsecond]

end

end PolicySync.Selectors
