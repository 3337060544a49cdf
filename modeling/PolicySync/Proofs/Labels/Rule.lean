import PolicySync.Proofs.Data.SortedMap
import PolicySync.Proofs.Labels.Query
import PolicySync.Proofs.Policy.Compile

/-!
# Modules with one labels rule

A module of labels is a package line, in the newer dialect an import, and one rule whose value is an
expression. In both dialects the text of such a module is read as that rule, and the labels in it
are the texts in the value of the expression.
-/

namespace PolicySync.Labels

open PolicySync.Policy PolicySync.Text

/-- The line that switches the newer dialect on. -/
def importLine (newer : Bool) : List Lexeme :=
  if newer then
    [.fresh "\n\n" (.name "import"), .apart (.name "rego"), .glued (.symbol .dot),
      .glued (.name "v1")]
  else []

/-- The rule up to its value. -/
def ruleHead (before : String) : List Lexeme :=
  [.fresh before (.name "labels"), .apart (.symbol .declare)]

def ruleTree (id : String) (newer : Bool) (e : Expr) : ModuleTree where
  package := ⟨"metadata", [Quoted.escape id, "labels"]⟩
  imports := dialectImports newer
  strict := newer
  rules := [.rule (.complete (.var "labels") (some e)) []]

def ruleModule (id : String) (newer : Bool) (e : Expr) : Module :=
  Module.ofTree (ruleTree id newer e)

section

variable {id before source : String} {newer : Bool} {e : Expr} {ls : List Lexeme} {v : Value}

private theorem readRule_value (h : ReadsTerm (dialectKeywords newer) ls e) :
    readRule (dialectKeywords newer) (ruleHead before ++ ls) =
      some (.rule (.complete (.var "labels") (some e)) [], []) := by
  have hvalue : readPairExpr (dialectKeywords newer) (callBound ls) (ls ++ []) = some (e, []) :=
    readPairExpr_of_reads h rfl rfl (by simp [callBound])
  rw [List.append_nil] at hvalue
  have hhead : readHead (dialectKeywords newer) (ruleHead before ++ ls) =
      some (.complete (.var "labels") (some e), []) := by
    cases newer
    all_goals
      change (((readPairExpr _ (callBound ls) ls).map _).bind _) = _
      rw [hvalue]
      rfl
  have hbodies : readBodies (dialectKeywords newer) false [] = some ([], []) := by
    cases newer <;> rfl
  change ((readHead _ _).bind _) = _
  rw [hhead]
  change ((readBodies _ false []).bind _) = _
  rw [hbodies]
  cases newer <;> rfl

private theorem readRules_value (h : ReadsTerm (dialectKeywords newer) ls e) (fuel : Nat) :
    readRules (dialectKeywords newer) (fuel + 2) (ruleHead before ++ ls) =
      some [.rule (.complete (.var "labels") (some e)) []] := by
  change ((readRule _ (ruleHead before ++ ls)).bind _) = _
  rw [readRule_value h]
  rfl

/-- The lexemes of a module with one labels rule are read as that rule, unless the id is a reserved
word. -/
theorem readModule_rule (newer : Bool) (h : ReadsTerm (dialectKeywords newer) ls e) :
    readModule (packageLine "metadata" id "labels" ++
        (importLine newer ++ (ruleHead before ++ ls))) =
      if reservedWords.contains id then none else some (ruleTree id newer e) := by
  cases newer with
  | true =>
    change ((readSegmentPath (.apart (.name "metadata") :: (pathLexemes id "labels" ++
      .fresh "\n\n" (.name "import") :: ((importLine true).tail ++ (ruleHead before ++ ls))))).bind
        _) = _
    rw [readSegmentPath_packageLine (by decide) (by decide)]
    split
    · rfl
    · change ((readRules (dialectKeywords true) (ls.length + 1 + 2) (ruleHead before ++ ls)).bind
        _) = _
      rw [readRules_value h]
      rfl
  | false =>
    change ((readSegmentPath (.apart (.name "metadata") :: (pathLexemes id "labels" ++
      .fresh before (.name "labels") :: (.apart (.symbol .declare) :: ls)))).bind _) = _
    rw [readSegmentPath_packageLine (by decide) (by decide)]
    split
    · rfl
    · change ((readRules (dialectKeywords false) (ls.length + 1 + 2) (ruleHead before ++ ls)).bind
        _) = _
      rw [readRules_value h]
      rfl

theorem calls_ruleModule (newer : Bool) (he : e.Inert) :
    (ruleModule id newer e).rules.flatMap Rule.calls = [] := by
  change (callsOfTerms [Term.ofExpr e] ++ []) ++ [] = []
  rw [callsOfTerms, he.calls]
  rfl

/-- A module with one labels rule compiles to itself when the value of the rule is inert. -/
theorem compile_rule (newer : Bool)
    (hparse : ModuleTree.parse? source = some (ruleTree id newer e))
    (he : e.Inert) :
    compile [(fragment, source)] =
      .ok ⟨.singleton fragment (ruleModule id newer e), [], [ruleTree id newer e]⟩ := by
  have hlower : lowerFragments [(fragment, ruleTree id newer e)] =
      .singleton fragment (ruleModule id newer e) := rfl
  have hdefined : undefinedCall? (lowerFragments [(fragment, ruleTree id newer e)]) = none := by
    rw [hlower]
    refine undefinedCall?_eq_none fun m hm => ?_
    rw [SortedMap.entries_singleton, List.mem_singleton] at hm
    rw [hm]
    exact Module.undefinedCall?_of_no_calls (calls_ruleModule newer he)
  refine compile_of_read (readFragments_cons hparse rfl) hdefined ?_
  -- a rule without bodies has nothing to rename
  rw [hlower]
  rfl

private theorem kinds?_rule (arity : Arity) (visible : List String) (he : e.Inert) :
    RuleDecl.kinds? arity visible newer (.rule (.complete (.var "labels") (some e)) []) =
      some [([.quoted "labels" "labels"], .value (some e) [])] := by
  change (((e.arrange? arity visible).map some).bind _) = _
  rw [he.arrange]
  cases newer <;> rfl

private theorem ofModules?_rule (id : String) (newer : Bool) (he : e.Inert) :
    ∃ bindings, Program.ofModules? [ruleTree id newer e] =
      some (.ofValue (package id) "labels" e bindings) := by
  have hentries : entriesOf? [ruleTree id newer e] =
      some [.ofValue (package id) "labels" e] := by
    simp [entriesOf?, ruleTree, kinds?_rule _ _ he]
    rfl
  cases newer with
  | true =>
    refine ⟨[⟨package id, "v1", ⟨"rego", ["v1"]⟩⟩], ?_⟩
    change ((entriesOf? [ruleTree id true e]).bind _) = _
    rw [hentries]
    rfl
  | false =>
    refine ⟨[], ?_⟩
    change ((entriesOf? [ruleTree id false e]).bind _) = _
    rw [hentries]
    rfl

/-- The query of a system finds the value of the rule. -/
theorem query_rule {modules : SortedMap Module} {locals : Locals}
    (hres : reservedWords.contains id = false) (he : e.Inert) (hv : Evaluates e v)
    (hholds : holds (some v) = true) :
    Compiled.query ⟨modules, locals, [ruleTree id newer e]⟩ (query id) = .ok [[v]] := by
  obtain ⟨bindings, hprogram⟩ := ofModules?_rule id newer he
  have heval : evalQuery [ruleTree id newer e] [.mk (.expr false (reference id)) []] =
      .ok [[v]] := by
    rw [evalQuery, hprogram]
    exact evalQuery_ofValue he hv hholds (isReference id)
  rw [Compiled.query, parse?_query hres]
  simp only [heval]

/-- The rule is found under the path of the module's own package alone. -/
theorem defines_rule {locals : Locals} {trees : List ModuleTree} {path : List String} :
    Compiled.defines ⟨.singleton fragment (ruleModule id newer e), locals, trees⟩ path "labels" =
      true ↔ package id = path := by
  have hrule : ((ruleModule id newer e).rule? "labels").isSome = true := rfl
  have hpath : (ruleModule id newer e).packagePath? = some (package id) := rfl
  rw [Compiled.defines, SortedMap.entries_singleton, List.any_cons, List.any_nil, hrule, hpath,
    Bool.and_true, Bool.or_false, decide_eq_true_eq, Option.some.injEq]

theorem package_eq_iff : package id = ["metadata", id, "labels"] ↔
    id.toList.all Quoted.isPlain = true := by
  rw [← Quoted.escape_eq_self]
  simp [package]

/-- The labels in a module with one labels rule are those that the value of the rule gives, if the
id stands for itself between quotes. -/
theorem decode_rule (newer : Bool)
    (hparse : ModuleTree.parse? source = some (ruleTree id newer e))
    (hres : reservedWords.contains id = false) (he : e.Inert) (hv : Evaluates e v)
    (hholds : holds (some v) = true) :
    decode id source =
      if id.toList.all Quoted.isPlain then .ok (SortedMap.ofList (ofRow [v])) else .ok .empty := by
  rw [decode, compile_rule newer hparse he]
  change extract _ id = _
  simp only [extract, defines_rule, package_eq_iff, query_rule hres he hv hholds]
  split
  · change Except.ok (SortedMap.ofList (ofRow [v] ++ [])) = _
    rw [List.append_nil]
  · rfl

/-- No labels are found in a module with a labels rule of another system. -/
theorem decode_rule_of_ne {other : String} (newer : Bool)
    (hparse : ModuleTree.parse? source = some (ruleTree id newer e)) (he : e.Inert)
    (hplain : id.toList.all Quoted.isPlain = true) (hne : id ≠ other) :
    decode other source = .ok .empty := by
  have hforeign : package id ≠ ["metadata", other, "labels"] := by
    rw [package_eq_iff.mpr hplain]
    simpa using hne
  rw [decode, compile_rule newer hparse he]
  change extract _ other = _
  rw [extract, if_neg (defines_rule.not.mpr hforeign)]

end

end PolicySync.Labels
