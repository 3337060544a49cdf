import PolicySync.Proofs.Policy.PlacedCall
import PolicySync.Proofs.Policy.UndefinedCall

/-!
# Operators and local variables

An operator is written between or before its operands, and stands in a slot of the view as a
reference that begins with a variable. Renaming leaves it alone unless a variable of that name is
declared before it: such a variable takes the place of the operator.
-/

namespace PolicySync.Policy

mutual

/-- The calls in the view of an expression, in the order of the view: of each the operator that it
is written with, if it is not written as a call. -/
def Expr.operators : Expr → List (Option String)
  | .scalar _ => []
  | .quoted _ _ => []
  | .verbatim _ => []
  | .var _ => []
  | .array items => operatorsOfExprs items
  | .set items => operatorsOfExprs items
  | .object fields => operatorsOfFields fields
  | .arrayCompr head body => head.operators ++ operatorsOfStmts body
  | .setCompr head body => head.operators ++ operatorsOfStmts body
  | .objectCompr key value body => key.operators ++ value.operators ++ operatorsOfStmts body
  | .call (.var "set") [] => []
  | .call function args => none :: (function.operators ++ operatorsOfExprs args)
  | .neg operand => some "neg" :: operand.operators
  | .dot base _ => base.operators
  | .index base key => base.operators ++ key.operators
  | .binary op lhs rhs => some op.name :: (lhs.operators ++ rhs.operators)
  | .member none value collection =>
    some "internal.member_2" :: (value.operators ++ collection.operators)
  | .member (some key) value collection =>
    some "internal.member_3" :: (key.operators ++ value.operators ++ collection.operators)
  | .assign op lhs rhs => some op.name :: (lhs.operators ++ rhs.operators)

def operatorsOfExprs : List Expr → List (Option String)
  | [] => []
  | e :: rest => e.operators ++ operatorsOfExprs rest

def operatorsOfFields : List (Expr × Expr) → List (Option String)
  | [] => []
  | (key, value) :: rest => key.operators ++ value.operators ++ operatorsOfFields rest

def operatorsOfModifiers : List (SegmentPath × Expr) → List (Option String)
  | [] => []
  | (_, value) :: rest => value.operators ++ operatorsOfModifiers rest

def operatorsOfStmts : List Stmt → List (Option String)
  | [] => []
  | s :: rest => s.operators ++ operatorsOfStmts rest

def Stmt.operators : Stmt → List (Option String)
  | .mk literal modifiers => literal.operators ++ operatorsOfModifiers modifiers

def Literal.operators : Literal → List (Option String)
  | .expr _ e => e.operators
  | .someVars _ => []
  | .someIn none value collection => value.operators ++ collection.operators
  | .someIn (some key) value collection =>
    key.operators ++ value.operators ++ collection.operators
  | .every _ _ domain body => domain.operators ++ operatorsOfStmts body

end

/-- The calls in the view of a rule, each with the operator that it is written with. -/
def RuleDecl.operators (d : RuleDecl) : List (Option String) :=
  operatorsOfExprs d.exprs ++ d.bodies.flatMap fun b => operatorsOfStmts b.query

/-! ## Operators in a view -/

/-- Whether a call has the operator that it is written with, if it is written with one. -/
def HasOperator (operator : Option String) (slots : List Term) : Prop :=
  ∀ name ∈ operator, name ∈ operatorNames ∧ slots.head? = some (Term.operator name)

abbrev HaveOperators (operators : List (Option String)) (calls : List (List Term)) : Prop :=
  List.Forall₂ HasOperator operators calls

theorem hasOperator_none (slots : List Term) : HasOperator none slots := nofun

theorem haveOperators_call {name : String} (hname : name ∈ operatorNames) {operands : List Term}
    {operators : List (Option String)} (h : HaveOperators operators (callsOfTerms operands)) :
    HaveOperators (some name :: operators) (Term.call (Term.operator name :: operands)).calls := by
  rw [Term.calls, callsOfTerms, Term.calls_operator name hname]
  refine .cons ?_ h
  rintro _ ⟨⟩
  exact ⟨hname, rfl⟩

private theorem callsOfTerms_one (t : Term) : callsOfTerms [t] = t.calls := by
  simp only [callsOfTerms, List.append_nil]

private theorem callsOfTerms_two (t u : Term) : callsOfTerms [t, u] = t.calls ++ u.calls := by
  simp only [callsOfTerms, List.append_nil]

private theorem callsOfTerms_three (t u v : Term) :
    callsOfTerms [t, u, v] = t.calls ++ u.calls ++ v.calls := by
  simp only [callsOfTerms, List.append_nil, List.append_assoc]

private theorem callsOfTerms_vars (names : List String) : callsOfTerms (names.map .var) = [] := by
  induction names with
  | nil => rfl
  | cons name rest ih =>
    rw [List.map_cons, callsOfTerms, ih]
    rfl

theorem Expr.operators_call {function : Expr} {args : List Expr}
    (h : function = .var "set" → args ≠ []) :
    (Expr.call function args).operators =
      none :: (function.operators ++ operatorsOfExprs args) := by
  rw [Expr.operators]
  exact h

/-- What is written as a call is one in the view, `set` without operands apart. -/
theorem callTerm_ofExpr {function : Expr} {args : List Expr}
    (h : function = .var "set" → args ≠ []) :
    callTerm (Term.ofExpr function) (termsOfExprs args) =
      .call (Term.ofExpr function :: termsOfExprs args) := by
  unfold callTerm
  split
  next hfunction hargs =>
    have hbare := (key?_ofExpr function).2 ⟨"set", hfunction⟩
    cases function with
    | var name =>
      cases hfunction
      cases args with
      | nil => exact absurd rfl (h rfl)
      | cons e rest => cases hargs
    | _ => cases hbare
  next => rfl

mutual

theorem haveOperators_ofExpr : ∀ e : Expr, HaveOperators e.operators (Term.ofExpr e).calls
  | .scalar _ => .nil
  | .quoted _ _ => .nil
  | .verbatim _ => .nil
  | .var _ => .nil
  | .array items => haveOperators_termsOfExprs items
  | .set items => haveOperators_termsOfExprs items
  | .object fields => haveOperators_fieldsOfExprs fields
  | .arrayCompr head body =>
    List.rel_append (haveOperators_ofExpr head) (haveOperators_clausesOfStmts body)
  | .setCompr head body =>
    List.rel_append (haveOperators_ofExpr head) (haveOperators_clausesOfStmts body)
  | .objectCompr key value body =>
    List.rel_append (List.rel_append (haveOperators_ofExpr key) (haveOperators_ofExpr value))
      (haveOperators_clausesOfStmts body)
  | .call function args => by
    by_cases hset : function = .var "set" ∧ args = []
    · -- the empty set is written as a call and is none in the view
      obtain ⟨rfl, rfl⟩ := hset
      exact .nil
    · have hcall : function = .var "set" → args ≠ [] := fun hf ha => hset ⟨hf, ha⟩
      rw [Expr.operators_call hcall, Term.ofExpr, callTerm_ofExpr hcall]
      exact .cons (hasOperator_none _)
        (List.rel_append (haveOperators_ofExpr function) (haveOperators_termsOfExprs args))
  | .neg operand => by
    refine haveOperators_call (by decide) ?_
    rw [callsOfTerms_one]
    exact haveOperators_ofExpr operand
  | .dot base _ => by
    rw [Term.ofExpr, Term.calls_withSegment, Term.calls, List.append_nil]
    exact haveOperators_ofExpr base
  | .index base key => by
    rw [Term.ofExpr, Term.calls_withSegment]
    exact List.rel_append (haveOperators_ofExpr base) (haveOperators_ofExpr key)
  | .binary op lhs rhs => by
    refine haveOperators_call op.name_mem ?_
    rw [callsOfTerms_two]
    exact List.rel_append (haveOperators_ofExpr lhs) (haveOperators_ofExpr rhs)
  | .member none value collection => by
    refine haveOperators_call (by decide) ?_
    rw [callsOfTerms_two]
    exact List.rel_append (haveOperators_ofExpr value) (haveOperators_ofExpr collection)
  | .member (some key) value collection => by
    refine haveOperators_call (by decide) ?_
    rw [callsOfTerms_three]
    exact List.rel_append
      (List.rel_append (haveOperators_ofExpr key) (haveOperators_ofExpr value))
      (haveOperators_ofExpr collection)
  | .assign op lhs rhs => by
    refine haveOperators_call op.name_mem ?_
    rw [callsOfTerms_two]
    exact List.rel_append (haveOperators_ofExpr lhs) (haveOperators_ofExpr rhs)

theorem haveOperators_termsOfExprs : ∀ es : List Expr,
    HaveOperators (operatorsOfExprs es) (callsOfTerms (termsOfExprs es))
  | [] => .nil
  | e :: rest => List.rel_append (haveOperators_ofExpr e) (haveOperators_termsOfExprs rest)

theorem haveOperators_fieldsOfExprs : ∀ fields : List (Expr × Expr),
    HaveOperators (operatorsOfFields fields) (callsOfFields (fieldsOfExprs fields))
  | [] => .nil
  | (key, value) :: rest =>
    List.rel_append (List.rel_append (haveOperators_ofExpr key) (haveOperators_ofExpr value))
      (haveOperators_fieldsOfExprs rest)

theorem haveOperators_modifiersOfExprs : ∀ modifiers : List (SegmentPath × Expr),
    HaveOperators (operatorsOfModifiers modifiers) (callsOfModifiers (modifiersOfExprs modifiers))
  | [] => .nil
  | (_, value) :: rest =>
    List.rel_append (haveOperators_ofExpr value) (haveOperators_modifiersOfExprs rest)

theorem haveOperators_clausesOfStmts : ∀ body : List Stmt,
    HaveOperators (operatorsOfStmts body) (callsOfBody (clausesOfStmts body))
  | [] => .nil
  | s :: rest => List.rel_append (haveOperators_ofStmt s) (haveOperators_clausesOfStmts rest)

theorem haveOperators_ofStmt : ∀ s : Stmt, HaveOperators s.operators (Clause.ofStmt s).calls
  | .mk (.expr _ e) mods => by
    rw [Clause.ofStmt, Clause.calls, Payload.calls_ofTerm]
    exact List.rel_append (haveOperators_ofExpr e) (haveOperators_modifiersOfExprs mods)
  | .mk (.someVars names) mods => by
    rw [Clause.ofStmt, Clause.calls, Payload.calls, callsOfTerms_vars]
    exact haveOperators_modifiersOfExprs mods
  | .mk (.someIn none value collection) mods => by
    rw [Clause.ofStmt, Clause.calls, Payload.calls, callsOfTerms_one]
    exact List.rel_append
      (List.rel_append (haveOperators_ofExpr value) (haveOperators_ofExpr collection))
      (haveOperators_modifiersOfExprs mods)
  | .mk (.someIn (some key) value collection) mods => by
    rw [Clause.ofStmt, Clause.calls, Payload.calls, callsOfTerms_two]
    exact List.rel_append
      (List.rel_append (List.rel_append (haveOperators_ofExpr key) (haveOperators_ofExpr value))
        (haveOperators_ofExpr collection))
      (haveOperators_modifiersOfExprs mods)
  | .mk (.every none _ domain body) mods =>
    List.rel_append
      (List.rel_append (haveOperators_ofExpr domain) (haveOperators_clausesOfStmts body))
      (haveOperators_modifiersOfExprs mods)
  | .mk (.every (some _) _ domain body) mods =>
    List.rel_append
      (List.rel_append (haveOperators_ofExpr domain) (haveOperators_clausesOfStmts body))
      (haveOperators_modifiersOfExprs mods)

end

/-- Before renaming every call has the operator that it is written with. -/
theorem haveOperators_ofDecl (d : RuleDecl) : HaveOperators d.operators (Rule.ofDecl d).calls := by
  have hbodies : ∀ bodies : List RuleBody,
      HaveOperators (bodies.flatMap fun b => operatorsOfStmts b.query)
        ((bodies.map fun b => clausesOfStmts b.query).flatMap callsOfBody) := by
    intro bodies
    induction bodies with
    | nil => exact .nil
    | cons b rest ih => exact List.rel_append (haveOperators_clausesOfStmts b.query) ih
  have hcalls : (Rule.ofDecl d).calls = callsOfTerms (termsOfExprs d.exprs) ++
      (d.bodies.map fun b => clausesOfStmts b.query).flatMap callsOfBody := by
    rw [termsOfExprs_eq_map, ← Rule.terms_ofDecl, ← Rule.bodies_ofDecl]
    rfl
  rw [hcalls]
  exact List.rel_append (haveOperators_termsOfExprs d.exprs) (hbodies d.bodies)

/-! ## Operators after renaming -/

/-- Whether a declaration of a name is seen. -/
def Seen.declares (s : Seen) (name : String) : Bool := s.bodies.any fun names => names.contains name

theorem Seen.declares_iff {s : Seen} {name : String} :
    s.declares name = true ↔ ∃ i j, s.declared? i j = some name := by
  simp only [declares, declared?, List.any_eq_true, List.contains_iff_mem, Option.bind_eq_some_iff,
    List.mem_iff_getElem?]
  constructor
  · rintro ⟨names, ⟨i, hi⟩, j, hj⟩
    exact ⟨i, j, names, hi, hj⟩
  · rintro ⟨i, j, names, hi, hj⟩
    exact ⟨names, ⟨i, hi⟩, j, hj⟩

/-- Whether a local variable takes the place of an operator: one with the first name of the
operator, declared before the call. -/
def PlacedCall.captures (call : PlacedCall) (operator : String) : Bool :=
  !call.fixed && call.seen.declares (headName (Term.operator operator))

theorem PlacedCall.captures_iff {call : PlacedCall} {operator : String} :
    call.captures operator = true ↔ call.fixed = false ∧
      ∃ i j, call.seen.declared? i j = some (headName (Term.operator operator)) := by
  rw [captures, Bool.and_eq_true, Bool.not_eq_true', Seen.declares_iff]

theorem Term.operator_eq (name : String) : ∃ keys : List String,
    Term.operator name = .ref (.var (headName (Term.operator name)) :: keys.map .string) := by
  unfold Term.operator
  split
  · exact ⟨[], rfl⟩
  next head parts _ => exact ⟨parts.map String.ofList, by rw [List.map_map]; rfl⟩

theorem isSourceName_operator {name : String} (h : name ∈ operatorNames) :
    IsSourceName (headName (Term.operator name)) := by
  simp only [operatorNames, List.mem_cons, List.not_mem_nil, or_false] at h
  rcases h with rfl | rfl | rfl | rfl | rfl | rfl | rfl | rfl | rfl | rfl | rfl | rfl | rfl | rfl |
    rfl | rfl | rfl <;> exact isSourceName_of_take (by decide)

theorem renameTerms_strings (scope : Scope) (keys : List String) (names : Locals) :
    (renameTerms scope (keys.map .string) names).1 = keys.map .string := by
  induction keys with
  | nil => rfl
  | cons key rest ih => exact congrArg (Term.string key :: ·) ih

/-- Of an operator only the first name can be renamed. -/
theorem Term.rename_operator (name : String) : ∃ keys : List String,
    Term.operator name = .ref (.var (headName (Term.operator name)) :: keys.map .string) ∧
      ∀ scope names, ((Term.operator name).rename scope names).1 =
        .ref (.var (scope.find (headName (Term.operator name))) :: keys.map .string) := by
  obtain ⟨keys, hkeys⟩ := Term.operator_eq name
  refine ⟨keys, hkeys, fun scope names => ?_⟩
  rw [hkeys]
  exact congrArg (fun rest => Term.ref (.var _ :: rest)) (renameTerms_strings scope keys names)

/-- What an operator becomes in the slots that its call is renamed to. -/
structure PlacedCall.ShowsOperator (call : PlacedCall) (name : String) (slots : List Term) :
    Prop where
  before : call.slots.head? = some (Term.operator name)
  /-- The operator is the same as before exactly when it is not captured. -/
  same_iff : slots.head? = call.slots.head? ↔ call.captures name = false
  /-- A captured operator begins with the new name of a local variable. -/
  captured : call.captures name = true → ∃ n keys,
    Term.operator name = .ref (.var (headName (Term.operator name)) :: keys) ∧
      slots.head? = some (.ref (.var (localName n) :: keys))

theorem PlacedCall.ShowsOperator.of_kept {call : PlacedCall} {name : String} {slots : List Term}
    (hbefore : call.slots.head? = some (Term.operator name))
    (hkept : slots.head? = call.slots.head?) (hfree : ¬ call.captures name = true) :
    call.ShowsOperator name slots :=
  ⟨hbefore, iff_of_true hkept (Bool.eq_false_iff.mpr hfree), fun h => absurd h hfree⟩

theorem PlacedCall.RenamedTo.showsOperator {call : PlacedCall} {slots : List Term} {name : String}
    (h : call.RenamedTo slots) (hoperator : HasOperator (some name) call.slots) :
    call.ShowsOperator name slots := by
  obtain ⟨hname, hbefore⟩ := hoperator name rfl
  by_cases hfixed : call.fixed = true
  · refine .of_kept hbefore (h.kept hfixed) fun hcaptured => ?_
    rw [(captures_iff.mp hcaptured).1] at hfixed
    cases hfixed
  have hmoves : call.fixed = false := Bool.eq_false_iff.mpr hfixed
  obtain ⟨scope, ⟨seen', hshows⟩, names, hslots⟩ := h.renamed hmoves
  obtain ⟨keys, hkeys, hrename⟩ := Term.rename_operator name
  rw [hbefore, Option.map_some, hrename] at hslots
  -- only the first name is looked up, and what is declared before the call decides
  rcases hshows.find (headName (Term.operator name)) with ⟨hfind, hnone⟩ | ⟨hnew, i, j, hnear, -⟩
  · rw [hfind, ← hkeys] at hslots
    refine .of_kept hbefore (hslots.trans hbefore.symm) fun hcaptured => ?_
    obtain ⟨-, i, j, hij⟩ := captures_iff.mp hcaptured
    exact hnone i j hij
  · have hcaptured : call.captures name = true := captures_iff.mpr ⟨hmoves, i, j, hnear.found⟩
    obtain ⟨n, hn⟩ := exists_localName hnew
    rw [hn] at hslots
    have hother : slots.head? ≠ call.slots.head? := by
      intro heq
      have hsame := hslots.symm.trans (heq.trans (hbefore.trans (congrArg some hkeys)))
      have hhead : localName n = headName (Term.operator name) := by simpa using hsame
      exact isSourceName_operator hname n hhead.symm
    exact ⟨hbefore, iff_of_false hother (by simp [hcaptured]), fun _ => ⟨n, _, hkeys, hslots⟩⟩

/-! ## Rules -/

private theorem forall₂_iff_forall_mem {α β : Type} {p : α → β → Prop} {q : α → Prop} {xs : List α}
    {ys : List β} (h : List.Forall₂ (fun x y => p x y ↔ q x) xs ys) :
    List.Forall₂ p xs ys ↔ ∀ x ∈ xs, q x := by
  induction h with
  | nil => simp
  | cons hxy _ ih => rw [List.forall₂_cons, hxy, ih, List.forall_mem_cons]

private theorem forall₂_zip_left {α β γ : Type} {p : α → β → Prop} {q : β → γ → Prop}
    {s : α × β → γ → Prop} (hs : ∀ x y z, p x y → q y z → s (x, y) z) {xs : List α} {ys : List β}
    {zs : List γ} (h : List.Forall₂ p xs ys) (h' : List.Forall₂ q ys zs) :
    List.Forall₂ s (xs.zip ys) zs := by
  induction h generalizing zs with
  | nil =>
    cases h'
    exact .nil
  | cons hxy _ ih =>
    obtain _ | ⟨hyz, hrest⟩ := h'
    exact .cons (hs _ _ _ hxy hyz) (ih hrest)

namespace RuleDecl

/-- The calls in the view of a rule, each with the operator that it is written with and with what it
sees. -/
def placedOperators (d : RuleDecl) : List (Option String × PlacedCall) :=
  d.operators.zip (Rule.ofDecl d).placedCalls

/-- Whether the operators of a rule have become in another what their places demand. -/
def OperatorsShownIn (d : RuleDecl) (r : Rule) : Prop :=
  List.Forall₂ (fun place slots => ∀ name ∈ place.1, place.2.ShowsOperator name slots)
    d.placedOperators r.calls

/-- Whether the calls of a rule have the operators that they are written with. -/
def KeepsOperators (d : RuleDecl) (r : Rule) : Prop :=
  List.Forall₂ (fun operator slots => ∀ name ∈ operator, slots.head? = some (Term.operator name))
    d.operators r.calls

/-- Whether some operator stands where a local variable takes its place. -/
def CapturesOperator (d : RuleDecl) : Prop :=
  ∃ place ∈ d.placedOperators, ∃ name ∈ place.1, place.2.captures name = true

instance (d : RuleDecl) : Decidable d.CapturesOperator :=
  inferInstanceAs
    (Decidable (∃ place ∈ d.placedOperators, ∃ name ∈ place.1, place.2.captures name = true))

/-- Before renaming every operator is in its slot. -/
theorem keepsOperators_ofDecl (d : RuleDecl) : d.KeepsOperators (Rule.ofDecl d) :=
  (haveOperators_ofDecl d).imp fun _ _ h name hname => (h name hname).2

theorem haveOperators_placed (d : RuleDecl) :
    List.Forall₂ (fun operator call => HasOperator operator call.slots) d.operators
      (Rule.ofDecl d).placedCalls := by
  have h := haveOperators_ofDecl d
  rw [← Rule.map_placedCalls, HaveOperators, List.forall₂_map_right_iff] at h
  exact h

theorem operatorsShownIn_rename (d : RuleDecl) (names : Locals) :
    d.OperatorsShownIn ((Rule.ofDecl d).rename names).1 := by
  refine forall₂_zip_left ?_ d.haveOperators_placed ((Rule.ofDecl d).renamesCalls names)
  rintro _ call slots hoperator hrenamed name rfl
  exact hrenamed.showsOperator hoperator

theorem OperatorsShownIn.keepsOperators_iff {d : RuleDecl} {r : Rule} (h : d.OperatorsShownIn r) :
    d.KeepsOperators r ↔ ¬ d.CapturesOperator := by
  have hplaces : d.placedOperators.map Prod.fst = d.operators :=
    List.map_fst_zip (Nat.le_of_eq d.haveOperators_placed.length_eq)
  have hkept : List.Forall₂ (fun place slots =>
      (∀ name ∈ place.1, slots.head? = some (Term.operator name)) ↔
        ∀ name ∈ place.1, place.2.captures name = false) d.placedOperators r.calls := by
    refine h.imp fun place slots hshown => forall₂_congr fun name hname => ?_
    obtain ⟨hbefore, hsame, -⟩ := hshown name hname
    rw [← hbefore, hsame]
  rw [KeepsOperators, ← hplaces, List.forall₂_map_left_iff, forall₂_iff_forall_mem hkept]
  simp only [CapturesOperator, not_exists, not_and, Bool.not_eq_true]

end RuleDecl

/-! ## Compiled fragments -/

/-- Whether the operators that modules are written with stand in the slots of views of them. -/
def OperatorsKept (trees : List (String × ModuleTree)) (views : SortedMap Module) : Prop :=
  List.Forall₂
    (fun e e' => e.1 = e'.1 ∧ List.Forall₂ RuleDecl.KeepsOperators e.2.rules e'.2.rules)
    (SortedMap.ofList trees).entries views.entries

theorem entries_lowerFragments (trees : List (String × ModuleTree)) :
    (lowerFragments trees).entries =
      (SortedMap.ofList trees).entries.map fun e => (e.1, Module.ofTree e.2) := by
  rw [lowerFragments, ← SortedMap.mapValues_ofList]
  rfl

/-- Before renaming every operator stands in its slot. -/
theorem operatorsKept_lowerFragments (trees : List (String × ModuleTree)) :
    OperatorsKept trees (lowerFragments trees) := by
  rw [OperatorsKept, entries_lowerFragments, List.forall₂_map_right_iff, List.forall₂_same]
  refine fun e _ => ⟨rfl, ?_⟩
  rw [Module.ofTree, List.forall₂_map_right_iff, List.forall₂_same]
  exact fun d _ => d.keepsOperators_ofDecl

theorem renameRules_operators (decls : List RuleDecl) (names : Locals) :
    List.Forall₂ RuleDecl.OperatorsShownIn decls
      (renameRules (decls.map Rule.ofDecl) names).1 := by
  induction decls generalizing names with
  | nil => exact .nil
  | cons d rest ih => exact .cons (d.operatorsShownIn_rename names) (ih _)

theorem renameModules_operators (entries : List (String × ModuleTree)) (names : Locals) :
    List.Forall₂ (fun e e' => e.1 = e'.1 ∧
        List.Forall₂ RuleDecl.OperatorsShownIn e.2.rules e'.2.rules)
      entries (renameModules (entries.map fun e => (e.1, Module.ofTree e.2)) names).1 := by
  induction entries generalizing names with
  | nil => exact .nil
  | cons e rest ih => exact .cons ⟨rfl, renameRules_operators e.2.rules names⟩ (ih _)

section

variable {fragments : List (String × String)} {trees : List (String × ModuleTree)} {c : Compiled}

/-- Every operator of a compiled rule is the same after renaming as before, unless a variable with
its first name is declared before it: then, and only then, a new name stands in its slot. -/
theorem compile_showsOperators (hread : readFragments fragments = .ok trees)
    (hcompile : compile fragments = .ok c) :
    List.Forall₂ (fun e e' => e.1 = e'.1 ∧
        List.Forall₂ RuleDecl.OperatorsShownIn e.2.rules e'.2.rules)
      (SortedMap.ofList trees).entries c.modules.entries := by
  rw [entries_of_compile hread hcompile, entries_lowerFragments]
  exact renameModules_operators _ []

/-- Compiled fragments keep all operators exactly when none is captured. -/
theorem compile_operatorsKept_iff (hread : readFragments fragments = .ok trees)
    (hcompile : compile fragments = .ok c) :
    OperatorsKept trees c.modules ↔
      ∀ e ∈ (SortedMap.ofList trees).entries, ∀ d ∈ e.2.rules, ¬ d.CapturesOperator := by
  have hshown := renameModules_operators (SortedMap.ofList trees).entries []
  rw [OperatorsKept, entries_of_compile hread hcompile, entries_lowerFragments]
  refine forall₂_iff_forall_mem (hshown.imp fun e e' h => ?_)
  rw [and_iff_right h.1]
  exact forall₂_iff_forall_mem (h.2.imp fun d r hrule => hrule.keepsOperators_iff)

end

/-- Operators of all kinds, some of them where a variable of their first name is declared. -/
theorem compile_showsOperators_mixed :
    let fragments : List (String × String) :=
      [("a.rego", "package a\n\nimport rego.v1\n\nq contains x + y if \x7b\n" ++
          "\tsome x in input.xs\n\tadd := -x\n\tnot 1 in [y | y := add; x = y]\n\ty := add & x\n" ++
          "\t[eq, x < 1] := [1, x == 1] with input as x == 2\n\x7d\n"),
        ("b.rego", "package b\n\np \x7b\n\tx := [eq | some eq; input[eq] == eq]\n\x7d " ++
          "else \x7b\n\tdata.b.p == 1\n\x7d\n")]
    ∃ trees c, readFragments fragments = .ok trees ∧ compile fragments = .ok c ∧
      List.Forall₂ (fun e e' => e.1 = e'.1 ∧
          List.Forall₂ RuleDecl.OperatorsShownIn e.2.rules e'.2.rules)
        (SortedMap.ofList trees).entries c.modules.entries := by
  intro fragments
  obtain ⟨trees, hread, hcalls⟩ : ∃ trees, readFragments fragments = .ok trees ∧
      undefinedCall? (lowerFragments trees) = none :=
    exists_readFragments (by decide +kernel)
  have hcompile := compile_of_read hread hcalls rfl
  exact ⟨trees, _, hread, hcompile, compile_showsOperators hread hcompile⟩

/-- A local variable that is called `eq` takes the place of the operator of the `==` after it. -/
theorem compile_capturesOperator :
    let fragments : List (String × String) :=
      [("p.rego", "package p\n\nq \x7b\n\teq := 1\n\teq == 1\n\x7d\n")]
    ∃ trees c, readFragments fragments = .ok trees ∧ compile fragments = .ok c ∧
      OperatorsKept trees (lowerFragments trees) ∧ ¬ OperatorsKept trees c.modules := by
  intro fragments
  obtain ⟨trees, hread, hcalls, hcaptured⟩ : ∃ trees, readFragments fragments = .ok trees ∧
      undefinedCall? (lowerFragments trees) = none ∧
        ¬ ∀ e ∈ (SortedMap.ofList trees).entries, ∀ d ∈ e.2.rules, ¬ d.CapturesOperator :=
    exists_readFragments (by decide +kernel)
  have hcompile := compile_of_read hread hcalls rfl
  refine ⟨trees, _, hread, hcompile, operatorsKept_lowerFragments trees, fun hkept => hcaptured ?_⟩
  exact (compile_operatorsKept_iff hread hcompile).mp hkept

end PolicySync.Policy
