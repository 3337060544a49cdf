import PolicySync.Policy.Call
import PolicySync.Policy.Program
import PolicySync.Policy.Term.OfTree

/-!
# Written calls

The calls of a rule as they are written, wherever they stand in it. The view of a module has the
same calls, and besides them those of operators; what no branch or head of the view keeps is left
out of it.
-/

namespace PolicySync.Policy

/-- The key that a text in brackets is. -/
def Expr.key? : Expr → Option String
  | .quoted _ key => some key
  | .verbatim key => some key
  | _ => none

/-- The names along a reference, when only names and texts lead from one to the next. -/
def Expr.path? : Expr → Option (List String)
  | .var name => some [name]
  | .dot base field => base.path?.map fun path => path ++ [field]
  | .index base key => base.path?.bind fun path => key.key?.map fun key => path ++ [key]
  | _ => none

/-- The names along the front of a reference. -/
def Expr.groundPath : Expr → List String
  | .var name => [name]
  | .dot base field => ((Expr.dot base field).path?).getD base.groundPath
  | .index base key => ((Expr.index base key).path?).getD base.groundPath
  | _ => []

/-- Whether an expression is a name alone. -/
def Expr.isBare : Expr → Bool
  | .var _ => true
  | _ => false

mutual

/-- What is called in an expression, an outer call before the calls in it. -/
def Expr.callees : Expr → List Expr
  | .scalar _ => []
  | .quoted _ _ => []
  | .verbatim _ => []
  | .var _ => []
  | .array items => calleesOfExprs items
  | .set items => calleesOfExprs items
  | .object fields => calleesOfFields fields
  | .arrayCompr head body => head.callees ++ calleesOfStmts body
  | .setCompr head body => head.callees ++ calleesOfStmts body
  | .objectCompr key value body => key.callees ++ value.callees ++ calleesOfStmts body
  | .call function args => function :: (function.callees ++ calleesOfExprs args)
  | .neg operand => operand.callees
  | .dot base _ => base.callees
  | .index base key => base.callees ++ key.callees
  | .binary _ lhs rhs => lhs.callees ++ rhs.callees
  | .member none value collection => value.callees ++ collection.callees
  | .member (some key) value collection => key.callees ++ value.callees ++ collection.callees
  | .assign _ lhs rhs => lhs.callees ++ rhs.callees

def calleesOfExprs : List Expr → List Expr
  | [] => []
  | e :: rest => e.callees ++ calleesOfExprs rest

def calleesOfFields : List (Expr × Expr) → List Expr
  | [] => []
  | (key, value) :: rest => key.callees ++ value.callees ++ calleesOfFields rest

def calleesOfModifiers : List (SegmentPath × Expr) → List Expr
  | [] => []
  | (_, value) :: rest => value.callees ++ calleesOfModifiers rest

def calleesOfStmts : List Stmt → List Expr
  | [] => []
  | s :: rest => s.callees ++ calleesOfStmts rest

def Stmt.callees : Stmt → List Expr
  | .mk literal modifiers => literal.callees ++ calleesOfModifiers modifiers

def Literal.callees : Literal → List Expr
  | .expr _ e => e.callees
  | .someVars _ => []
  | .someIn none value collection => value.callees ++ collection.callees
  | .someIn (some key) value collection => key.callees ++ value.callees ++ collection.callees
  | .every _ _ domain body => domain.callees ++ calleesOfStmts body

end

/-! ## Rules -/

def RuleBody.callees (b : RuleBody) : List Expr :=
  calleesOfExprs b.value.toList ++ calleesOfStmts b.query

/-- The terms of a rule that are in none of its bodies. -/
def Rule.terms (r : Rule) : List Term := r.args ++ r.key.toList ++ r.value.toList

namespace RuleDecl

/-- The arguments, the key and the value at the head of a rule. -/
def exprs : RuleDecl → List Expr
  | .rule (.complete _ value) _ => value.toList
  | .rule (.set _ key) _ => [key]
  | .rule (.function _ args value) _ => args ++ value.toList
  | .default _ args value => args ++ [value]

def bodies : RuleDecl → List RuleBody
  | .rule _ bodies => bodies
  | .default _ _ _ => []

/-- The path of a rule within its package. -/
def path (d : RuleDecl) : List String := d.ref.groundPath

/-- Everything that is called in a rule. -/
def callees (d : RuleDecl) : List Expr :=
  d.ref.callees ++ calleesOfExprs d.exprs ++ d.bodies.flatMap RuleBody.callees

/-- What is called where the view of a rule shows it. -/
def shown (d : RuleDecl) : List Expr :=
  calleesOfExprs d.exprs ++ d.bodies.flatMap fun b => calleesOfStmts b.query

/-- What is called in the head of a rule, or in the value of an `else`. -/
def hidden (d : RuleDecl) : List Expr :=
  d.ref.callees ++ d.bodies.flatMap fun b => calleesOfExprs b.value.toList

theorem mem_callees {d : RuleDecl} {f : Expr} :
    f ∈ d.callees ↔ f ∈ d.shown ∨ f ∈ d.hidden := by
  simp only [callees, shown, hidden, RuleBody.callees, List.mem_append, List.mem_flatMap]
  constructor
  · rintro ((href | hexprs) | ⟨b, hb, hvalue | hquery⟩)
    · exact .inr (.inl href)
    · exact .inl (.inl hexprs)
    · exact .inr (.inr ⟨b, hb, hvalue⟩)
    · exact .inl (.inr ⟨b, hb, hquery⟩)
  · rintro ((hexprs | ⟨b, hb, hquery⟩) | (href | ⟨b, hb, hvalue⟩))
    · exact .inl (.inr hexprs)
    · exact .inr ⟨b, hb, .inr hquery⟩
    · exact .inl (.inl href)
    · exact .inr ⟨b, hb, .inl hvalue⟩

end RuleDecl

/-! ## The calls of a view -/

/-- What stands in the first slots of calls. -/
def operatorsOf (calls : List (List Term)) : List Term := calls.filterMap List.head?

@[simp] theorem operatorsOf_nil : operatorsOf [] = [] := rfl

@[simp] theorem operatorsOf_append (calls more : List (List Term)) :
    operatorsOf (calls ++ more) = operatorsOf calls ++ operatorsOf more :=
  List.filterMap_append

@[simp] theorem operatorsOf_cons (operator : Term) (operands : List Term)
    (calls : List (List Term)) :
    operatorsOf ((operator :: operands) :: calls) = operator :: operatorsOf calls := rfl

theorem callsOfTerms_append (ts us : List Term) :
    callsOfTerms (ts ++ us) = callsOfTerms ts ++ callsOfTerms us := by
  induction ts with
  | nil => rfl
  | cons t rest ih => rw [List.cons_append, callsOfTerms, callsOfTerms, ih, List.append_assoc]

theorem Term.calls_withSegment (t segment : Term) :
    (t.withSegment segment).calls = t.calls ++ segment.calls := by
  cases t with
  | ref parts => simp only [withSegment, calls, callsOfTerms_append, callsOfTerms, List.append_nil]
  | _ => simp only [withSegment, calls, callsOfTerms, List.append_nil]

theorem Payload.calls_ofTerm (t : Term) : (Payload.ofTerm t).calls = t.calls := by
  cases t <;> rfl

/-- The operators that the view has calls of. -/
def operatorNames : List String :=
  ["eq", "ne", "lt", "le", "gt", "ge", "add", "sub", "mul", "div", "mod", "intersection", "union",
    "assign", "neg", "internal.member_2", "internal.member_3"]

theorem BinaryOp.name_mem (op : BinaryOp) : op.name ∈ operatorNames := by
  cases op <;> decide

theorem AssignOp.name_mem (op : AssignOp) : op.name ∈ operatorNames := by
  cases op <;> decide

/-- Whether a test of what is called passes over what is never written as a call: operators, and the
empty set. -/
structure PassesOver (p : Term → Bool) : Prop where
  operator : ∀ name ∈ operatorNames, p (Term.operator name) = false
  emptySet : p (.var "set") = false

theorem Term.calls_operator : ∀ name ∈ operatorNames, (Term.operator name).calls = [] := by
  intro name hname
  simp only [operatorNames, List.mem_cons, List.not_mem_nil, or_false] at hname
  rcases hname with rfl | rfl | rfl | rfl | rfl | rfl | rfl | rfl | rfl | rfl | rfl | rfl | rfl |
    rfl | rfl | rfl | rfl <;> rfl

/-- What is called in a view and passes a test. -/
def calledIn (p : Term → Bool) (calls : List (List Term)) : List Term :=
  (operatorsOf calls).filter p

/-- What is written as a call and passes a test. -/
def writtenIn (p : Term → Bool) (callees : List Expr) : List Term :=
  (callees.map Term.ofExpr).filter p

section

variable {p : Term → Bool}

@[simp] theorem calledIn_nil : calledIn p [] = [] := rfl

@[simp] theorem calledIn_append (calls more : List (List Term)) :
    calledIn p (calls ++ more) = calledIn p calls ++ calledIn p more := by
  rw [calledIn, operatorsOf_append, List.filter_append]
  rfl

theorem calledIn_cons (operator : Term) (operands : List Term) (calls : List (List Term)) :
    calledIn p ((operator :: operands) :: calls) = [operator].filter p ++ calledIn p calls := by
  rw [calledIn, operatorsOf_cons, ← List.singleton_append, List.filter_append]
  rfl

@[simp] theorem writtenIn_nil : writtenIn p [] = [] := rfl

@[simp] theorem writtenIn_append (callees more : List Expr) :
    writtenIn p (callees ++ more) = writtenIn p callees ++ writtenIn p more := by
  rw [writtenIn, List.map_append, List.filter_append]
  rfl

theorem writtenIn_cons (f : Expr) (callees : List Expr) :
    writtenIn p (f :: callees) = [Term.ofExpr f].filter p ++ writtenIn p callees := by
  rw [writtenIn, List.map_cons, ← List.singleton_append, List.filter_append]
  rfl

theorem exists_mem_calledIn {calls : List (List Term)} :
    (∃ t, t ∈ calledIn p calls) ↔ ∃ slots ∈ calls, slots.head?.any p = true := by
  simp only [calledIn, operatorsOf, List.mem_filter, List.mem_filterMap]
  constructor
  · rintro ⟨t, ⟨slots, hslots, hhead⟩, ht⟩
    exact ⟨slots, hslots, by rw [hhead]; exact ht⟩
  · rintro ⟨slots, hslots, hany⟩
    cases hhead : slots.head? with
    | none => rw [hhead] at hany; cases hany
    | some t =>
      rw [hhead] at hany
      exact ⟨t, ⟨slots, hslots, hhead⟩, hany⟩

theorem exists_mem_writtenIn {callees : List Expr} :
    (∃ t, t ∈ writtenIn p callees) ↔ ∃ f ∈ callees, p (Term.ofExpr f) = true := by
  simp only [writtenIn, List.mem_filter, List.mem_map]
  constructor
  · rintro ⟨t, ⟨f, hf, rfl⟩, ht⟩
    exact ⟨f, hf, ht⟩
  · rintro ⟨f, hf, ht⟩
    exact ⟨Term.ofExpr f, ⟨f, hf, rfl⟩, ht⟩

theorem calledIn_operator (h : PassesOver p) {name : String} (hname : name ∈ operatorNames)
    (operands : List Term) :
    calledIn p (Term.call (Term.operator name :: operands)).calls =
      calledIn p (callsOfTerms operands) := by
  have hpasses : [Term.operator name].filter p = [] := by
    simp only [List.filter_cons, h.operator name hname, List.filter_nil, Bool.false_eq_true,
      if_false]
  rw [Term.calls, calledIn_cons, hpasses, callsOfTerms, Term.calls_operator name hname]
  rfl

theorem calledIn_callTerm (h : PassesOver p) (function : Term) (args : List Term) :
    calledIn p (callTerm function args).calls =
      [function].filter p ++ (calledIn p function.calls ++ calledIn p (callsOfTerms args)) := by
  fun_cases callTerm function args with
  | case1 =>
    -- the empty set: nothing is called in it, and its name is passed over
    simp only [Term.calls, callsOfTerms, calledIn_nil, List.filter_cons, h.emptySet,
      List.filter_nil, Bool.false_eq_true, if_false, List.append_nil]
  | case2 => rw [Term.calls, calledIn_cons, callsOfTerms, calledIn_append]

/-- The view of a rule has the terms of its head, and of each body the clauses. -/
theorem Rule.terms_ofDecl (d : RuleDecl) : (Rule.ofDecl d).terms = d.exprs.map Term.ofExpr := by
  rcases d with ⟨_ | _ | _, _⟩ | _ <;>
    simp [Rule.ofDecl, Rule.terms, RuleDecl.exprs, Option.toList_map]

theorem Rule.bodies_ofDecl (d : RuleDecl) :
    (Rule.ofDecl d).bodies = d.bodies.map fun b => clausesOfStmts b.query := by
  rcases d with ⟨_ | _ | _, _⟩ | _ <;> rfl

theorem termsOfExprs_eq_map (es : List Expr) : termsOfExprs es = es.map Term.ofExpr := by
  induction es with
  | nil => rfl
  | cons e rest ih => rw [termsOfExprs, ih, List.map_cons]

mutual

theorem calledIn_ofExpr (h : PassesOver p) :
    ∀ e : Expr, calledIn p (Term.ofExpr e).calls = writtenIn p e.callees
  | .scalar _ => rfl
  | .quoted _ _ => rfl
  | .verbatim _ => rfl
  | .var _ => rfl
  | .array items => calledIn_termsOfExprs h items
  | .set items => calledIn_termsOfExprs h items
  | .object fields => calledIn_fieldsOfExprs h fields
  | .arrayCompr head body => by
    simp only [Term.ofExpr, Term.calls, Expr.callees, calledIn_append, writtenIn_append,
      calledIn_ofExpr h head, calledIn_clausesOfStmts h body]
  | .setCompr head body => by
    simp only [Term.ofExpr, Term.calls, Expr.callees, calledIn_append, writtenIn_append,
      calledIn_ofExpr h head, calledIn_clausesOfStmts h body]
  | .objectCompr key value body => by
    simp only [Term.ofExpr, Term.calls, Expr.callees, calledIn_append, writtenIn_append,
      calledIn_ofExpr h key, calledIn_ofExpr h value, calledIn_clausesOfStmts h body]
  | .call function args => by
    simp only [Term.ofExpr, Expr.callees, calledIn_callTerm h, writtenIn_cons, writtenIn_append,
      calledIn_ofExpr h function, calledIn_termsOfExprs h args]
  | .neg operand => by
    have hname : "neg" ∈ operatorNames := by decide
    simp only [Term.ofExpr, Expr.callees, calledIn_operator h hname, callsOfTerms, List.append_nil,
      calledIn_ofExpr h operand]
  | .dot base _ => by
    simp only [Term.ofExpr, Expr.callees, Term.calls_withSegment, Term.calls, List.append_nil,
      calledIn_ofExpr h base]
  | .index base key => by
    simp only [Term.ofExpr, Expr.callees, Term.calls_withSegment, calledIn_append,
      writtenIn_append, calledIn_ofExpr h base, calledIn_ofExpr h key]
  | .binary op lhs rhs => by
    simp only [Term.ofExpr, Expr.callees, calledIn_operator h op.name_mem, callsOfTerms,
      List.append_nil, calledIn_append, writtenIn_append, calledIn_ofExpr h lhs,
      calledIn_ofExpr h rhs]
  | .member none value collection => by
    have hname : "internal.member_2" ∈ operatorNames := by decide
    simp only [Term.ofExpr, Expr.callees, calledIn_operator h hname, callsOfTerms, List.append_nil,
      calledIn_append, writtenIn_append, calledIn_ofExpr h value, calledIn_ofExpr h collection]
  | .member (some key) value collection => by
    have hname : "internal.member_3" ∈ operatorNames := by decide
    simp only [Term.ofExpr, Expr.callees, calledIn_operator h hname, callsOfTerms, List.append_nil,
      calledIn_append, writtenIn_append, calledIn_ofExpr h key, calledIn_ofExpr h value,
      calledIn_ofExpr h collection, List.append_assoc]
  | .assign op lhs rhs => by
    simp only [Term.ofExpr, Expr.callees, calledIn_operator h op.name_mem, callsOfTerms,
      List.append_nil, calledIn_append, writtenIn_append, calledIn_ofExpr h lhs,
      calledIn_ofExpr h rhs]

theorem calledIn_termsOfExprs (h : PassesOver p) :
    ∀ es : List Expr, calledIn p (callsOfTerms (termsOfExprs es)) = writtenIn p (calleesOfExprs es)
  | [] => rfl
  | e :: rest => by
    simp only [termsOfExprs, callsOfTerms, calleesOfExprs, calledIn_append, writtenIn_append,
      calledIn_ofExpr h e, calledIn_termsOfExprs h rest]

theorem calledIn_fieldsOfExprs (h : PassesOver p) :
    ∀ fields : List (Expr × Expr),
      calledIn p (callsOfFields (fieldsOfExprs fields)) = writtenIn p (calleesOfFields fields)
  | [] => rfl
  | (key, value) :: rest => by
    simp only [fieldsOfExprs, callsOfFields, calleesOfFields, calledIn_append, writtenIn_append,
      calledIn_ofExpr h key, calledIn_ofExpr h value, calledIn_fieldsOfExprs h rest]

theorem calledIn_modifiersOfExprs (h : PassesOver p) :
    ∀ modifiers : List (SegmentPath × Expr),
      calledIn p (callsOfModifiers (modifiersOfExprs modifiers)) =
        writtenIn p (calleesOfModifiers modifiers)
  | [] => rfl
  | (_, value) :: rest => by
    simp only [modifiersOfExprs, callsOfModifiers, calleesOfModifiers, calledIn_append,
      writtenIn_append, calledIn_ofExpr h value, calledIn_modifiersOfExprs h rest]

theorem calledIn_clausesOfStmts (h : PassesOver p) :
    ∀ body : List Stmt,
      calledIn p (callsOfBody (clausesOfStmts body)) = writtenIn p (calleesOfStmts body)
  | [] => rfl
  | s :: rest => by
    simp only [clausesOfStmts, callsOfBody, calleesOfStmts, calledIn_append, writtenIn_append,
      calledIn_ofStmt h s, calledIn_clausesOfStmts h rest]

theorem calledIn_ofStmt (h : PassesOver p) :
    ∀ s : Stmt, calledIn p (Clause.ofStmt s).calls = writtenIn p s.callees
  | .mk (.expr _ e) mods => by
    simp only [Clause.ofStmt, Clause.calls, Payload.calls_ofTerm, Stmt.callees, Literal.callees,
      calledIn_append, writtenIn_append, calledIn_ofExpr h e, calledIn_modifiersOfExprs h mods]
  | .mk (.someVars names) mods => by
    have hvars : callsOfTerms (names.map .var) = [] := by
      induction names with
      | nil => rfl
      | cons name rest ih => rw [List.map_cons, callsOfTerms, ih]; rfl
    simp only [Clause.ofStmt, Clause.calls, Payload.calls, Stmt.callees, Literal.callees, hvars,
      List.nil_append, calledIn_modifiersOfExprs h mods]
  | .mk (.someIn none value collection) mods => by
    simp only [Clause.ofStmt, Clause.calls, Payload.calls, callsOfTerms, Stmt.callees,
      Literal.callees, List.append_nil, calledIn_append, writtenIn_append, calledIn_ofExpr h value,
      calledIn_ofExpr h collection, calledIn_modifiersOfExprs h mods]
  | .mk (.someIn (some key) value collection) mods => by
    simp only [Clause.ofStmt, Clause.calls, Payload.calls, callsOfTerms, Stmt.callees,
      Literal.callees, List.append_nil, calledIn_append, writtenIn_append, calledIn_ofExpr h key,
      calledIn_ofExpr h value, calledIn_ofExpr h collection, calledIn_modifiersOfExprs h mods]
  | .mk (.every key value domain body) mods => by
    have hpayload : (Payload.every (key.map .var) (.var value) (Term.ofExpr domain)
        (clausesOfStmts body)).calls =
          (Term.ofExpr domain).calls ++ callsOfBody (clausesOfStmts body) := by
      cases key <;> rfl
    simp only [Clause.ofStmt, Clause.calls, hpayload, Stmt.callees, Literal.callees,
      calledIn_append, writtenIn_append, calledIn_ofExpr h domain, calledIn_clausesOfStmts h body,
      calledIn_modifiersOfExprs h mods]

end

/-- The view of a rule calls what is shown of the rule. -/
theorem calledIn_ofDecl (h : PassesOver p) (d : RuleDecl) :
    calledIn p (Rule.ofDecl d).calls = writtenIn p d.shown := by
  have hexprs : ∀ es : List Expr,
      calledIn p (callsOfTerms (es.map Term.ofExpr)) = writtenIn p (calleesOfExprs es) := by
    intro es
    rw [← termsOfExprs_eq_map, calledIn_termsOfExprs h]
  have hbodies : ∀ bodies : List RuleBody,
      calledIn p ((bodies.map fun b => clausesOfStmts b.query).flatMap callsOfBody) =
        writtenIn p (bodies.flatMap fun b => calleesOfStmts b.query) := by
    intro bodies
    induction bodies with
    | nil => rfl
    | cons b rest ih =>
      rw [List.map_cons, List.flatMap_cons, List.flatMap_cons, calledIn_append, writtenIn_append,
        ih, calledIn_clausesOfStmts h]
  have hcalls : (Rule.ofDecl d).calls = callsOfTerms (d.exprs.map Term.ofExpr) ++
      (d.bodies.map fun b => clausesOfStmts b.query).flatMap callsOfBody := by
    rw [← Rule.terms_ofDecl, ← Rule.bodies_ofDecl]
    rfl
  rw [hcalls, calledIn_append, hexprs, hbodies, RuleDecl.shown, writtenIn_append]

end

end PolicySync.Policy
