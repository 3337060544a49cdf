import PolicySync.Policy.Term
import PolicySync.Policy.Tree

/-!
# Terms of a syntax tree

Fields, keys and calls become flat references and calls; operators become calls of the
operator with their name. The values of `else` branches are left out of the view.
-/

namespace PolicySync.Policy

def BinaryOp.name : BinaryOp → String
  | .eq => "eq"
  | .ne => "ne"
  | .lt => "lt"
  | .le => "le"
  | .gt => "gt"
  | .ge => "ge"
  | .add => "add"
  | .sub => "sub"
  | .mul => "mul"
  | .div => "div"
  | .mod => "mod"
  | .intersection => "intersection"
  | .union => "union"

def AssignOp.name : AssignOp → String
  | .declare => "assign"
  | .unify => "eq"

/-- A call; `set` without operands is the empty set. -/
def callTerm (function : Term) (args : List Term) : Term :=
  match function, args with
  | .var "set", [] => .set []
  | function, args => .call (function :: args)

/-- A path as a reference, its segments as written. -/
def refOfPath (p : SegmentPath) : List Term := .var p.head :: p.rest.map .string

/-- What a modifier replaces: a variable, or a reference when there is more than a name. -/
def targetTerm (p : SegmentPath) : Term :=
  if p.rest.isEmpty then .var p.head else .ref (refOfPath p)

mutual

def Term.ofExpr : Expr → Term
  | .scalar text => .scalar text
  | .quoted _ value => .string value
  | .verbatim value => .string value
  | .var name => .var name
  | .array items => .array (termsOfExprs items)
  | .set items => .set (termsOfExprs items)
  | .object fields => .object (fieldsOfExprs fields)
  | .arrayCompr head body => .arrayCompr (Term.ofExpr head) (clausesOfStmts body)
  | .setCompr head body => .setCompr (Term.ofExpr head) (clausesOfStmts body)
  | .objectCompr key value body =>
    .objectCompr (Term.ofExpr key) (Term.ofExpr value) (clausesOfStmts body)
  | .call function args => callTerm (Term.ofExpr function) (termsOfExprs args)
  | .neg operand => .call [Term.operator "neg", Term.ofExpr operand]
  | .dot base field => (Term.ofExpr base).withSegment (.string field)
  | .index base key => (Term.ofExpr base).withSegment (Term.ofExpr key)
  | .binary op lhs rhs => .call [Term.operator op.name, Term.ofExpr lhs, Term.ofExpr rhs]
  | .member none value collection =>
    .call [Term.operator "internal.member_2", Term.ofExpr value, Term.ofExpr collection]
  | .member (some key) value collection =>
    .call [Term.operator "internal.member_3", Term.ofExpr key, Term.ofExpr value,
      Term.ofExpr collection]
  | .assign op lhs rhs => .call [Term.operator op.name, Term.ofExpr lhs, Term.ofExpr rhs]

def termsOfExprs : List Expr → List Term
  | [] => []
  | e :: rest => Term.ofExpr e :: termsOfExprs rest

def fieldsOfExprs : List (Expr × Expr) → List (Term × Term)
  | [] => []
  | (key, value) :: rest => (Term.ofExpr key, Term.ofExpr value) :: fieldsOfExprs rest

def modifiersOfExprs : List (SegmentPath × Expr) → List (Term × Term)
  | [] => []
  | (target, value) :: rest => (targetTerm target, Term.ofExpr value) :: modifiersOfExprs rest

def clausesOfStmts : List Stmt → List Clause
  | [] => []
  | s :: rest => Clause.ofStmt s :: clausesOfStmts rest

def Clause.ofStmt : Stmt → Clause
  | .mk (.expr negated e) mods => .mk negated (.ofTerm (Term.ofExpr e)) (modifiersOfExprs mods)
  | .mk (.someVars names) mods => .mk false (.declare (names.map .var) none) (modifiersOfExprs mods)
  | .mk (.someIn none value collection) mods =>
    .mk false (.declare [Term.ofExpr value] (some (Term.ofExpr collection))) (modifiersOfExprs mods)
  | .mk (.someIn (some key) value collection) mods =>
    .mk false (.declare [Term.ofExpr key, Term.ofExpr value] (some (Term.ofExpr collection)))
      (modifiersOfExprs mods)
  | .mk (.every key value domain body) mods =>
    .mk false (.every (key.map .var) (.var value) (Term.ofExpr domain) (clausesOfStmts body))
      (modifiersOfExprs mods)

end

/-- The variable that a rule's head starts with. -/
def headName : Term → String
  | .var name => name
  | .ref (.var name :: _) => name
  | _ => ""

def Rule.ofDecl : RuleDecl → Rule
  | .default ref args value =>
    { name := headName (Term.ofExpr ref), isDefault := true, args := args.map Term.ofExpr,
      key := none, value := some (Term.ofExpr value), bodies := [] }
  | .rule head bodies =>
    let bodies := bodies.map fun b => clausesOfStmts b.query
    match head with
    | .complete ref value =>
      { name := headName (Term.ofExpr ref), isDefault := false, args := [], key := none,
        value := value.map Term.ofExpr, bodies }
    | .set ref key =>
      { name := headName (Term.ofExpr ref), isDefault := false, args := [],
        key := some (Term.ofExpr key), value := none, bodies }
    | .function ref args value =>
      { name := headName (Term.ofExpr ref), isDefault := false, args := args.map Term.ofExpr,
        key := none, value := value.map Term.ofExpr, bodies }

def Module.ofTree (m : ModuleTree) : Module where
  package := refOfPath m.package
  imports := m.imports.map fun i => ⟨refOfPath i.path, i.name⟩
  rules := m.rules.map Rule.ofDecl

end PolicySync.Policy
