import PolicySync.Policy.Order

/-!
# Arranged bodies

A body is arranged when its statements, and those of every body inside it, stand in the order
of their evaluation. A body that uses a name which nothing can bind, or a variable above its
declaration, has no arrangement.
-/

namespace PolicySync.Policy

/-- The names that have to be bound somewhere for a statement to be evaluated. -/
def Stmt.needed (arity : Arity) (s : Stmt) : List String :=
  match s.literal with
  | .expr _ (.assign .declare _ rhs) => rhs.names ++ s.modifierNames
  | .expr _ e =>
    match returnOperand? arity e with
    | some (_, args, .var _) => namesOfExprs args ++ s.modifierNames
    | _ => s.mentions
  | .someIn _ _ c => c.names ++ s.modifierNames
  | _ => s.mentions

/-- The variables that a statement gives a value by declaring them. -/
def Stmt.assigns (s : Stmt) : List String :=
  match s.literal with
  | .someVars _ => []
  | _ => s.declares

/-- Whether no statement declares a variable that one above it uses. -/
def declaredFirst (arity : Arity) (visible : List String) (vars : BodyVars) :
    List String → List Stmt → Bool
  | _, [] => true
  | used, s :: rest =>
    let uses := s.needed arity ++ s.captures arity (vars.own ++ visible)
    s.assigns.all (fun n => !used.contains n) &&
      declaredFirst arity visible vars (uses.filter vars.isOwn ++ used) rest

/-- The order of the statements of a body, when every name that they and the expressions at
its end need is its own or visible. -/
def bodyOrder? (arity : Arity) (visible : List String) (vars : BodyVars) (body : Query)
    (heads : List Expr) : Option (List Nat) :=
  let needed := body.flatMap (Stmt.needed arity) ++ heads.flatMap Expr.names
  if needed.all (fun n => vars.isOwn n || visible.contains n) &&
      declaredFirst arity visible vars [] body then
    (body.mapM (Stmt.definitions? arity visible vars)).map Order.ofDefinitions
  else none

/-- Statements by their positions. -/
def pick (order : List Nat) (stmts : List Stmt) : List Stmt :=
  order.filterMap fun i => stmts[i]?

mutual

/-- Arranges the bodies inside an expression. -/
def Expr.arrange? (arity : Arity) (visible : List String) : Expr → Option Expr
  | .arrayCompr head body => do
    let vars := BodyVars.of arity visible body [head]
    let order ← bodyOrder? arity visible vars body [head]
    let head ← head.arrange? arity (vars.own ++ visible)
    let stmts ← arrangeStmts? arity (vars.own ++ visible) body
    return .arrayCompr head (pick order stmts)
  | .setCompr head body => do
    let vars := BodyVars.of arity visible body [head]
    let order ← bodyOrder? arity visible vars body [head]
    let head ← head.arrange? arity (vars.own ++ visible)
    let stmts ← arrangeStmts? arity (vars.own ++ visible) body
    return .setCompr head (pick order stmts)
  | .objectCompr key value body => do
    let vars := BodyVars.of arity visible body [key, value]
    let order ← bodyOrder? arity visible vars body [key, value]
    let key ← key.arrange? arity (vars.own ++ visible)
    let value ← value.arrange? arity (vars.own ++ visible)
    let stmts ← arrangeStmts? arity (vars.own ++ visible) body
    return .objectCompr key value (pick order stmts)
  | .array items => (arrangeExprs? arity visible items).map .array
  | .set items => (arrangeExprs? arity visible items).map .set
  | .object fields => (arrangeFields? arity visible fields).map .object
  | .call function args => (arrangeExprs? arity visible args).map (.call function)
  | .neg operand => (operand.arrange? arity visible).map .neg
  | .dot base field => (base.arrange? arity visible).map fun b => .dot b field
  | .index base key => do
    let base ← base.arrange? arity visible
    let key ← key.arrange? arity visible
    return .index base key
  | .binary op lhs rhs => do
    let lhs ← lhs.arrange? arity visible
    let rhs ← rhs.arrange? arity visible
    return .binary op lhs rhs
  | .member none value c => do
    let value ← value.arrange? arity visible
    let c ← c.arrange? arity visible
    return .member none value c
  | .member (some key) value c => do
    let key ← key.arrange? arity visible
    let value ← value.arrange? arity visible
    let c ← c.arrange? arity visible
    return .member (some key) value c
  | .assign op lhs rhs => do
    let lhs ← lhs.arrange? arity visible
    let rhs ← rhs.arrange? arity visible
    return .assign op lhs rhs
  | .scalar text => some (.scalar text)
  | .quoted raw value => some (.quoted raw value)
  | .verbatim value => some (.verbatim value)
  | .var name => some (.var name)

def arrangeExprs? (arity : Arity) (visible : List String) : List Expr → Option (List Expr)
  | [] => some []
  | e :: rest => do
    let e ← e.arrange? arity visible
    let rest ← arrangeExprs? arity visible rest
    return e :: rest

def arrangeFields? (arity : Arity) (visible : List String) :
    List (Expr × Expr) → Option (List (Expr × Expr))
  | [] => some []
  | (key, value) :: rest => do
    let key ← key.arrange? arity visible
    let value ← value.arrange? arity visible
    let rest ← arrangeFields? arity visible rest
    return (key, value) :: rest

def arrangeModifiers? (arity : Arity) (visible : List String) :
    List (SegmentPath × Expr) → Option (List (SegmentPath × Expr))
  | [] => some []
  | (target, value) :: rest => do
    let value ← value.arrange? arity visible
    let rest ← arrangeModifiers? arity visible rest
    return (target, value) :: rest

/-- Arranges the bodies inside statements; the statements keep their order. -/
def arrangeStmts? (arity : Arity) (visible : List String) : List Stmt → Option (List Stmt)
  | [] => some []
  | s :: rest => do
    let s ← s.arrange? arity visible
    let rest ← arrangeStmts? arity visible rest
    return s :: rest

def Stmt.arrange? (arity : Arity) (visible : List String) : Stmt → Option Stmt
  | .mk (.expr negated e) mods => do
    let e ← e.arrange? arity visible
    let mods ← arrangeModifiers? arity visible mods
    return .mk (.expr negated e) mods
  | .mk (.someVars names) mods => do
    let mods ← arrangeModifiers? arity visible mods
    return .mk (.someVars names) mods
  | .mk (.someIn key value c) mods => do
    let c ← c.arrange? arity visible
    let mods ← arrangeModifiers? arity visible mods
    return .mk (.someIn key value c) mods
  | .mk (.every key value domain body) mods => do
    let domain ← domain.arrange? arity visible
    let outside := value :: (key.toList ++ visible)
    let vars := BodyVars.of arity outside body []
    let order ← bodyOrder? arity outside vars body []
    let stmts ← arrangeStmts? arity (vars.own ++ outside) body
    let mods ← arrangeModifiers? arity visible mods
    return .mk (.every key value domain (pick order stmts)) mods

end

/-- A body with its statements, and those of the bodies inside them, in order. -/
def arrangeBody? (arity : Arity) (visible : List String) (body : Query) (heads : List Expr) :
    Option Query := do
  let vars := BodyVars.of arity visible body heads
  let order ← bodyOrder? arity visible vars body heads
  let stmts ← arrangeStmts? arity (vars.own ++ visible) body
  return pick order stmts

end PolicySync.Policy
