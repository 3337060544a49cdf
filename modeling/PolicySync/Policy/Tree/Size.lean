import PolicySync.Policy.Tree

/-!
# Sizes of syntax trees
-/

namespace PolicySync.Policy

mutual

/-- How many nodes an expression has. -/
def Expr.size : Expr → Nat
  | .array items => sizeOfExprs items + 1
  | .set items => sizeOfExprs items + 1
  | .object fields => sizeOfFields fields + 1
  | .arrayCompr head body => head.size + sizeOfStmts body + 1
  | .setCompr head body => head.size + sizeOfStmts body + 1
  | .objectCompr key value body => key.size + value.size + sizeOfStmts body + 1
  | .call function args => function.size + sizeOfExprs args + 1
  | .neg operand => operand.size + 1
  | .dot base _ => base.size + 1
  | .index base key => base.size + key.size + 1
  | .binary _ lhs rhs => lhs.size + rhs.size + 1
  | .member none value c => value.size + c.size + 1
  | .member (some key) value c => key.size + value.size + c.size + 1
  | .assign _ lhs rhs => lhs.size + rhs.size + 1
  | _ => 1

def sizeOfExprs : List Expr → Nat
  | [] => 0
  | e :: rest => e.size + sizeOfExprs rest

def sizeOfFields : List (Expr × Expr) → Nat
  | [] => 0
  | (key, value) :: rest => key.size + value.size + sizeOfFields rest

def sizeOfModifiers : List (SegmentPath × Expr) → Nat
  | [] => 0
  | (_, value) :: rest => value.size + sizeOfModifiers rest

def sizeOfStmts : List Stmt → Nat
  | [] => 0
  | s :: rest => s.size + sizeOfStmts rest

def Stmt.size : Stmt → Nat
  | .mk (.expr _ e) mods => e.size + sizeOfModifiers mods + 1
  | .mk (.someVars _) mods => sizeOfModifiers mods + 1
  | .mk (.someIn none value c) mods => value.size + c.size + sizeOfModifiers mods + 1
  | .mk (.someIn (some key) value c) mods =>
    key.size + value.size + c.size + sizeOfModifiers mods + 1
  | .mk (.every _ _ domain body) mods =>
    domain.size + sizeOfStmts body + sizeOfModifiers mods + 1

end

def total (sizes : List Nat) : Nat := sizes.foldl (· + ·) 0

def sizeOfBodies (bodies : List RuleBody) : Nat :=
  total (bodies.map fun b => sizeOfExprs b.value.toList + sizeOfStmts b.query + 1)

end PolicySync.Policy
