import PolicySync.Policy.Binding

/-!
# The order of the statements of a body

Each statement is evaluated after the statements that bind what it needs. The order is found
variable by variable, and a statement that binds nothing follows as soon as it can.
-/

namespace PolicySync.Policy

/-- A variable that a statement binds, or none, and the variables that this needs. -/
structure Definition where
  var : Option String
  needs : List String

/-- The definitions of a statement. -/
abbrev Definitions := List Definition

namespace Order

/-- The variables defined once the definitions of a statement are used whose needs are met, at
most `fuel` times over. -/
def closure (defs : Definitions) : Nat → List String → List String
  | 0, defined => defined
  | fuel + 1, defined =>
    let met := defs.filter fun d => d.needs.all defined.contains
    closure defs fuel (met.filterMap Definition.var ++ defined)

/-- The variables defined after a statement, when the needs of all its definitions can be
met. -/
def after? (defined : List String) (defs : Definitions) : Option (List String) :=
  let defined := closure defs defs.length defined
  if defs.all fun d => d.needs.all defined.contains then some defined else none

/-- The statements put in order so far, and the variables that they define. -/
structure Progress where
  order : List Nat
  defined : List String

/-- Puts a statement next that defines a variable, unless it is in order already. What that
definition needs has to be defined before; the needs of the others can be met by the statement
itself. -/
def Progress.take (var : Option String) (p : Progress) (stmt : Nat × Definitions) : Progress :=
  let starts := stmt.2.any fun d => d.var = var && d.needs.all p.defined.contains
  if p.order.contains stmt.1 || !starts then p
  else
    match after? p.defined stmt.2 with
    | some defined => ⟨p.order ++ [stmt.1], defined⟩
    | none => p

/-- Takes every statement that defines a variable, or every statement with a definition of
none. -/
def Progress.takeFor (stmts : List (Nat × Definitions)) (p : Progress) (var : Option String) :
    Progress :=
  stmts.foldl (Progress.take var) p

/-- Takes statements for each variable in turn; after each success, those that bind none. -/
def Progress.pass (stmts : List (Nat × Definitions)) (vars : List (Option String))
    (p : Progress) : Progress :=
  vars.foldl (fun p var =>
    let q := p.takeFor stmts var
    if p.order.length < q.order.length then q.takeFor stmts none else q) p

def passes (stmts : List (Nat × Definitions)) (vars : List (Option String)) :
    Nat → Progress → Progress
  | 0, p => p
  | fuel + 1, p => passes stmts vars fuel (p.pass stmts vars)

/-- Puts a text into an ascending list, unless it is there already. -/
def insertText (s : String) : List String → List String
  | [] => [s]
  | t :: rest =>
    if s < t then s :: t :: rest
    else if s = t then t :: rest
    else t :: insertText s rest

/-- The variables of definitions in ascending order, after the place of none. -/
def targets (stmts : List Definitions) : List (Option String) :=
  none :: ((stmts.flatten.filterMap Definition.var).foldl (fun l s => insertText s l) []).map some

/-- The positions of statements in the order of their evaluation: their own order when some
statement's needs are never met. -/
def ofDefinitions (stmts : List Definitions) : List Nat :=
  let indexed := stmts.zipIdx.map fun (defs, i) => (i, defs)
  let p := passes indexed (targets stmts) stmts.length ⟨[], []⟩
  if p.order.length = stmts.length then p.order else List.range stmts.length

end Order

/-- What an expression of a body needs from the body itself. -/
def BodyVars.needs (vars : BodyVars) (arity : Arity) (visible : List String) (e : Expr) :
    List String :=
  (e.names ++ e.captures arity (vars.own ++ visible)).filter vars.isOwn

/-- What the keys of an expression's look-ups define. -/
def BodyVars.keyDefinitions (vars : BodyVars) (e : Expr) : Definitions :=
  e.lookups.flatMap fun l =>
    (l.keys.filter vars.isOwn).map fun v => ⟨some v, l.base.filter vars.isOwn⟩

/-- Definitions of variables with common needs, or of none. -/
def defining (names : List String) (needs : List String) : Definitions :=
  if names.isEmpty then [⟨none, needs⟩] else names.map fun v => ⟨some v, needs⟩

mutual

/-- The definitions of an assignment. Two arrays are assigned item by item and have to be of one
length. -/
def assignDefinitions (arity : Arity) (visible : List String) (vars : BodyVars) (op : AssignOp)
    (lhs rhs : Expr) : Option Definitions :=
  match lhs, rhs with
  | .array xs, .array ys => assignItemDefinitions arity visible vars op xs ys
  | lhs, rhs =>
    let forward := vars.keyDefinitions rhs ++
      defining (lhs.patternNames.filter vars.isOwn) (vars.needs arity visible rhs)
    match op with
    | .declare => some forward
    | .unify =>
      some (forward ++ vars.keyDefinitions lhs ++
        defining (rhs.patternNames.filter vars.isOwn) (vars.needs arity visible lhs))

def assignItemDefinitions (arity : Arity) (visible : List String) (vars : BodyVars)
    (op : AssignOp) : List Expr → List Expr → Option Definitions
  | [], [] => some []
  | x :: xs, y :: ys => do
    let first ← assignDefinitions arity visible vars op x y
    let rest ← assignItemDefinitions arity visible vars op xs ys
    return first ++ rest
  | _, _ => none

end

/-- The definitions of an expression as a statement. -/
def exprDefinitions (arity : Arity) (visible : List String) (vars : BodyVars) (e : Expr) :
    Option Definitions :=
  match e with
  | .assign op lhs rhs => assignDefinitions arity visible vars op lhs rhs
  | e =>
    match returnOperand? arity e with
    | some (function, args, .var name) =>
      let needs := vars.needs arity visible (.call function args)
      some (vars.keyDefinitions (.call function args) ++
        defining ([name].filter vars.isOwn) needs)
    | some (_, _, last) =>
      some (vars.keyDefinitions e ++
        defining (last.patternNames.filter vars.isOwn) (vars.needs arity visible e))
    | none => some (vars.keyDefinitions e ++ defining [] (vars.needs arity visible e))

/-- The definitions of a statement; none when it assigns arrays of different lengths. -/
def Stmt.definitions? (arity : Arity) (visible : List String) (vars : BodyVars) (s : Stmt) :
    Option Definitions := do
  let own ←
    match s with
    | .mk (.expr _ e) _ => exprDefinitions arity visible vars e
    | .mk (.someVars _) _ => some (defining [] [])
    | .mk (.someIn key value c) _ =>
      let names := ((key.map Expr.patternNames).getD [] ++ value.patternNames).filter vars.isOwn
      some (vars.keyDefinitions c ++ defining names (vars.needs arity visible c))
    | .mk (.every key value domain body) _ =>
      let needs := vars.needs arity visible domain ++
        ((Stmt.mk (.every key value domain body) []).captures arity
          (vars.own ++ visible)).filter vars.isOwn
      some (vars.keyDefinitions domain ++ defining [] needs)
  let mods := s.modifiers.flatMap fun m =>
    vars.keyDefinitions m.2 ++ defining [] (vars.needs arity visible m.2)
  let all := own ++ mods
  return if all.isEmpty then defining [] [] else all

end PolicySync.Policy
