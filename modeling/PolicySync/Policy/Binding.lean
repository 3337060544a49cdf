import PolicySync.Policy.Tree

/-!
# Which variables a statement needs and binds

The variables of a body are those that it declares, by `:=` or `some`, and those that it binds
without declaring them: by unification, as keys of look-ups, or as the result of a call. A
name that is visible from outside is taken from there unless the body declares it.
Comprehensions are bodies of their own; from here only what they take from outside is seen.
-/

namespace PolicySync.Policy

/-- Names that stand for the same thing everywhere, and the name that stands for nothing. -/
def isVariable (name : String) : Bool := !(name = "_" || name = "input" || name = "data")

/-- How many operands the function at a path takes. -/
abbrev Arity := List String → Option Nat

/-- The path of a function: a name, then fields and quoted keys as written. -/
def functionPath? : Expr → Option (List String)
  | .var name => some [name]
  | .dot base field => (functionPath? base).map (· ++ [field])
  | .index base (.quoted raw _) => (functionPath? base).map (· ++ [raw])
  | _ => none

/-- The operand beyond those that a function takes, which holds the result of the call. -/
def returnOperand? (arity : Arity) : Expr → Option (Expr × List Expr × Expr)
  | .call function args => do
    let path ← functionPath? function
    let n ← arity path
    let last ← args.getLast?
    if args.length = n + 1 then return (function, args.dropLast, last) else none
  | _ => none

mutual

/-- The variables that a pattern can bind. -/
def Expr.patternNames : Expr → List String
  | .var name => if isVariable name then [name] else []
  | .array items => patternNamesOfExprs items
  | .object fields => patternNamesOfFields fields
  | _ => []

def patternNamesOfExprs : List Expr → List String
  | [] => []
  | e :: rest => e.patternNames ++ patternNamesOfExprs rest

def patternNamesOfFields : List (Expr × Expr) → List String
  | [] => []
  | (key, value) :: rest => key.patternNames ++ value.patternNames ++ patternNamesOfFields rest

end

mutual

/-- The variables of an expression, those inside comprehensions apart. -/
def Expr.names : Expr → List String
  | .scalar _ => []
  | .quoted _ _ => []
  | .verbatim _ => []
  | .var name => if isVariable name then [name] else []
  | .array items => namesOfExprs items
  | .set items => namesOfExprs items
  | .object fields => namesOfFields fields
  | .arrayCompr _ _ => []
  | .setCompr _ _ => []
  | .objectCompr _ _ _ => []
  | .call _ args => namesOfExprs args
  | .neg operand => operand.names
  | .dot base _ => base.names
  | .index base key => base.names ++ key.names
  | .binary _ lhs rhs => lhs.names ++ rhs.names
  | .member none value collection => value.names ++ collection.names
  | .member (some key) value collection => key.names ++ value.names ++ collection.names
  | .assign _ lhs rhs => lhs.names ++ rhs.names

def namesOfExprs : List Expr → List String
  | [] => []
  | e :: rest => e.names ++ namesOfExprs rest

def namesOfFields : List (Expr × Expr) → List String
  | [] => []
  | (key, value) :: rest => key.names ++ value.names ++ namesOfFields rest

end

/-- A look-up by a key that can bind variables: their names, and the names of its base. -/
structure KeyedLookup where
  keys : List String
  base : List String

mutual

/-- The look-ups by a key in an expression, those inside comprehensions apart. -/
def Expr.lookups : Expr → List KeyedLookup
  | .array items => lookupsOfExprs items
  | .set items => lookupsOfExprs items
  | .object fields => lookupsOfFields fields
  | .call _ args => lookupsOfExprs args
  | .neg operand => operand.lookups
  | .dot base _ => base.lookups
  | .index base key => ⟨key.patternNames, base.names⟩ :: (base.lookups ++ key.lookups)
  | .binary _ lhs rhs => lhs.lookups ++ rhs.lookups
  | .member none value collection => value.lookups ++ collection.lookups
  | .member (some key) value collection => key.lookups ++ value.lookups ++ collection.lookups
  | .assign _ lhs rhs => lhs.lookups ++ rhs.lookups
  | _ => []

def lookupsOfExprs : List Expr → List KeyedLookup
  | [] => []
  | e :: rest => e.lookups ++ lookupsOfExprs rest

def lookupsOfFields : List (Expr × Expr) → List KeyedLookup
  | [] => []
  | (key, value) :: rest => key.lookups ++ value.lookups ++ lookupsOfFields rest

end

/-- The variables that the keys of an expression's look-ups can bind. -/
def Expr.keyNames (e : Expr) : List String := e.lookups.flatMap KeyedLookup.keys

namespace Stmt

def modifierNames (s : Stmt) : List String := s.modifiers.flatMap fun m => m.2.names

/-- The variables that a statement declares. -/
def declares (s : Stmt) : List String :=
  match s.literal with
  | .expr _ (.assign .declare lhs _) => lhs.patternNames
  | .someVars names => names
  | .someIn key value _ => (key.map Expr.patternNames).getD [] ++ value.patternNames
  | _ => []

/-- The variables that an expression on its own can bind without declaring them. -/
def exprBinds (arity : Arity) (e : Expr) : List String :=
  let own :=
    match e with
    | .assign .declare _ rhs => rhs.patternNames
    | .assign .unify lhs rhs => lhs.patternNames ++ rhs.patternNames
    | e =>
      match returnOperand? arity e with
      | some (_, _, last) => last.patternNames
      | none => e.patternNames
  own ++ e.keyNames

/-- The variables that a statement can bind without declaring them. -/
def binds (arity : Arity) (s : Stmt) : List String :=
  let own :=
    match s.literal with
    | .expr _ e => exprBinds arity e
    | .someVars _ => []
    | .someIn key value c => (key.map Expr.keyNames).getD [] ++ value.keyNames ++ c.keyNames
    | .every _ _ domain _ => domain.keyNames
  own ++ s.modifiers.flatMap fun m => m.2.keyNames

/-- The variables that occur in a statement, those of bodies inside it apart. -/
def mentions (s : Stmt) : List String :=
  let own :=
    match s.literal with
    | .expr _ e => e.names
    | .someVars _ => []
    | .someIn key value c => (key.map Expr.names).getD [] ++ value.names ++ c.names
    | .every _ _ domain _ => domain.names
  own ++ s.modifierNames

end Stmt

/-- The variables of a body. -/
structure BodyVars where
  /-- Those that belong to the body. -/
  own : List String
  /-- Those that it takes from outside. -/
  inputs : List String

/-- The variables of a body and of the expressions that are evaluated where it ends, given the
names that are visible from outside. -/
def BodyVars.of (arity : Arity) (visible : List String) (body : Query) (heads : List Expr) :
    BodyVars where
  own :=
    body.flatMap Stmt.declares ++
      (body.flatMap (Stmt.binds arity) ++
        heads.flatMap fun e => e.patternNames ++ e.keyNames).filter fun n => !visible.contains n
  inputs :=
    (body.flatMap Stmt.mentions ++ heads.flatMap Expr.names).filter fun n => visible.contains n

def BodyVars.isOwn (vars : BodyVars) (name : String) : Bool := vars.own.contains name

mutual

/-- The visible variables that the comprehensions of an expression take from outside. -/
def Expr.captures (arity : Arity) (visible : List String) : Expr → List String
  | .arrayCompr head body =>
    let vars := BodyVars.of arity visible body [head]
    vars.inputs ++
      (head.captures arity (vars.own ++ visible) ++
        capturesOfStmts arity (vars.own ++ visible) body).filter fun n => !vars.isOwn n
  | .setCompr head body =>
    let vars := BodyVars.of arity visible body [head]
    vars.inputs ++
      (head.captures arity (vars.own ++ visible) ++
        capturesOfStmts arity (vars.own ++ visible) body).filter fun n => !vars.isOwn n
  | .objectCompr key value body =>
    let vars := BodyVars.of arity visible body [key, value]
    vars.inputs ++
      (key.captures arity (vars.own ++ visible) ++ value.captures arity (vars.own ++ visible) ++
        capturesOfStmts arity (vars.own ++ visible) body).filter fun n => !vars.isOwn n
  | .array items => capturesOfExprs arity visible items
  | .set items => capturesOfExprs arity visible items
  | .object fields => capturesOfFields arity visible fields
  | .call _ args => capturesOfExprs arity visible args
  | .neg operand => operand.captures arity visible
  | .dot base _ => base.captures arity visible
  | .index base key => base.captures arity visible ++ key.captures arity visible
  | .binary _ lhs rhs => lhs.captures arity visible ++ rhs.captures arity visible
  | .member none value c => value.captures arity visible ++ c.captures arity visible
  | .member (some key) value c =>
    key.captures arity visible ++ value.captures arity visible ++ c.captures arity visible
  | .assign _ lhs rhs => lhs.captures arity visible ++ rhs.captures arity visible
  | .scalar _ => []
  | .quoted _ _ => []
  | .verbatim _ => []
  | .var _ => []

def capturesOfExprs (arity : Arity) (visible : List String) : List Expr → List String
  | [] => []
  | e :: rest => e.captures arity visible ++ capturesOfExprs arity visible rest

def capturesOfFields (arity : Arity) (visible : List String) : List (Expr × Expr) → List String
  | [] => []
  | (key, value) :: rest =>
    key.captures arity visible ++ value.captures arity visible ++
      capturesOfFields arity visible rest

def capturesOfModifiers (arity : Arity) (visible : List String) :
    List (SegmentPath × Expr) → List String
  | [] => []
  | (_, value) :: rest => value.captures arity visible ++ capturesOfModifiers arity visible rest

/-- What the bodies inside statements take from outside. -/
def capturesOfStmts (arity : Arity) (visible : List String) : List Stmt → List String
  | [] => []
  | s :: rest => s.captures arity visible ++ capturesOfStmts arity visible rest

def Stmt.captures (arity : Arity) (visible : List String) : Stmt → List String
  | .mk (.expr _ e) mods => e.captures arity visible ++ capturesOfModifiers arity visible mods
  | .mk (.someVars _) mods => capturesOfModifiers arity visible mods
  | .mk (.someIn _ _ c) mods => c.captures arity visible ++ capturesOfModifiers arity visible mods
  | .mk (.every key value domain body) mods =>
    let outside := value :: (key.toList ++ visible)
    let vars := BodyVars.of arity outside body []
    domain.captures arity visible ++
      ((vars.inputs ++ capturesOfStmts arity (vars.own ++ outside) body).filter fun n =>
        n ≠ value && some n ≠ key && !vars.isOwn n) ++
      capturesOfModifiers arity visible mods

end

end PolicySync.Policy
