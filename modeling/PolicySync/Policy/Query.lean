import PolicySync.Policy.Eval
import PolicySync.Policy.Tree.Size

/-!
# Answering queries

A query is asked from outside of all packages. Its answer is a list of rows, one for each way
in which its statements hold.
-/

namespace PolicySync.Policy

def Entry.Kind.size : Entry.Kind → Nat
  | .value v bodies => sizeOfExprs v.toList + sizeOfBodies bodies
  | .member m bodies => m.size + sizeOfBodies bodies
  | .lastKey key bodies => key.size + sizeOfBodies bodies
  | .function params v bodies =>
    sizeOfExprs params + sizeOfExprs v.toList + sizeOfBodies bodies
  | .default v => v.size
  | .defaultResult params v => sizeOfExprs params + v.size

def Entry.size (e : Entry) : Nat :=
  e.package.length + e.names.length + sizeOfExprs e.place + e.kind.size

/-- A depth that evaluation does not reach: a rule is not entered again before it is finished,
and inside a rule every few calls go one node down. -/
def Program.depthBound (p : Program) (query : Query) : Nat :=
  let imports := p.imports.map fun b => b.path.rest.length + 1
  16 * (p.entries.length + 2) *
    (total (p.entries.map Entry.size) + total imports + sizeOfStmts query + 2)

/-- The context of queries: no module has its package. -/
def Context.outside (p : Program) : Context where
  program := p
  package := [""]
  input := none
  overrides := []
  active := []
  inPattern := false

/-- What statements show, put back from the order of their evaluation into their own. -/
def inSourceOrder (order : List Nat) (shown : List Value) : List Value :=
  (List.range order.length).filterMap fun i => (order.zip shown).lookup i

/-- A statement that is alone and has no loops shows its value even if it does not hold; a
negation or an `every` shows that it was asked. -/
def aloneRows (fuel : Nat) (ctx : Context) : List Stmt → Eval (List (List Value))
  | [.mk literal mods] =>
    if !(Loop.splitLiteral (ctx.runs []) literal).loops.isEmpty then return []
    else do
      match ← modifiedContext fuel ctx [] mods, literal with
      | some inside, .expr false e => do
        if !mods.isEmpty then set (Memory.initial ctx.program)
        let (v, _) ← evalStatement fuel inside [] true e
        return v.toList.map fun v => [v]
      | some _, .expr true _ => return [[.bool true]]
      | some _, .every .. => return [[.bool true]]
      | _, _ => return []
  | _ => return []

/-- The rows of a query whose statements stand in the order of their evaluation. -/
def queryRows (fuel : Nat) (ctx : Context) (order : List Nat) (stmts : List Stmt) :
    Eval (List (List Value)) := do
  let found ← solve fuel ctx false [] [] stmts []
  if found.isEmpty then aloneRows fuel ctx stmts
  else return found.map fun s => inSourceOrder order s.shown

/-- The rows of a query that is asked from outside of all packages. -/
def Program.evalQuery (p : Program) (query : Query) : Except Fault (List (List Value)) :=
  let ctx := Context.outside p
  let arity := p.arity ctx.package
  let vars := BodyVars.of arity [] query []
  match bodyOrder? arity [] vars query [], arrangeStmts? arity vars.own query with
  | some order, some stmts =>
    match (queryRows (p.depthBound query) ctx order (pick order stmts)).run (.initial p) with
    | .ok (rows, _) => .ok rows
    | .error fault => .error fault
  | _, _ => .error .unsafeModules

/-- The rows of a query over modules. -/
def evalQuery (modules : List ModuleTree) (query : Query) : Except Fault (List (List Value)) :=
  match Program.ofModules? modules with
  | some p => p.evalQuery query
  | none => .error .unsafeModules

end PolicySync.Policy
