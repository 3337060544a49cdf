import PolicySync.Policy.Loop
import PolicySync.Policy.Program

/-!
# Evaluation

An expression has a value or none. A statement is evaluated for every solution of those before
it, loops first; the solutions of a body are found one after the other. Rules are evaluated
when something looks them up, and what they give is kept in the tree of documents. Every
function takes a bound on the depth of calls; running out of it is a fault of its own.
-/

namespace PolicySync.Policy

open PolicySync.Text

/-- Variables with their values, latest first; a declared variable has none until it is bound. -/
abbrev Env := List (String × Option Value)

/-- What an expression is evaluated in. -/
structure Context where
  program : Program
  package : List String
  input : Option Value
  /-- Documents that a `with` modifier replaces. -/
  overrides : List (List String × Value)
  /-- The rules and functions that are being evaluated. -/
  active : List Nat
  /-- Whether an expression inside a pattern is evaluated, which may not look up rules. -/
  inPattern : Bool

/-- What was evaluated so far. -/
structure Memory where
  documents : Document
  /-- The entries whose documents are complete. -/
  done : List Nat

/-- A step of evaluation. -/
abbrev Eval (α : Type) := StateT Memory (Except Fault) α

def Eval.fail {α : Type} (fault : Fault) : Eval α := throw fault

/-- What is there before any rule is evaluated. -/
def Memory.initial (p : Program) : Memory where
  documents :=
    (p.folders.foldl (fun d path =>
      (Document.update Document.putFolder (path.map Value.string) d).or d) none).getD (.folder [])
  done := []

/-- The value of a scalar as written. -/
def scalarValue? (text : String) : Option Value :=
  match text with
  | "null" => some .null
  | "true" => some (.bool true)
  | "false" => some (.bool false)
  | text =>
    match text.toList with
    | '-' :: digits => do
      let (d, _) ← Decimal.scan digits
      return .number (-(← d.value?))
    | digits => do
      let (d, _) ← Decimal.scan digits
      return .number (← d.value?)

/-- The negation of a number written without sign. Nothing else has one. -/
def negated? : Expr → Option Value
  | .scalar text =>
    if text.toList.head? = some '-' then none
    else
      match scalarValue? text with
      | some (.number q) => some (.number (-q))
      | _ => none
  | _ => none

mutual

/-- Whether an expression may be a default value: it refers to nothing. -/
def isConstant : Expr → Bool
  | .scalar _ => true
  | .quoted _ _ => true
  | .verbatim _ => true
  | .array items => allConstant items
  | .set items => allConstant items
  | .object fields => allConstantFields fields
  | .arrayCompr .. => true
  | .setCompr .. => true
  | .objectCompr .. => true
  | .neg operand => (negated? operand).isSome
  | _ => false

def allConstant : List Expr → Bool
  | [] => true
  | e :: rest => isConstant e && allConstant rest

def allConstantFields : List (Expr × Expr) → Bool
  | [] => true
  | (key, value) :: rest => isConstant key && isConstant value && allConstantFields rest

end

mutual

/-- Whether an expression has the same value for all solutions of a body, so that one is
enough. -/
def isFixed : Expr → Bool
  | .scalar _ => true
  | .quoted _ _ => true
  | .verbatim _ => true
  | .array items => allFixed items
  | .set items => allFixed items
  | .object fields => allFixedFields fields
  | .neg operand => isFixed operand
  | .binary _ lhs rhs => isFixed lhs && isFixed rhs
  | _ => false

def allFixed : List Expr → Bool
  | [] => true
  | e :: rest => isFixed e && allFixed rest

def allFixedFields : List (Expr × Expr) → Bool
  | [] => true
  | (key, value) :: rest => isFixed key && isFixed value && allFixedFields rest

end

/-- The part of a reference before its last fields and quoted keys, and those as written. -/
def splitFields : Expr → Expr × List String
  | .dot base field =>
    let (head, fields) := splitFields base
    (head, fields ++ [field])
  | .index base (.quoted raw _) =>
    let (head, fields) := splitFields base
    (head, fields ++ [raw])
  | e => (e, [])

/-- A path as an expression. -/
def SegmentPath.toExpr (p : SegmentPath) : Expr :=
  p.rest.foldl (fun e field => .dot e field) (.var p.head)

/-- The values of a function at each element, as long as it has any. -/
def collect {α β : Type} (f : α → Eval (Option β)) : List α → Eval (Option (List β))
  | [] => return some []
  | x :: rest => do
    match ← f x with
    | none => return none
    | some y =>
      match ← collect f rest with
      | none => return none
      | some ys => return some (y :: ys)

/-- Whether something holds of each element, up to the first of which it does not. -/
def holdsForAll {α : Type} (f : α → Eval Bool) : List α → Eval Bool
  | [] => return true
  | x :: rest => do
    if ← f x then holdsForAll f rest else return false

/-- The results for each element in order; only up to the first with any when one is enough. The
function is told whether an element is the last, and hands on a state. -/
def gather {σ α β : Type} (once : Bool) (f : Bool → σ → α → Eval (σ × List β)) :
    σ → List α → Eval (List β)
  | _, [] => return []
  | s, x :: rest => do
    let (s, found) ← f rest.isEmpty s x
    if once && !found.isEmpty then return found
    else return found ++ (← gather once f s rest)

/-- The first list that is not empty. -/
def firstFound {α β : Type} (f : α → Eval (List β)) : List α → Eval (List β)
  | [] => return []
  | x :: rest => do
    let found ← f x
    if found.isEmpty then firstFound f rest else return found

/-- A solution of a body: what its statements show, and the values of the expressions at its end,
if all of them have one. -/
structure Solution where
  shown : List Value
  outputs : Option (List Value)

/-- The rows of values at the ends of solutions. -/
def outputRows (solutions : List Solution) : List (List Value) :=
  solutions.filterMap Solution.outputs

/-- Whether a statement with a value holds. -/
def holds : Option Value → Bool
  | none => false
  | some v => !Value.same v (.bool false)

/-- Whether two values are the same, or there are none. -/
def sameResult : Option Value → Option Value → Bool
  | none, none => true
  | some v, some w => Value.same v w
  | _, _ => false

/-- The members of an object from its fields; two values under one key are a fault. -/
def uniqueFields : List (Value × Value) → List (Value × Value) → Except Fault (List (Value × Value))
  | fields, [] => .ok fields
  | fields, (key, value) :: rest =>
    match Value.field? key fields with
    | some old => if Value.same old value then uniqueFields fields rest else .error .conflict
    | none => uniqueFields (Value.insertField key value fields) rest

/-- Replaces the part of a value under keys. -/
def replaceNested : List String → Value → Option Value → Value
  | [], v, _ => v
  | key :: keys, v, some (.object fields) =>
    .object (Value.insertField (.string key)
      (replaceNested keys v (Value.field? (.string key) fields)) fields)
  | key :: keys, v, _ => .object [(.string key, replaceNested keys v none)]

/-- A context in which a document is replaced. -/
def Context.replace (ctx : Context) (target : SegmentPath) (v : Value) : Except Fault Context :=
  match target.head with
  | "input" => .ok { ctx with input := some (replaceNested target.rest v ctx.input) }
  | "data" => .ok { ctx with overrides := ctx.overrides ++ [(target.rest, v)] }
  | _ => .error .unsupported

/-- What stands at a path of the tree once documents are replaced. -/
def Context.overridden (ctx : Context) (path : List String) (v : Option Value) : Option Value :=
  ctx.overrides.foldl (fun v o =>
    if o.1.isPrefixOf path then o.2.chain? (path.drop o.1.length)
    else if path.isPrefixOf o.1 then some (replaceNested (o.1.drop path.length) o.2 v)
    else v) v

/-- Whether a name makes a look-up run: it is declared without value, or it is no variable and
no rule either. -/
def Context.runs (ctx : Context) (env : Env) : Loop.Runs := fun name =>
  name = "_" ||
    match lookupEntry name env with
    | some v => v.isNone
    | none => !ctx.program.hasRule ctx.package name

/-- Whether some rule of a package is being evaluated. -/
def Context.isActive (ctx : Context) (package : List String) : Bool :=
  ctx.program.entries.any fun e => ctx.active.contains e.id && e.package = package

/-- The context of an entry's own expressions. -/
def Context.enter (ctx : Context) (e : Entry) : Context :=
  { ctx with package := e.package, active := e.id :: ctx.active, inPattern := false }

/-- The longest front of a path at which there is an entry. -/
def longestEntry? (p : Program) (package : List String) : Nat → List String → Option (List String)
  | 0, _ => none
  | n + 1, path =>
    if p.hasEntry (package ++ path.take (n + 1)) then some (package ++ path.take (n + 1))
    else longestEntry? p package n path

/-- Changes the tree of documents; a change that does not fit is a conflict. -/
def change (f : Option Document → Option Document) (path : List Value) : Eval Unit := do
  let m ← get
  match Document.update f path (some m.documents) with
  | some documents => set { m with documents }
  | none => .fail .conflict

/-- Keeps a default value. -/
def Memory.addDefault (m : Memory) (path : List Value) (v : Value) : Memory :=
  { m with documents := Document.addDefault v path (some m.documents) }

/-- Keeps that an entry is complete. -/
def Memory.complete (m : Memory) (e : Entry) : Memory := { m with done := e.id :: m.done }

/-- The place of an entry as far as it needs no evaluation, and whether that is all of it. -/
def fixedPlace : List Expr → List Value × Bool
  | [] => ([], true)
  | .quoted _ value :: rest =>
    let (keys, whole) := fixedPlace rest
    (.string value :: keys, whole)
  | _ => ([], false)

def packageKeys (package : List String) : List Value := package.map Value.string

/-- Makes a folder of a place under a package, if it is not the package itself. -/
def makeFolder (package : List String) (keys : List Value) : Eval Unit :=
  if keys.isEmpty then return () else change Document.putFolder (packageKeys package ++ keys)

/-- What a rule leaves behind when it has no solution: the folder that its value would stand
in. -/
def leaveFolder (e : Entry) : Eval Unit :=
  let (keys, whole) := fixedPlace e.place
  makeFolder e.package (if whole then keys.dropLast else keys)

/-- What a rule for members leaves behind: its set, even if it is empty. -/
def leaveSet (e : Entry) : Eval Unit :=
  let (keys, whole) := fixedPlace e.place
  if whole then change Document.putSet (packageKeys e.package ++ keys)
  else makeFolder e.package keys

/-- Puts a value into the tree; the keys of its place come before it in a row. -/
def addValue (e : Entry) (row : List Value) : Eval Unit :=
  change (Document.putValue (row.getLastD .null)) (packageKeys e.package ++ row.dropLast)

/-- Puts a member into a set of the tree; the keys of the set's place come before it in a row. -/
def addMember (e : Entry) (row : List Value) : Eval Unit :=
  change (Document.putMember (row.getLastD .null)) (packageKeys e.package ++ row.dropLast)

/-- Bodies that all give the same value. -/
def withValue (value : Expr) (bodies : List RuleBody) : List RuleBody :=
  bodies.map fun b => { b with value := some value }

/-- The bodies of a rule with the value that each of them gives; a rule without bodies gives its
value once. -/
def alternatives (value : Option Expr) : List RuleBody → List (Option Expr × Query)
  | [] => [(value, [])]
  | first :: rest => (value, first.query) :: rest.map fun b => (b.value, b.query)

/-- The value of a head or a body that names none. -/
def trueValue : Expr := .scalar "true"

/-- The positions of the parts of a pattern whose form some value had. -/
abbrev Matched := List (List Nat)

mutual

/-- The value of an expression. -/
def evalExpr : Nat → Context → Env → Expr → Eval (Option Value)
  | 0, _, _, _ => .fail .tooDeep
  | fuel + 1, ctx, env, e =>
    match e with
    | .scalar text => return scalarValue? text
    | .quoted _ value => return some (.string value)
    | .verbatim value => return some (.string value)
    | .array items => return (← collect (evalExpr fuel ctx env) items).map Value.array
    | .set items => return (← collect (evalExpr fuel ctx env) items).map Value.setOf
    | .object fields => return (← collect (evalField fuel ctx env) fields).map Value.objectOf
    | .arrayCompr head body => do
      let found ← solve fuel ctx false env [] body [head]
      return some (.array (outputRows found).flatten)
    | .setCompr head body => do
      let found ← solve fuel ctx false env [] body [head]
      return some (.setOf (outputRows found).flatten)
    | .objectCompr key value body => do
      let found ← solve fuel ctx false env [] body [key, value]
      let fields := (outputRows found).filterMap fun row =>
        match row with
        | [k, v] => some (k, v)
        | _ => none
      let fields ← (uniqueFields [] fields : Except Fault _)
      return some (.object fields)
    | .call function args => evalCall fuel ctx env function args
    | .neg operand =>
      match negated? operand with
      | some v => return some v
      | none => .fail .wrongType
    | .binary op lhs rhs => do
      let a ← evalExpr fuel ctx env lhs
      let b ← evalExpr fuel ctx env rhs
      match a, b with
      | some a, some b => return some (← (op.apply a b : Except Fault Value))
      | _, _ => return none
    | .member key value collection => evalMember fuel ctx env key value collection
    | .assign op lhs rhs => return (← evalAssign fuel ctx env op lhs rhs).1
    | e => evalReference fuel ctx env e

def evalField : Nat → Context → Env → Expr × Expr → Eval (Option (Value × Value))
  | 0, _, _, _ => .fail .tooDeep
  | fuel + 1, ctx, env, (key, value) => do
    match ← evalExpr fuel ctx env key with
    | none => return none
    | some k => return (← evalExpr fuel ctx env value).map fun v => (k, v)

/-- Whether a collection holds a value, under a key if one is given. A value that is not there
is held under every key that is not there. -/
def evalMember : Nat → Context → Env → Option Expr → Expr → Expr → Eval (Option Value)
  | 0, _, _, _, _, _ => .fail .tooDeep
  | fuel + 1, ctx, env, key, value, collection => do
    let v ← evalExpr fuel ctx env value
    let c ← evalExpr fuel ctx env collection
    match c, key with
    | some (.set items), none => return some (.bool (items.any fun x => sameResult (some x) v))
    | some (.array items), none => return some (.bool (items.any fun x => sameResult (some x) v))
    | some (.object fields), none =>
      return some (.bool (fields.any fun f => sameResult (some f.2) v))
    | some (.array items), some key => do
      let k ← evalExpr fuel ctx env key
      return some (.bool (sameResult (k.bind fun k => (Value.array items).get? k) v))
    | some (.object fields), some key => do
      let k ← evalExpr fuel ctx env key
      return some (.bool (sameResult (k.bind fun k => Value.field? k fields) v))
    | _, _ => return some (.bool false)

/-- The value that a reference leads to. -/
def evalReference : Nat → Context → Env → Expr → Eval (Option Value)
  | 0, _, _, _ => .fail .tooDeep
  | fuel + 1, ctx, env, e =>
    match splitFields e with
    | (.var name, fields) => lookUp fuel ctx env false name fields
    | (.index base key, fields) => do
      let b ← evalExpr fuel ctx env base
      let k ← evalExpr fuel ctx env key
      match b, k with
      | some b, some k => return (b.get? k).bind fun v => v.chain? fields
      | _, _ => return none
    | (head, fields) => return (← evalExpr fuel ctx env head).bind fun v => v.chain? fields

/-- What stands under the fields of a name: a variable, a document, a rule of the package, or an
import. A name that is none of these is a fault, or has no value when that is asked for. -/
def lookUp : Nat → Context → Env → Bool → String → List String → Eval (Option Value)
  | 0, _, _, _, _, _ => .fail .tooDeep
  | fuel + 1, ctx, env, mayBeUnbound, name, fields =>
    match lookupEntry name env with
    | some v => return v.bind fun v => v.chain? fields
    | none =>
      if name = "input" then return ctx.input.bind fun v => v.chain? fields
      else if name = "data" then lookUpData fuel ctx fields
      else if ctx.inPattern then .fail (.unbound name)
      else
        match longestEntry? ctx.program ctx.package (fields.length + 1) (name :: fields) with
        | some path => do
          evalEntriesAt fuel ctx path
          let path := ctx.package ++ name :: fields
          return ctx.overridden path ((← get).documents.get? path)
        | none =>
          match ctx.program.import? ctx.package name with
          | some path => do
            let v ← evalExpr fuel ctx [] path.toExpr
            return v.bind fun v => v.chain? fields
          | none => if mayBeUnbound then return none else .fail (.unbound name)

/-- What stands at a path of the tree of documents, once the rules that it needs are
evaluated. -/
def lookUpData : Nat → Context → List String → Eval (Option Value)
  | 0, _, _ => .fail .tooDeep
  | fuel + 1, ctx, path => do
    match longestEntry? ctx.program [] path.length path with
    | some front => evalEntriesAt fuel ctx front
    | none =>
      if path.isEmpty && !ctx.active.isEmpty then pure ()
      else
        (ctx.program.packages.zipIdx.filter fun m =>
          path.isPrefixOf m.1 && !ctx.isActive m.1).forM fun m => do
            let entries := ctx.program.entries.filter fun e => e.module = m.2
            evalEntries fuel ctx entries
    return ctx.overridden path ((← get).documents.get? path)

/-- Evaluates the entries at a path and under it. -/
def evalEntriesAt : Nat → Context → List String → Eval Unit
  | 0, _, _ => .fail .tooDeep
  | fuel + 1, ctx, path =>
    evalEntries fuel ctx (ctx.program.entries.filter fun e => path.isPrefixOf e.path)

/-- Evaluates rules, then defaults. -/
def evalEntries : Nat → Context → List Entry → Eval Unit
  | 0, _, _ => .fail .tooDeep
  | fuel + 1, ctx, entries => do
    (entries.filter fun e => e.isDocument && !e.isDefault).forM (evalEntry fuel ctx)
    (entries.filter fun e => e.isDocument && e.isDefault).forM (evalEntry fuel ctx)

/-- Evaluates a rule or a default once and keeps what it gives. -/
def evalEntry : Nat → Context → Entry → Eval Unit
  | 0, _, _ => .fail .tooDeep
  | fuel + 1, ctx, e => do
    if (← get).done.contains e.id then return ()
    else if ctx.active.contains e.id then .fail .recursion
    else
      let inside := ctx.enter e
      match e.kind with
      | .value value bodies => do
        let rows ← evalBodies fuel inside e.place value bodies
        if rows.isEmpty then leaveFolder e else rows.forM (addValue e)
      | .member member bodies => do
        let rows ← evalBodies fuel inside e.place (some member) (withValue member bodies)
        if rows.isEmpty then leaveSet e else rows.forM (addMember e)
      | .lastKey key bodies => do
        let rows ← evalBodies fuel inside e.place (some key) (withValue key bodies)
        if rows.isEmpty then makeFolder e.package (fixedPlace e.place).1
        else rows.forM (addMember e)
      | .default value =>
        if !isConstant value then .fail .notConstant
        else
          match ← evalExpr fuel inside [] value, ← collect (evalExpr fuel inside []) e.place with
          | some v, some keys =>
            modify fun m => m.addDefault (packageKeys e.package ++ keys) v
          | _, _ => return ()
      | _ => return ()
      modify fun m => m.complete e

/-- The rows of the first body that gives any: the keys of a rule's place and its value. -/
def evalBodies : Nat → Context → List Expr → Option Expr → List RuleBody → Eval (List (List Value))
  | 0, _, _, _, _ => .fail .tooDeep
  | fuel + 1, ctx, place, value, bodies =>
    firstFound (fun (value, query) => do
      let outputs := place ++ [value.getD trueValue]
      return outputRows (← solve fuel ctx (allFixed outputs) [] [] query outputs))
      (alternatives value bodies)

/-- A call of a function of the modules, or of a built-in one. A call with an operand that has no
value has none. -/
def evalCall : Nat → Context → Env → Expr → List Expr → Eval (Option Value)
  | 0, _, _, _, _ => .fail .tooDeep
  | fuel + 1, ctx, env, function, args => do
    match ← collect (evalExpr fuel ctx env) args, functionPath? function with
    | none, _ => return none
    | some _, none => .fail .unknownFunction
    | some vs, some path =>
      let definitions := ctx.program.functionsAt (Program.functionPath ctx.package path)
      if !definitions.isEmpty then applyFunction fuel ctx definitions vs
      else
        match builtin? (".".intercalate path) with
        | some f => return some (← (f.apply vs : Except Fault Value))
        | none => .fail .unknownFunction

/-- The result on which all definitions of a function agree, else its default. -/
def applyFunction : Nat → Context → List Entry → List Value → Eval (Option Value)
  | 0, _, _, _ => .fail .tooDeep
  | fuel + 1, ctx, definitions, args => do
    let results ← definitions.mapM fun e => applyDefinition fuel ctx e args
    match results.filterMap id with
    | v :: rest => if rest.all (Value.same v) then return some v else .fail .conflict
    | [] =>
      match definitions.findSome? fun e =>
        match e.kind with
        | .defaultResult _ value => some (e, value)
        | _ => none with
      | some (e, value) => evalExpr fuel (ctx.enter e) [] value
      | none => return none

/-- The result of one definition: what the first body that has a solution gives. -/
def applyDefinition : Nat → Context → Entry → List Value → Eval (Option Value)
  | 0, _, _, _ => .fail .tooDeep
  | fuel + 1, ctx, e, args =>
    match e.kind with
    | .function params value bodies =>
      if ctx.active.contains e.id then .fail .recursion
      else if params.length ≠ args.length then .fail .wrongType
      else do
        let inside := ctx.enter e
        match ← bindAll fuel inside [] params args with
        | none => return none
        | some env => do
          let found ← firstFound (fun (alternative : (Option Expr × Query) × Nat) => do
            let ((own, query), position) := alternative
            let output :=
              match own with
              | some output => [output]
              | none => if position = 0 || value.isNone then [trueValue] else []
            solve fuel inside (allFixed output) env [] query output)
            (alternatives value bodies).zipIdx
          match (outputRows found).flatten with
          | [] => return none
          | v :: rest => if rest.all (Value.same v) then return some v else .fail .conflict
    | _ => return none

/-- Binds patterns to values one after the other. -/
def bindAll : Nat → Context → Env → List Expr → List Value → Eval (Option Env)
  | 0, _, _, _, _ => .fail .tooDeep
  | fuel + 1, ctx, env, patterns, values =>
    (patterns.zip values).foldlM (fun (env : Option Env) p => do
      match env with
      | none => return none
      | some env => return (← bindPattern fuel ctx false [] [] env p.1 p.2).1) (some env)

/-- Binds the variables of a pattern so that it equals a value. For the last of several values a
part of the pattern whose form no value had is a fault; the parts that had it are handed on. -/
def bindPattern : Nat → Context → Bool → List Nat → Matched → Env → Expr → Value →
    Eval (Option Env × Matched)
  | 0, _, _, _, _, _, _, _ => .fail .tooDeep
  | fuel + 1, ctx, isLast, position, matched, env, pattern, v =>
    let mismatch : Eval (Option Env × Matched) :=
      if isLast && !matched.contains position then .fail .wrongType else return (none, matched)
    let part (state : Option Env × Matched) (p : (Expr × Value) × Nat) :
        Eval (Option Env × Matched) :=
      match state with
      | (none, matched) => return (none, matched)
      | (some env, matched) =>
        bindPattern fuel ctx isLast (p.2 :: position) matched env p.1.1 p.1.2
    match pattern, v with
    | .var name, v => do
      if name = "_" then return (some env, matched)
      else if Loop.isName name then
        let w ← evalExpr fuel ctx env pattern
        return (if sameResult w (some v) then some env else none, matched)
      else return (some ((name, some v) :: env), matched)
    | .array items, .array vs =>
      if items.length ≠ vs.length then mismatch
      else (items.zip vs).zipIdx.foldlM part (some env, position :: matched)
    | .object fields, .object values => do
      match ← collect (fun (f : Expr × Expr) => do
        let k ← evalExpr fuel { ctx with inPattern := true } env f.1
        return (k.bind fun k => Value.field? k values).map fun v => (f.2, v)) fields with
      | none => mismatch
      | some parts => parts.zipIdx.foldlM part (some env, position :: matched)
    | .array _, _ => mismatch
    | .object _, _ => mismatch
    | pattern, v => do
      match ← evalExpr fuel { ctx with inPattern := true } env pattern with
      | some w =>
        if Value.same v w then return (some env, position :: matched)
        else if v.rank = w.rank then return (none, position :: matched)
        else mismatch
      | none => mismatch

/-- Whether matching against a pattern can bind a variable or skip a value. -/
def hasHole : Nat → Context → Env → Expr → Eval Bool
  | 0, _, _, _ => .fail .tooDeep
  | fuel + 1, ctx, env, e =>
    match e with
    | .var name => do
      if name = "_" then return true
      else return (← lookUp fuel ctx env true name []).isNone
    | .array items => return !(← holdsForAll (fun e => return !(← hasHole fuel ctx env e)) items)
    | .object fields =>
      return !(← holdsForAll (fun f => return !(← hasHole fuel ctx env f.2)) fields)
    | _ => return false

/-- `:=` declares variables; `=` binds those that are not bound and compares the rest. -/
def evalAssign : Nat → Context → Env → AssignOp → Expr → Expr → Eval (Option Value × Env)
  | 0, _, _, _, _, _ => .fail .tooDeep
  | fuel + 1, ctx, env, op, lhs, rhs =>
    match op with
    | .unify => evalUnify fuel ctx env lhs rhs
    | .declare => do
      if lhs.patternNames.any fun n => !Loop.isName n && (lookupEntry n env).isSome then
        .fail .redeclared
      else evalBinding fuel ctx env lhs rhs

/-- Binds a pattern to the value of an expression. -/
def evalBinding : Nat → Context → Env → Expr → Expr → Eval (Option Value × Env)
  | 0, _, _, _, _ => .fail .tooDeep
  | fuel + 1, ctx, env, pattern, e => do
    match ← evalExpr fuel ctx env e with
    | none => return (none, env)
    | some v =>
      match ← bindPattern fuel ctx false [] [] env pattern v with
      | (some env, _) => return (some (.bool true), env)
      | (none, _) => return (some (.bool false), env)

/-- Unifies two expressions. -/
def evalUnify : Nat → Context → Env → Expr → Expr → Eval (Option Value × Env)
  | 0, _, _, _, _ => .fail .tooDeep
  | fuel + 1, ctx, env, lhs, rhs => do
    let left ← hasHole fuel ctx env lhs
    let right ← hasHole fuel ctx env rhs
    match left, right with
    | true, false => evalBinding fuel ctx env lhs rhs
    | false, true => evalBinding fuel ctx env rhs lhs
    | false, false => do
      let v ← evalExpr fuel ctx env (.binary .eq lhs rhs)
      return (v, env)
    | true, true =>
      match lhs, rhs with
      | .array xs, .array ys =>
        if xs.length ≠ ys.length then return (some (.bool false), env)
        else unifyAll fuel ctx env (xs.zip ys)
      | .object xs, .object ys => do
        match ← collect (fun (f : Expr × Expr) => do
          return (← evalExpr fuel ctx env f.1).map fun k => (k, f.2)) xs,
          ← collect (fun (f : Expr × Expr) => do
            return (← evalExpr fuel ctx env f.1).map fun k => (k, f.2)) ys with
        | some xs, some ys =>
          let pairs := xs.filterMap fun x =>
            (ys.find? fun y => Value.same x.1 y.1).map fun y => (x.2, y.2)
          if xs.length = ys.length ∧ pairs.length = xs.length then unifyAll fuel ctx env pairs
          else return (some (.bool false), env)
        | _, _ => return (none, env)
      | _, _ => .fail (.unbound "")

/-- Unifies pairs of expressions one after the other, as long as they unify. -/
def unifyAll : Nat → Context → Env → List (Expr × Expr) → Eval (Option Value × Env)
  | 0, _, _, _ => .fail .tooDeep
  | fuel + 1, ctx, env, pairs =>
    pairs.foldlM (fun (state : Option Value × Env) p => do
      if holds state.1 then evalUnify fuel ctx state.2 p.1 p.2 else return state)
      (some (.bool true), env)

/-- The value of an expression as a statement, with the variables that it binds. A call can have
its result as one operand more, which is bound where `mayBind` allows it. -/
def evalStatement : Nat → Context → Env → Bool → Expr → Eval (Option Value × Env)
  | 0, _, _, _, _ => .fail .tooDeep
  | fuel + 1, ctx, env, mayBind, e =>
    match e with
    | .assign op lhs rhs => evalAssign fuel ctx env op lhs rhs
    | e =>
      match returnOperand? (ctx.program.arity ctx.package) e with
      | none => return (← evalExpr fuel ctx env e, env)
      | some (function, args, last) => do
        let binds ←
          match last with
          | .var name =>
            if mayBind && !Loop.isName name then hasHole fuel ctx env last else pure false
          | _ => pure false
        let v ← evalCall fuel ctx env function args
        if binds then
          match v with
          | none => return (none, env)
          | some v => do
            let (bound, _) ← bindPattern fuel ctx false [] [] env last v
            return (some (.bool true), bound.getD env)
        else
          let w ← evalExpr fuel ctx env last
          return (some (.bool (sameResult v w)), env)

/-- The solutions of statements after those before them; `shown` is what those show. -/
def solve : Nat → Context → Bool → Env → List Value → List Stmt → List Expr → Eval (List Solution)
  | 0, _, _, _, _, _, _ => .fail .tooDeep
  | fuel + 1, ctx, once, env, shown, stmts, outputs =>
    match stmts with
    | [] =>
      let split := Loop.splitAll (ctx.runs env) 0 outputs
      solveLoops fuel ctx once env shown split.loops none [] split.rest
    | .mk literal mods :: rest =>
      let split := Loop.splitLiteral (ctx.runs env) literal
      solveLoops fuel ctx once env shown split.loops (some (.mk split.rest mods)) rest outputs

/-- The solutions inside of loops: of a statement and those after it, or of the expressions at
the end. -/
def solveLoops : Nat → Context → Bool → Env → List Value → List Loop → Option Stmt →
    List Stmt → List Expr → Eval (List Solution)
  | 0, _, _, _, _, _, _, _, _ => .fail .tooDeep
  | fuel + 1, ctx, once, env, shown, loops, stmt, rest, outputs =>
    match loops, stmt with
    | [], some s => solveStmt fuel ctx once env shown s rest outputs
    | [], none => do
      return [⟨shown, ← collect (evalExpr fuel ctx env) outputs⟩]
    | l :: loops, stmt => do
      let base ← evalExpr fuel ctx env l.base
      let bound :=
        match l.key with
        | .var name => (lookupEntry name env).bind id
        | _ => none
      match base, bound with
      | none, _ => return []
      | some base, some key =>
        match base.get? key with
        | none => return []
        | some v =>
          solveLoops fuel ctx once ((l.name, some v) :: env) shown loops stmt rest outputs
      | some base, none =>
        match base.elements? with
        | none => .fail .wrongType
        | some elements =>
          gather once (fun _ matched (k, v) => do
            match ← bindPattern fuel ctx false [] matched env l.key k with
            | (none, matched) => return (matched, [])
            | (some env, matched) =>
              let found ←
                solveLoops fuel ctx once ((l.name, some v) :: env) shown loops stmt rest outputs
              return (matched, found)) [] elements

/-- The solutions of a statement without loops and of those after it. -/
def solveStmt : Nat → Context → Bool → Env → List Value → Stmt → List Stmt → List Expr →
    Eval (List Solution)
  | 0, _, _, _, _, _, _, _ => .fail .tooDeep
  | fuel + 1, ctx, once, env, shown, .mk literal mods, rest, outputs => do
    let saved ← get
    let changed ← modifiedContext fuel ctx env mods
    if !mods.isEmpty then set (Memory.initial ctx.program)
    let restore : Eval Unit := if mods.isEmpty then return () else set saved
    match changed, literal with
    | none, _ => do
      restore
      return []
    | some inside, .expr negated e => do
      let (v, env') ← evalStatement fuel inside env (!negated) e
      restore
      match negated, holds v with
      | false, true => solve fuel ctx once env' (shown ++ v.toList) rest outputs
      | true, false => solve fuel ctx once env (shown ++ [.bool true]) rest outputs
      | _, _ => return []
    | some _, .someVars names => do
      restore
      let declared : Env := names.map fun n => (n, none)
      solve fuel ctx once (declared ++ env) (shown ++ [.bool true]) rest outputs
    | some inside, .someIn key value collection => do
      let c ← evalExpr fuel inside env collection
      restore
      match c with
      | none => return []
      | some c =>
        match c.elements? with
        | none => .fail .wrongType
        | some elements =>
          gather once (fun isLast matched (k, v) => do
            let (env', matched) ←
              match key with
              | none => pure (some env, matched)
              | some key => bindPattern fuel ctx isLast [0] matched env key k
            match env' with
            | none => return (matched, [])
            | some env' =>
              match ← bindPattern fuel ctx isLast [1] matched env' value v with
              | (none, matched) => return (matched, [])
              | (some env', matched) =>
                let found ← solve fuel ctx once env' (shown ++ [.bool true]) rest outputs
                return (matched, found)) [] elements
    | some inside, .every key value domain body => do
      let d ← evalExpr fuel inside env domain
      let held ← holdsForAll (fun (k, v) => do
        let declared : Env := (value, some v) :: (key.toList.map fun n => (n, some k))
        let found ← solve fuel inside true (declared ++ env) [] body []
        return !found.isEmpty) ((d.bind Value.elements?).getD [])
      restore
      if held then solve fuel ctx once env (shown ++ [.bool true]) rest outputs else return []

/-- The context in which a statement with modifiers is evaluated; none when one of their values
is missing. -/
def modifiedContext : Nat → Context → Env → List (SegmentPath × Expr) → Eval (Option Context)
  | 0, _, _, _ => .fail .tooDeep
  | fuel + 1, ctx, env, mods =>
    mods.foldlM (fun (changed : Option Context) m => do
      match changed, ← evalExpr fuel ctx env m.2 with
      | some changed, some v => return some (← (changed.replace m.1 v : Except Fault Context))
      | _, _ => return none) (some ctx)

end

end PolicySync.Policy
