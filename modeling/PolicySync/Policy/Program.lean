import PolicySync.Policy.Arrangement
import PolicySync.Policy.Builtin
import PolicySync.Policy.Document
import PolicySync.Policy.Grammar.Module

/-!
# Programs

The rules and functions of several modules with their bodies arranged, each with its place in
the tree of documents.
-/

namespace PolicySync.Policy

/-- What an entry of a program gives. -/
inductive Entry.Kind where
  /-- A value for its place. -/
  | value (value : Option Expr) (bodies : List RuleBody)
  /-- A member for the set at its place. -/
  | member (member : Expr) (bodies : List RuleBody)
  /-- A member too, the last key of the reference; without solution its place is no set. -/
  | lastKey (key : Expr) (bodies : List RuleBody)
  | function (params : List Expr) (value : Option Expr) (bodies : List RuleBody)
  /-- The value of a place that has no other. -/
  | default (value : Expr)
  /-- The result of a function that has no other. -/
  | defaultResult (params : List Expr) (value : Expr)

structure Entry where
  id : Nat
  /-- The position of its module. -/
  module : Nat
  package : List String
  /-- The texts of its reference as written, under which it is looked up. -/
  names : List String
  /-- The keys of its place under its package. -/
  place : List Expr
  kind : Entry.Kind

namespace Entry

/-- The path under which an entry is looked up. -/
def path (e : Entry) : List String := e.package ++ e.names

def isFunction (e : Entry) : Bool :=
  match e.kind with
  | .function .. => true
  | .defaultResult .. => true
  | _ => false

def isDefault (e : Entry) : Bool :=
  match e.kind with
  | .default _ => true
  | .defaultResult .. => true
  | _ => false

/-- How many operands a function takes. -/
def arity? (e : Entry) : Option Nat :=
  match e.kind with
  | .function params _ _ => some params.length
  | .defaultResult params _ => some params.length
  | _ => none

/-- Whether an entry gives a document, by rule or by default. -/
def isDocument (e : Entry) : Bool := !e.isFunction

end Entry

/-- A name that a module imports, visible in all of its package. -/
structure Binding where
  package : List String
  name : String
  path : SegmentPath

structure Program where
  entries : List Entry
  /-- The package of each module. -/
  packages : List (List String)
  imports : List Binding
  /-- The places that are folders before any rule is evaluated. -/
  folders : List (List String)

namespace Program

/-- Whether a look-up at a path meets a rule, a function or a default. -/
def hasEntry (p : Program) (path : List String) : Bool :=
  p.entries.any fun e => e.package.length < path.length && path.isPrefixOf e.path

/-- Whether a package has a rule or a function, defaults apart, with a first name. -/
def hasRule (p : Program) (package : List String) (name : String) : Bool :=
  p.entries.any fun e => !e.isDefault && e.package = package && e.names.head? = some name

/-- The import of a package under a name; the last one holds. -/
def import? (p : Program) (package : List String) (name : String) : Option SegmentPath :=
  (p.imports.reverse.find? fun b => b.package = package && b.name = name).map Binding.path

/-- The definitions of a function. -/
def functionsAt (p : Program) (path : List String) : List Entry :=
  p.entries.filter fun e => e.isFunction && e.path = path

/-- The path that a call from a package can mean: its own under the package, or one that starts
at `data`. -/
def functionPath (package : List String) : List String → List String
  | "data" :: path => path
  | path => package ++ path

/-- How many operands the function takes that a call from a package names. -/
def arity (p : Program) (package : List String) : Arity := fun path =>
  match (p.functionsAt (functionPath package path)).findSome? Entry.arity? with
  | some n => some n
  | none => (builtin? (".".intercalate path)).map Builtin.arity

end Program

/-- The texts of a rule's reference as written; keys that are not quoted are left out. -/
def refNames : Expr → List String
  | .var name => [name]
  | .dot base field => refNames base ++ [field]
  | .index base (.quoted raw _) => refNames base ++ [raw]
  | .index base _ => refNames base
  | _ => []

/-- The keys of a rule's place. -/
def refPlace : Expr → List Expr
  | .var name => [.quoted name name]
  | .dot base field => refPlace base ++ [.quoted field field]
  | .index base key => refPlace base ++ [key]
  | _ => []

def RuleDecl.ref : RuleDecl → Expr
  | .default ref _ _ => ref
  | .rule (.complete ref _) _ => ref
  | .rule (.set ref _) _ => ref
  | .rule (.function ref _ _) _ => ref

/-- The first name of a rule's head. -/
def RuleDecl.rootName (r : RuleDecl) : String := (refNames r.ref).headD ""

/-- Arranges an expression of a rule's head, which is evaluated where the rule's first body
ends. -/
def arrangeHead? (arity : Arity) (visible : List String) (heads : List Expr)
    (bodies : List RuleBody) (e : Expr) : Option Expr :=
  match bodies with
  | [] => e.arrange? arity visible
  | first :: _ =>
    e.arrange? arity ((BodyVars.of arity visible first.query heads).own ++ visible)

/-- Arranges the bodies of a rule. The keys of its place and the value of its head belong to
each of them; a body with a value of its own has that in place of the head's. -/
def arrangeBodies? (arity : Arity) (visible : List String) (keys : List Expr)
    (value : Option Expr) (bodies : List RuleBody) : Option (List RuleBody) :=
  bodies.mapM fun b => do
    let heads := keys ++ (b.value.or value).toList
    let query ← arrangeBody? arity visible b.query heads
    match b.value with
    | none => return ⟨none, query⟩
    | some e =>
      let e ← arrangeHead? arity visible heads [b] e
      return ⟨some e, query⟩

/-- Arranges the value of a head, if it has one. -/
def arrangeValue? (arity : Arity) (visible : List String) (keys : List Expr)
    (value : Option Expr) (bodies : List RuleBody) : Option (Option Expr) :=
  match value with
  | none => some none
  | some e => (arrangeHead? arity visible (keys ++ [e]) bodies e).map some

/-- Whether a rule without value, written with a field or a key, adds its last key to a set. The
newer dialect gives it the value `true`. -/
def addsLastKey (strict : Bool) (place : List Expr) (value : Option Expr) : Bool :=
  !strict && value.isNone && 1 < place.length

/-- What a declaration gives, with the keys of its place. -/
def RuleDecl.kinds? (arity : Arity) (visible : List String) (strict : Bool) (r : RuleDecl) :
    Option (List (List Expr × Entry.Kind)) :=
  match r with
  | .default ref [] value => do
    let value ← value.arrange? arity visible
    return [(refPlace ref, .default value)]
  | .default ref params value => do
    let value ← value.arrange? arity visible
    return [(refPlace ref, .defaultResult params value)]
  | .rule (.complete ref value) bodies => do
    let keys := refPlace ref
    let arranged ← arrangeBodies? arity visible keys value bodies
    let value ← arrangeValue? arity visible keys value bodies
    if addsLastKey strict keys value then
      return [(keys.dropLast, .lastKey (keys.getLastD (.set [])) arranged)]
    else return [(keys, .value value arranged)]
  | .rule (.set ref key) bodies => do
    let keys := refPlace ref ++ [key]
    let arranged ← arrangeBodies? arity visible keys none bodies
    let key ← arrangeHead? arity visible keys bodies key
    return [(refPlace ref, .member key arranged)]
  | .rule (.function ref params value) bodies => do
    let outside := patternNamesOfExprs params ++ visible
    let arranged ← arrangeBodies? arity outside [] value bodies
    let value ← arrangeValue? arity outside [] value bodies
    let function := (refPlace ref, Entry.Kind.function params value arranged)
    if params.isEmpty then return [function, (refPlace ref, .value value arranged)]
    else return [function]

/-- The folder that a declaration needs: the part of its reference before the last name. -/
def RuleDecl.folder? (strict : Bool) (r : RuleDecl) : Option (List String) :=
  match r with
  | .rule (.complete ref value) _ =>
    if addsLastKey strict (refPlace ref) value then none else some (refNames ref).dropLast
  | r => some (refNames r.ref).dropLast

/-- The name under which an import is visible; an import of a whole document needs an alias,
except that `input` is visible anyhow. -/
def ImportDecl.binding? (package : List String) (i : ImportDecl) : Option (Option Binding) :=
  match i.name, i.path.rest.getLast? with
  | some name, _ => some (some ⟨package, name, i.path⟩)
  | none, some "" => none
  | none, some name => some (some ⟨package, name, i.path⟩)
  | none, none => if i.path.head = "input" then some none else none

/-- The names that a module's rules see: those of the rules of its package and the aliases of
its imports. -/
def visibleNames (modules : List ModuleTree) (m : ModuleTree) : List String :=
  ((modules.filter fun o => o.package = m.package).flatMap fun o =>
    o.rules.map RuleDecl.rootName) ++ m.imports.filterMap ImportDecl.name

/-- The operands of the functions of modules, before their bodies are arranged. -/
def declaredArities (modules : List ModuleTree) : List (List String × Nat) :=
  modules.flatMap fun m =>
    m.rules.filterMap fun r =>
      match r with
      | .rule (.function ref params _) _ =>
        some (m.package.segments ++ refNames ref, params.length)
      | .default _ [] _ => none
      | .default ref params _ => some (m.package.segments ++ refNames ref, params.length)
      | _ => none

/-- Whether all functions of one path take the same number of operands. -/
def aritiesAgree : List (List String × Nat) → Bool
  | [] => true
  | (path, n) :: rest => rest.all (fun r => r.1 ≠ path || r.2 = n) && aritiesAgree rest

/-- How many operands a call from a package gives to a function of modules or a built-in one. -/
def arityIn (arities : List (List String × Nat)) (package : List String) : Arity := fun path =>
  match arities.lookup (Program.functionPath package path) with
  | some n => some n
  | none => (builtin? (".".intercalate path)).map Builtin.arity

/-- The entries of modules, without their numbers. -/
def entriesOf? (modules : List ModuleTree) : Option (List Entry) := do
  let arities := declaredArities modules
  let entries ← modules.zipIdx.mapM fun (m, module) => do
    let package := m.package.segments
    let visible := visibleNames modules m
    let entries ← m.rules.mapM fun r => do
      let kinds ← r.kinds? (arityIn arities package) visible m.strict
      return kinds.map fun (place, kind) =>
        (⟨0, module, package, refNames r.ref, place, kind⟩ : Entry)
    return entries.flatten
  return entries.flatten

/-- The program of modules. Nothing, when a body has no arrangement, functions of one path take
different numbers of operands, or an import has no name. -/
def Program.ofModules? (modules : List ModuleTree) : Option Program := do
  let imports ← modules.mapM fun m =>
    m.imports.mapM (ImportDecl.binding? m.package.segments)
  let entries ← entriesOf? modules
  if aritiesAgree (declaredArities modules) then
    return {
      entries := entries.zipIdx.map fun (e, id) => { e with id }
      packages := modules.map fun m => m.package.segments
      imports := imports.flatten.filterMap id
      folders := modules.flatMap fun m =>
        m.package.segments :: (m.rules.filterMap (RuleDecl.folder? m.strict)).map fun f =>
          m.package.segments ++ f }
  else none

end PolicySync.Policy
