/-!
# Syntax trees of the policy language

A module is a package path, imports and rules. Rules hold every value and body that was
written, those of `else` branches included.
-/

namespace PolicySync.Policy

/-- Operators written between two operands. -/
inductive BinaryOp where
  | eq | ne | lt | le | gt | ge
  | add | sub | mul | div | mod
  | intersection | union
  deriving DecidableEq, Repr

/-- `:=` declares variables, `=` unifies. -/
inductive AssignOp where
  | declare
  | unify
  deriving DecidableEq, Repr

/-- A path of a name and the fields and quoted keys after it, each as written: a key has its
escapes unresolved. -/
structure SegmentPath where
  head : String
  rest : List String
  deriving DecidableEq, Repr

def SegmentPath.segments (p : SegmentPath) : List String := p.head :: p.rest

mutual

inductive Expr where
  /-- `null`, a truth value or a number, as written. -/
  | scalar (text : String)
  /-- A text in double quotes, as written and with its escapes resolved. -/
  | quoted (raw : String) (value : String)
  /-- A text between grave accents. -/
  | verbatim (value : String)
  | var (name : String)
  | array (items : List Expr)
  | set (items : List Expr)
  | object (fields : List (Expr × Expr))
  | arrayCompr (head : Expr) (body : List Stmt)
  | setCompr (head : Expr) (body : List Stmt)
  | objectCompr (key : Expr) (value : Expr) (body : List Stmt)
  | call (function : Expr) (args : List Expr)
  | neg (operand : Expr)
  | dot (base : Expr) (field : String)
  | index (base : Expr) (key : Expr)
  | binary (op : BinaryOp) (lhs : Expr) (rhs : Expr)
  | member (key : Option Expr) (value : Expr) (collection : Expr)
  | assign (op : AssignOp) (lhs : Expr) (rhs : Expr)

/-- One statement of a body, with the modifiers written after it. -/
inductive Stmt where
  | mk (literal : Literal) (modifiers : List (SegmentPath × Expr))

inductive Literal where
  | expr (negated : Bool) (e : Expr)
  | someVars (names : List String)
  | someIn (key : Option Expr) (value : Expr) (collection : Expr)
  | every (key : Option String) (value : String) (domain : Expr) (body : List Stmt)

end

instance : Inhabited Expr := ⟨.set []⟩

def Stmt.literal : Stmt → Literal
  | .mk literal _ => literal

def Stmt.modifiers : Stmt → List (SegmentPath × Expr)
  | .mk _ modifiers => modifiers

abbrev Query := List Stmt

inductive RuleHead where
  /-- A rule for one value, `true` when none is written. -/
  | complete (ref : Expr) (value : Option Expr)
  | set (ref : Expr) (key : Expr)
  | function (ref : Expr) (args : List Expr) (value : Option Expr)

/-- A body with the value that its `else` names. -/
structure RuleBody where
  value : Option Expr
  query : Query

inductive RuleDecl where
  | rule (head : RuleHead) (bodies : List RuleBody)
  | default (ref : Expr) (args : List Expr) (value : Expr)

structure ImportDecl where
  path : SegmentPath
  name : Option String

structure ModuleTree where
  package : SegmentPath
  imports : List ImportDecl
  /-- Whether the module is written in the newer dialect. -/
  strict : Bool
  rules : List RuleDecl

end PolicySync.Policy
