import PolicySync.Policy.Tree

/-!
# Loops

A look-up whose key has an unbound variable runs over all that its base holds. Before a
statement is evaluated, every such look-up is taken out of it as a loop and replaced by a
variable for what the loop finds; loops inside the base or the key of a loop come before it.
Comprehensions keep their loops.
-/

namespace PolicySync.Policy

/-- A look-up that runs over its base, with the variable that stands for what it finds. -/
structure Loop where
  name : String
  base : Expr
  key : Expr

namespace Loop

/-- The variable of the n-th loop of a statement. No source text has such a name. -/
def nameOf (n : Nat) : String := "#" ++ toString n

/-- Whether a variable stands for what a loop finds. -/
def isName (name : String) : Bool := name.toList.head? = some '#'

/-- Which names make a look-up run when they stand in its key. -/
abbrev Runs := String → Bool

mutual

/-- Whether a key has a variable that makes its look-up a loop. -/
def hasRunner (runs : Runs) : Expr → Bool
  | .var name => !isName name && runs name
  | .array items => anyRunner runs items
  | .object fields => anyFieldRunner runs fields
  | _ => false

def anyRunner (runs : Runs) : List Expr → Bool
  | [] => false
  | e :: rest => hasRunner runs e || anyRunner runs rest

def anyFieldRunner (runs : Runs) : List (Expr × Expr) → Bool
  | [] => false
  | (key, value) :: rest =>
    hasRunner runs key || hasRunner runs value || anyFieldRunner runs rest

end

/-- What is left of something when its loops are taken out. -/
structure Split (α : Type) where
  rest : α
  loops : List Loop

mutual

/-- Takes the loops out of an expression; `n` loops were taken out before. -/
def split (runs : Runs) (n : Nat) : Expr → Split Expr
  | .index base key =>
    let base := split runs n base
    let key := split runs (n + base.loops.length) key
    let loops := base.loops ++ key.loops
    if hasRunner runs key.rest then
      let name := nameOf (n + loops.length)
      ⟨.var name, loops ++ [⟨name, base.rest, key.rest⟩]⟩
    else ⟨.index base.rest key.rest, loops⟩
  | .array items =>
    let items := splitAll runs n items
    ⟨.array items.rest, items.loops⟩
  | .set items =>
    let items := splitAll runs n items
    ⟨.set items.rest, items.loops⟩
  | .object fields =>
    let fields := splitFields runs n fields
    ⟨.object fields.rest, fields.loops⟩
  | .call function args =>
    let args := splitAll runs n args
    ⟨.call function args.rest, args.loops⟩
  | .neg operand =>
    let operand := split runs n operand
    ⟨.neg operand.rest, operand.loops⟩
  | .dot base field =>
    let base := split runs n base
    ⟨.dot base.rest field, base.loops⟩
  | .binary op lhs rhs =>
    let lhs := split runs n lhs
    let rhs := split runs (n + lhs.loops.length) rhs
    ⟨.binary op lhs.rest rhs.rest, lhs.loops ++ rhs.loops⟩
  | .member none value collection =>
    let value := split runs n value
    let collection := split runs (n + value.loops.length) collection
    ⟨.member none value.rest collection.rest, value.loops ++ collection.loops⟩
  | .member (some key) value collection =>
    let key := split runs n key
    let value := split runs (n + key.loops.length) value
    let collection := split runs (n + key.loops.length + value.loops.length) collection
    ⟨.member (some key.rest) value.rest collection.rest,
      key.loops ++ value.loops ++ collection.loops⟩
  | .assign op lhs rhs =>
    let lhs := split runs n lhs
    let rhs := split runs (n + lhs.loops.length) rhs
    ⟨.assign op lhs.rest rhs.rest, lhs.loops ++ rhs.loops⟩
  | .arrayCompr head body => ⟨.arrayCompr head body, []⟩
  | .setCompr head body => ⟨.setCompr head body, []⟩
  | .objectCompr key value body => ⟨.objectCompr key value body, []⟩
  | .scalar text => ⟨.scalar text, []⟩
  | .quoted raw value => ⟨.quoted raw value, []⟩
  | .verbatim value => ⟨.verbatim value, []⟩
  | .var name => ⟨.var name, []⟩

def splitAll (runs : Runs) (n : Nat) : List Expr → Split (List Expr)
  | [] => ⟨[], []⟩
  | e :: rest =>
    let e := split runs n e
    let rest := splitAll runs (n + e.loops.length) rest
    ⟨e.rest :: rest.rest, e.loops ++ rest.loops⟩

def splitFields (runs : Runs) (n : Nat) : List (Expr × Expr) → Split (List (Expr × Expr))
  | [] => ⟨[], []⟩
  | (key, value) :: rest =>
    let key := split runs n key
    let value := split runs (n + key.loops.length) value
    let rest := splitFields runs (n + key.loops.length + value.loops.length) rest
    ⟨(key.rest, value.rest) :: rest.rest, key.loops ++ value.loops ++ rest.loops⟩

end

/-- Takes the loops out of a literal. -/
def splitLiteral (runs : Runs) : Literal → Split Literal
  | .expr negated e =>
    let e := split runs 0 e
    ⟨.expr negated e.rest, e.loops⟩
  | .someVars names => ⟨.someVars names, []⟩
  | .someIn key value collection =>
    let collection := split runs 0 collection
    ⟨.someIn key value collection.rest, collection.loops⟩
  | .every key value domain body =>
    let domain := split runs 0 domain
    ⟨.every key value domain.rest body, domain.loops⟩

end Loop

end PolicySync.Policy
