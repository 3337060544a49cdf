import PolicySync.Text.Quoted

/-!
# Terms

The view of a policy module that calls are checked on and values are read from. A body
is a list of clauses; an operator stands in the first slot of its call, as a reference.
-/

namespace PolicySync.Policy

mutual

inductive Term where
  /-- `null`, a truth value or a number, as written. -/
  | scalar (text : String)
  | string (value : String)
  | var (name : String)
  /-- A head and the segments after it. -/
  | ref (parts : List Term)
  /-- An operator and its operands. -/
  | call (slots : List Term)
  | array (items : List Term)
  | set (items : List Term)
  | object (fields : List (Term × Term))
  | arrayCompr (head : Term) (body : List Clause)
  | setCompr (head : Term) (body : List Clause)
  | objectCompr (key : Term) (value : Term) (body : List Clause)

/-- A literal of a body with its `with` modifiers. -/
inductive Clause where
  | mk (negated : Bool) (payload : Payload) (modifiers : List (Term × Term))

inductive Payload where
  | single (term : Term)
  | call (slots : List Term)
  /-- The declarations of `some`, and the domain they range over. -/
  | declare (vars : List Term) (domain : Option Term)
  | every (key : Option Term) (value : Term) (domain : Term) (body : List Clause)

end

deriving instance BEq for Term, Clause, Payload

instance : Inhabited Term := ⟨.array []⟩

abbrev Body := List Clause

def Clause.negated : Clause → Bool
  | .mk negated _ _ => negated

def Clause.payload : Clause → Payload
  | .mk _ payload _ => payload

def Clause.modifiers : Clause → List (Term × Term)
  | .mk _ _ modifiers => modifiers

/-- A call at the level of a clause is kept as a call, every other term alone. -/
def Payload.ofTerm : Term → Payload
  | .call slots => .call slots
  | t => .single t

namespace Term

/-- The texts between the points of a name, at least one. -/
def splitDots : List Char → List (List Char)
  | [] => [[]]
  | c :: cs =>
    if c = '.' then [] :: splitDots cs
    else
      match splitDots cs with
      | [] => [[c]]
      | part :: parts => (c :: part) :: parts

/-- The reference to a built-in operator, a segment for each part of its name. -/
def operator (name : String) : Term :=
  match splitDots name.toList with
  | [] => .ref [.var name]
  | head :: parts =>
    .ref (.var (String.ofList head) :: parts.map fun part => .string (String.ofList part))

/-- Appends a segment; a term that is no reference becomes the head of one. -/
def withSegment (t segment : Term) : Term :=
  match t with
  | .ref parts => .ref (parts ++ [segment])
  | t => .ref [t, segment]

end Term

/-- Whether a text can be written as a bare name. -/
def isIdentifier (name : String) : Bool :=
  match name.toList with
  | [] => false
  | c :: cs => (c.isAlpha || c = '_') && cs.all fun c => c.isAlphanum || c = '_'

/-- The text of one segment of a reference. -/
def segmentText (isHead : Bool) : Term → String
  | .var name => if isHead then name else "[" ++ name ++ "]"
  | .string key =>
    if isIdentifier key then "." ++ key else "[" ++ Text.Quoted.quote key ++ "]"
  | _ => "[..]"

/-- The text of a reference: bare names after points, everything else in brackets. -/
def refText : List Term → String
  | [] => ""
  | head :: rest => segmentText true head ++ String.join (rest.map (segmentText false))

/-- The head variable and the string segments of a reference, if it has only those. -/
def refSegments? : List Term → Option (List String)
  | .var head :: rest => do
    let keys ← rest.mapM fun
      | .string key => some key
      | _ => none
    return head :: keys
  | _ => none

structure Rule where
  /-- The first segment of the rule's head. -/
  name : String
  isDefault : Bool
  args : List Term
  key : Option Term
  value : Option Term
  bodies : List Body

structure Import where
  path : List Term
  name : Option String

structure Module where
  package : List Term
  imports : List Import
  rules : List Rule

/-- The name under which an import is visible: its alias, else its last segment. -/
def Import.visibleName? (i : Import) : Option String :=
  match i.name with
  | some name => some name
  | none =>
    match i.path.getLast? with
    | some (.var name) => some name
    | some (.string key) => some key
    | _ => none

/-- The package as plain segments, when all of them are. -/
def Module.packagePath? (m : Module) : Option (List String) := refSegments? m.package

/-- The first rule with a name. -/
def Module.rule? (m : Module) (name : String) : Option Rule :=
  m.rules.find? fun r => r.name = name

end PolicySync.Policy
