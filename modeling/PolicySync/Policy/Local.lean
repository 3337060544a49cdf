import PolicySync.Data.SortedMap
import PolicySync.Policy.Term

/-!
# Unique names for local variables

Every declaration by `:=`, `some` or `every` gets a name of its own, numbered in the order of
declaration over all modules. A declaration is in force from the next slot on to the end of
its body, bodies inside included.
-/

namespace PolicySync.Policy

/-- The name of the n-th declaration. -/
def localName (n : Nat) : String := "__local" ++ toString n ++ "__"

/-- The source names of the declarations so far, first one first. -/
abbrev Locals := List String

/-- Source names with the names in force for them, latest first. -/
abbrev Scope := List (String × String)

/-- The name in force for a variable; a variable without declaration keeps its own. -/
def Scope.find (scope : Scope) (name : String) : String :=
  (lookupEntry name scope).getD name

/-- The declarations as entries from the new name to the source name. -/
def Locals.table (names : Locals) : List (String × String) :=
  names.zipIdx.map fun (name, n) => (localName n, name)

/-- The source name of a variable, or the variable itself when it is no new name. -/
def Locals.resolve (names : Locals) (var : String) : String :=
  (lookupEntry var names.table).getD var

mutual

/-- Renames the variables of a term by the names in force. -/
def Term.rename (scope : Scope) : Term → Locals → Term × Locals
  | .scalar text, names => (.scalar text, names)
  | .string value, names => (.string value, names)
  | .var name, names => (.var (scope.find name), names)
  | .ref parts, names =>
    let (parts, names) := renameTerms scope parts names
    (.ref parts, names)
  | .call slots, names =>
    let (slots, names) := renameTerms scope slots names
    (.call slots, names)
  | .array items, names =>
    let (items, names) := renameTerms scope items names
    (.array items, names)
  | .set items, names =>
    let (items, names) := renameTerms scope items names
    (.set items, names)
  | .object fields, names =>
    let (fields, names) := renameFields scope fields names
    (.object fields, names)
  | .arrayCompr head body, names =>
    let (body, inner, names) := renameBody scope body names
    let (head, names) := head.rename inner names
    (.arrayCompr head body, names)
  | .setCompr head body, names =>
    let (body, inner, names) := renameBody scope body names
    let (head, names) := head.rename inner names
    (.setCompr head body, names)
  | .objectCompr key value body, names =>
    let (body, inner, names) := renameBody scope body names
    let (key, names) := key.rename inner names
    let (value, names) := value.rename inner names
    (.objectCompr key value body, names)

def renameTerms (scope : Scope) : List Term → Locals → List Term × Locals
  | [], names => ([], names)
  | t :: rest, names =>
    let (t, names) := t.rename scope names
    let (rest, names) := renameTerms scope rest names
    (t :: rest, names)

def renameFields (scope : Scope) : List (Term × Term) → Locals → List (Term × Term) × Locals
  | [], names => ([], names)
  | (key, value) :: rest, names =>
    let (key, names) := key.rename scope names
    let (value, names) := value.rename scope names
    let (rest, names) := renameFields scope rest names
    ((key, value) :: rest, names)

/-- Renames the values of modifiers; their targets are no local variables. -/
def renameModifiers (scope : Scope) : List (Term × Term) → Locals → List (Term × Term) × Locals
  | [], names => ([], names)
  | (target, value) :: rest, names =>
    let (value, names) := value.rename scope names
    let (rest, names) := renameModifiers scope rest names
    ((target, value) :: rest, names)

/-- Declares the variables of a pattern; the rest of the pattern is renamed. -/
def Term.declare (scope : Scope) : Term → Locals → Term × Scope × Locals
  | .var name, names =>
    if name = "_" then (.var (scope.find name), scope, names)
    else
      let new := localName names.length
      (.var new, (name, new) :: scope, names ++ [name])
  | .array items, names =>
    let (items, scope, names) := declareTerms scope items names
    (.array items, scope, names)
  | .scalar text, names => (.scalar text, scope, names)
  | .string value, names => (.string value, scope, names)
  | .ref parts, names =>
    let (parts, names) := renameTerms scope parts names
    (.ref parts, scope, names)
  | .call slots, names =>
    let (slots, names) := renameTerms scope slots names
    (.call slots, scope, names)
  | .set items, names =>
    let (items, names) := renameTerms scope items names
    (.set items, scope, names)
  | .object fields, names =>
    let (fields, names) := renameFields scope fields names
    (.object fields, scope, names)
  | .arrayCompr head body, names =>
    let (body, inner, names) := renameBody scope body names
    let (head, names) := head.rename inner names
    (.arrayCompr head body, scope, names)
  | .setCompr head body, names =>
    let (body, inner, names) := renameBody scope body names
    let (head, names) := head.rename inner names
    (.setCompr head body, scope, names)
  | .objectCompr key value body, names =>
    let (body, inner, names) := renameBody scope body names
    let (key, names) := key.rename inner names
    let (value, names) := value.rename inner names
    (.objectCompr key value body, scope, names)

def declareTerms (scope : Scope) : List Term → Locals → List Term × Scope × Locals
  | [], names => ([], scope, names)
  | t :: rest, names =>
    let (t, scope, names) := t.declare scope names
    let (rest, scope, names) := declareTerms scope rest names
    (t :: rest, scope, names)

/-- Renames a body, with the names that are in force at its end. -/
def renameBody (scope : Scope) : List Clause → Locals → List Clause × Scope × Locals
  | [], names => ([], scope, names)
  | c :: rest, names =>
    let (c, scope, names) := c.rename scope names
    let (rest, scope, names) := renameBody scope rest names
    (c :: rest, scope, names)

def Clause.rename (scope : Scope) : Clause → Locals → Clause × Scope × Locals
  | .mk negated payload modifiers, names =>
    let (payload, scope, names) := payload.rename scope names
    let (modifiers, names) := renameModifiers scope modifiers names
    (.mk negated payload modifiers, scope, names)

def Payload.rename (scope : Scope) : Payload → Locals → Payload × Scope × Locals
  | .single t, names =>
    let (t, names) := t.rename scope names
    (.single t, scope, names)
  | .call slots, names =>
    match slots with
    | [.ref [.var "assign"], lhs, rhs] =>
      let (rhs, names) := rhs.rename scope names
      let (lhs, scope, names) := lhs.declare scope names
      (.call [.ref [.var "assign"], lhs, rhs], scope, names)
    | slots =>
      let (slots, names) := renameTerms scope slots names
      (.call slots, scope, names)
  | .declare vars none, names =>
    let (vars, scope, names) := declareTerms scope vars names
    (.declare vars none, scope, names)
  | .declare vars (some domain), names =>
    let (domain, names) := domain.rename scope names
    let (vars, scope, names) := declareTerms scope vars names
    (.declare vars (some domain), scope, names)
  | .every none value domain body, names =>
    let (domain, names) := domain.rename scope names
    let (value, inner, names) := value.declare scope names
    let (body, _, names) := renameBody inner body names
    (.every none value domain body, scope, names)
  | .every (some key) value domain body, names =>
    let (domain, names) := domain.rename scope names
    let (key, inner, names) := key.declare scope names
    let (value, inner, names) := value.declare inner names
    let (body, _, names) := renameBody inner body names
    (.every (some key) value domain body, scope, names)

end

def renameTerm? (scope : Scope) : Option Term → Locals → Option Term × Locals
  | none, names => (none, names)
  | some t, names =>
    let (t, names) := t.rename scope names
    (some t, names)

/-- Renames the bodies after the first, each in a scope of its own. -/
def renameBodies : List Body → Locals → List Body × Locals
  | [], names => ([], names)
  | body :: rest, names =>
    let (body, _, names) := renameBody [] body names
    let (rest, names) := renameBodies rest names
    (body :: rest, names)

/-- The key and the value of a rule see the declarations of its first body. -/
def Rule.rename (r : Rule) (names : Locals) : Rule × Locals :=
  match r.bodies with
  | [] => (r, names)
  | body :: rest =>
    let (body, scope, names) := renameBody [] body names
    let (key, names) := renameTerm? scope r.key names
    let (value, names) := renameTerm? scope r.value names
    let (rest, names) := renameBodies rest names
    ({ r with key, value, bodies := body :: rest }, names)

def renameRules : List Rule → Locals → List Rule × Locals
  | [], names => ([], names)
  | r :: rest, names =>
    let (r, names) := r.rename names
    let (rest, names) := renameRules rest names
    (r :: rest, names)

def Module.rename (m : Module) (names : Locals) : Module × Locals :=
  let (rules, names) := renameRules m.rules names
  ({ m with rules }, names)

/-- Renames modules one after the other. -/
def renameModules : List (String × Module) → Locals → List (String × Module) × Locals
  | [], names => ([], names)
  | (name, m) :: rest, names =>
    let (m, names) := m.rename names
    let (rest, names) := renameModules rest names
    ((name, m) :: rest, names)

end PolicySync.Policy
