import PolicySync.Data.SortedMap
import PolicySync.Policy.Term

/-!
# Calls

All calls of a rule in the order they are met, and the check that calls into `data` name
rules which exist.
-/

namespace PolicySync.Policy

mutual

/-- The slots of every call in a term, an outer call before the calls in its slots. -/
def Term.calls : Term → List (List Term)
  | .scalar _ => []
  | .string _ => []
  | .var _ => []
  | .ref parts => callsOfTerms parts
  | .call slots => slots :: callsOfTerms slots
  | .array items => callsOfTerms items
  | .set items => callsOfTerms items
  | .object fields => callsOfFields fields
  | .arrayCompr head body => head.calls ++ callsOfBody body
  | .setCompr head body => head.calls ++ callsOfBody body
  | .objectCompr key value body => key.calls ++ value.calls ++ callsOfBody body

def callsOfTerms : List Term → List (List Term)
  | [] => []
  | t :: rest => t.calls ++ callsOfTerms rest

def callsOfFields : List (Term × Term) → List (List Term)
  | [] => []
  | (key, value) :: rest => key.calls ++ value.calls ++ callsOfFields rest

/-- The values of modifiers are looked at, their targets are not. -/
def callsOfModifiers : List (Term × Term) → List (List Term)
  | [] => []
  | (_, value) :: rest => value.calls ++ callsOfModifiers rest

def callsOfBody : List Clause → List (List Term)
  | [] => []
  | c :: rest => c.calls ++ callsOfBody rest

def Clause.calls : Clause → List (List Term)
  | .mk _ payload modifiers => payload.calls ++ callsOfModifiers modifiers

def Payload.calls : Payload → List (List Term)
  | .single t => t.calls
  | .call slots => slots :: callsOfTerms slots
  | .declare vars none => callsOfTerms vars
  | .declare vars (some domain) => callsOfTerms vars ++ domain.calls
  | .every none value domain body => value.calls ++ domain.calls ++ callsOfBody body
  | .every (some key) value domain body =>
    key.calls ++ value.calls ++ domain.calls ++ callsOfBody body

end

/-- Every call of a rule: head first, then the bodies in order. -/
def Rule.calls (r : Rule) : List (List Term) :=
  callsOfTerms (r.args ++ r.key.toList ++ r.value.toList) ++ r.bodies.flatMap callsOfBody

/-- The paths under `data` at which a module's rules are defined. -/
def Module.definedPaths (m : Module) : List (List String) :=
  match m.packagePath? with
  | none => []
  | some package => m.rules.map fun r => "data" :: package ++ [r.name]

/-- The names that imports of `data` paths make visible; a later import wins. -/
def Module.dataImports (m : Module) : SortedMap (List String) :=
  SortedMap.ofList <| m.imports.filterMap fun i => do
    let path ← refSegments? i.path
    let name ← i.visibleName?
    if path.head? = some "data" then return (name, path) else none

/-- The path under `data` that an operator names, directly or through an import. -/
def dataPath? (imports : SortedMap (List String)) (operator : List Term) :
    Option (List String) := do
  match ← refSegments? operator with
  | [] => none
  | head :: rest =>
    if head = "data" then return head :: rest
    else return (← imports.get? head) ++ rest

/-- The operator of a call into `data` that names no defined rule. -/
def undefinedOperator? (defined : List (List String)) (imports : SortedMap (List String))
    (slots : List Term) : Option String :=
  match slots with
  | .ref operator :: _ =>
    match dataPath? imports operator with
    | some path => if defined.contains path then none else some (refText operator)
    | none => none
  | _ => none

/-- The first undefined call of a module, given the paths that are defined. -/
def Module.undefinedCall? (defined : List (List String)) (m : Module) : Option String :=
  (m.rules.flatMap Rule.calls).findSome? (undefinedOperator? defined m.dataImports)

/-- The first undefined call among modules, with the name of its module. -/
def undefinedCall? (modules : SortedMap Module) : Option (String × String) :=
  let defined := modules.entries.flatMap fun e => e.2.definedPaths
  modules.entries.findSome? fun e => (e.2.undefinedCall? defined).map fun f => (e.1, f)

end PolicySync.Policy
