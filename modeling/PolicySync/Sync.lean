import PolicySync.Resource.Spec
import PolicySync.Store.Basic

/-!
# Bringing a stored policy in line

What a spec asks for is one module at one path. A sync reads what is stored there, and
replaces it unless the module is there and says the same.
-/

namespace PolicySync

open PolicySync.Policy

inductive SyncError where
  | policy (e : PolicyError)
  | store (e : StoreError)
  deriving DecidableEq, Repr

def SyncError.message : SyncError → String
  | .policy e => "Policy Error: " ++ e.message
  | .store e => "Store Error: " ++ e.message

inductive SyncOutcome where
  | upToDate
  | updated
  deriving DecidableEq, Repr

def SyncOutcome.message : SyncOutcome → String
  | .upToDate => "policy is up to date"
  | .updated => "policy updated"

/-- A policy that is wanted: one file at a path, and when a stored source says the same. -/
structure WantedPolicy where
  path : String
  file : String
  source : String
  isCurrent : String → Except PolicyError Bool

namespace WantedPolicy

/-- The modules that are written. -/
def modules (w : WantedPolicy) : PolicyModules := .singleton w.file w.source

/-- What follows from reading the store: an answer, or none when the policy has to be written. -/
def afterGet (w : WantedPolicy) :
    Except StoreError (Option PolicyModules) → Option (Except SyncError SyncOutcome)
  | .error e => some (.error (.store e))
  | .ok observed =>
    match observed.bind fun modules => modules.get? w.file with
    | none => none
    | some source =>
      match w.isCurrent source with
      | .error e => some (.error (.policy e))
      | .ok true => some (.ok .upToDate)
      | .ok false => none

/-- The answer once the policy was written. -/
def afterPut : Except StoreError Unit → Except SyncError SyncOutcome
  | .error e => .error (.store e)
  | .ok () => .ok .updated

/-- Reads, and writes if that is needed. -/
def sync {σ : Type} (w : WantedPolicy) (store : PolicyStore σ) (s : σ) :
    Except SyncError SyncOutcome × σ :=
  let (observed, s) := store.get w.path s
  match w.afterGet observed with
  | some answer => (answer, s)
  | none =>
    let (written, s) := store.put w.path w.modules s
    (afterPut written, s)

end WantedPolicy

/-- The policy that a system asks for. -/
def SystemSpec.wanted (spec : SystemSpec) (id : String) : WantedPolicy where
  path := labelsPath id
  file := Labels.fragment
  source := Labels.render id spec.desiredLabels
  isCurrent source := (Labels.decode id source).map fun stored => stored.same spec.desiredLabels

/-- The policy that a stack asks for. -/
def StackSpec.wanted (spec : StackSpec) (id : String) : WantedPolicy where
  path := selectorsPath id
  file := Selectors.fragment
  source := Selectors.render id spec.selectors
  isCurrent source := (Selectors.decode source).map fun stored => stored.same spec.selectors

end PolicySync
