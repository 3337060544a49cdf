import PolicySync.Store.Basic

/-!
# Stores in memory

The plain store keeps a map from path to modules and never fails. The faulty one can be
told to fail the next read or the next write once.
-/

namespace PolicySync

/-- What a store holds: the modules at each path. -/
abbrev Policies := SortedMap PolicyModules

/-- The store that is nothing but its policies. -/
def memoryStore : PolicyStore Policies where
  get path policies := (.ok (policies.get? path), policies)
  put path modules policies := (.ok (), policies.insert path modules)

theorem memoryStore_get (path : String) (policies : Policies) :
    memoryStore.get path policies = (.ok (policies.get? path), policies) := rfl

theorem memoryStore_put (path : String) (modules : PolicyModules) (policies : Policies) :
    memoryStore.put path modules policies = (.ok (), policies.insert path modules) := rfl

/-- The answer that a failing call gets. -/
structure Refusal where
  status : Nat
  body : String
  deriving DecidableEq, Repr

def Refusal.error (r : Refusal) (path : String) : StoreError := .status path r.status r.body

/-- Policies together with the failures that wait for the next read and the next write. -/
structure FaultyPolicies where
  policies : Policies
  getRefusal : Option Refusal
  putRefusal : Option Refusal

/-- The memory store, but a waiting failure is used up by the next call of its kind, which
then leaves the policies alone. -/
def faultyStore : PolicyStore FaultyPolicies where
  get path s :=
    match s.getRefusal with
    | some r => (.error (r.error path), { s with getRefusal := none })
    | none => (.ok (s.policies.get? path), s)
  put path modules s :=
    match s.putRefusal with
    | some r => (.error (r.error path), { s with putRefusal := none })
    | none => (.ok (), { s with policies := s.policies.insert path modules })

end PolicySync
