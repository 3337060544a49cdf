import PolicySync.Proofs.Refinement
import PolicySync.Reconcile

/-!
# One call on a store in memory

A call depends on nothing but the modules at its path, and changes nothing else. The path belongs to
the resource that the call is for: no two resources share one.
-/

namespace PolicySync

/-- Where the policy of a resource is stored. -/
def policyPath : ResourceKind × String → String
  | (.system, id) => labelsPath id
  | (.stack, id) => selectorsPath id

theorem policyPath_injective : Function.Injective policyPath := by
  rintro ⟨kind, a⟩ ⟨kind', b⟩ h
  cases kind with
  | system => cases kind' with
    | system => rw [labelsPath_inj h]
    | stack => exact absurd h (labelsPath_ne_selectorsPath a b)
  | stack => cases kind' with
    | system => exact absurd h.symm (labelsPath_ne_selectorsPath b a)
    | stack => rw [selectorsPath_inj h]

namespace SyncCall

/-- Whom a call is for. -/
def resource : SyncCall → ResourceKind × String
  | labels id _ => (.system, id)
  | selectors id _ => (.stack, id)

variable {c d : SyncCall} {store : Policies}

@[simp] theorem wanted_path (c : SyncCall) : c.wanted.path = policyPath c.resource := by
  cases c <;> rfl

@[simp] theorem resource_id (c : SyncCall) : c.resource.2 = c.id := by
  cases c <;> rfl

/-- A call that needs no write gives its answer at once. -/
theorem run_of_answer {answer : Except SyncError SyncOutcome}
    (h : c.wanted.afterGet (.ok (store.get? (policyPath c.resource))) = some answer) :
    c.run store = (answer, store) := by
  simp only [run, WantedPolicy.sync, memoryStore_get, wanted_path, h]

theorem run_of_write (h : c.wanted.afterGet (.ok (store.get? (policyPath c.resource))) = none) :
    c.run store = (.ok .updated, store.insert (policyPath c.resource) c.wanted.modules) := by
  simp only [run, WantedPolicy.sync, memoryStore_get, memoryStore_put, wanted_path, h]
  rfl

theorem get?_run_of_ne {path : String} (h : policyPath c.resource ≠ path) :
    (c.run store).2.get? path = store.get? path := by
  cases hget : c.wanted.afterGet (.ok (store.get? (policyPath c.resource))) with
  | some answer => rw [run_of_answer hget]
  | none => rw [run_of_write hget, SortedMap.get?_insert, if_neg h]

end SyncCall

end PolicySync
