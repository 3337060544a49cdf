import PolicySync.Resource.Metadata
import PolicySync.Resource.Spec
import PolicySync.Resource.Status

/-!
# Resources

A resource is metadata, a spec and perhaps a status. Systems and stacks are the two kinds.
-/

namespace PolicySync

structure Resource (α : Type) where
  metadata : Metadata
  spec : α
  status : Option SyncStatus

abbrev SystemResource := Resource SystemSpec

abbrev StackResource := Resource StackSpec

namespace Resource

variable {α : Type}

/-- Reads a resource whose spec has a reader. -/
def ofJson? (readSpec : Json → Option α) (j : Json) : Option (Resource α) := do
  let fields ← Json.record? ["metadata", "spec", "status"] 3 j
  let metadata ← Json.required? fields "metadata" Metadata.ofJson?
  let spec ← Json.required? fields "spec" readSpec
  let status ← Json.optional? fields "status" SyncStatus.ofJson?
  return ⟨metadata, spec, status⟩

def externalName (r : Resource α) : String := r.metadata.externalName

end Resource

def SystemResource.ofJson? : Json → Option SystemResource := Resource.ofJson? SystemSpec.ofJson?

def StackResource.ofJson? : Json → Option StackResource := Resource.ofJson? StackSpec.ofJson?

end PolicySync
