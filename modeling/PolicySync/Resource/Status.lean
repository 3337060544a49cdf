import PolicySync.Json.Field

/-!
# Status of a resource

What the last reconciliation found, as it is kept in the resource.
-/

namespace PolicySync

structure SyncStatus where
  /-- The policy that holds the generated module. -/
  policyPath : String
  upToDate : Bool
  lastSynced : Option String
  observedGeneration : Option Int
  message : Option String
  deriving DecidableEq

namespace SyncStatus

def fieldNames : List String :=
  ["policyPath", "upToDate", "lastSynced", "observedGeneration", "message"]

def ofJson? (j : Json) : Option SyncStatus := do
  let fields ← Json.record? fieldNames 5 j
  let policyPath ← Json.required? fields "policyPath" Json.string?
  let upToDate ← Json.required? fields "upToDate" Json.bool?
  let lastSynced ← Json.optional? fields "lastSynced" Json.string?
  let observedGeneration ← Json.optional? fields "observedGeneration" Json.int64?
  let message ← Json.optional? fields "message" Json.string?
  return ⟨policyPath, upToDate, lastSynced, observedGeneration, message⟩

def toJson (s : SyncStatus) : Json :=
  .ofMembers
    [("policyPath", .string s.policyPath), ("upToDate", .bool s.upToDate),
      ("lastSynced", .ofOption (s.lastSynced.map .string)),
      ("observedGeneration", .ofOption (s.observedGeneration.map .ofInt)),
      ("message", .ofOption (s.message.map .string))]

end SyncStatus

end PolicySync
