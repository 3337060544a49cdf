import PolicySync.Data.SortedMap

/-!
# Policy stores

A store keeps, for each policy path, the modules of the policy by file name. Reading and
replacing a policy are single steps: each gives an answer and the state after it.
-/

namespace PolicySync

/-- The source of each module of a policy, by file name. -/
abbrev PolicyModules := SortedMap String

inductive StoreError where
  /-- No usable answer arrived. -/
  | request
  | status (path : String) (code : Nat) (body : String)
  | missingModules (path : String)
  | nonTextModule (path : String) (file : String)
  deriving DecidableEq, Repr

namespace StoreError

/-- What went wrong; a request that got no answer is described by the transport. -/
def message : StoreError → String
  | .request => "Request Error: "
  | .status path code body =>
    "policy API returned " ++ toString code ++ " for " ++ path ++ ": " ++ body
  | .missingModules path =>
    "unexpected policy API response for " ++ path ++ ": missing result.modules"
  | .nonTextModule path file =>
    "unexpected policy API response for " ++ path ++ ": module " ++ file ++ " is not a string"

end StoreError

/-- The two operations of a store with states in `σ`. -/
structure PolicyStore (σ : Type) where
  /-- The modules at a path, `none` when there is no policy. -/
  get : String → σ → Except StoreError (Option PolicyModules) × σ
  /-- Replaces all modules at a path. -/
  put : String → PolicyModules → σ → Except StoreError Unit × σ

end PolicySync
