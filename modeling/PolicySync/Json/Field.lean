import PolicySync.Json.Value

/-!
# Reading fields

Readers for the parts of a record. A record is an object, or the array of its fields in the
order of their declaration; members that name no field do not count.
-/

namespace PolicySync.Json

def bool? : Json → Option Bool
  | .bool b => some b
  | _ => none

/-- An integer of 64 bits with sign. -/
def int64? : Json → Option Int
  | .number (.int n) => if n < signedBound then some n else none
  | _ => none

def list? {α : Type} (read : Json → Option α) : Json → Option (List α)
  | .array items => items.mapM read
  | _ => none

/-- Reads every value of a list of members. -/
def readMembers {α : Type} (read : Json → Option α) :
    List (String × Json) → Option (List (String × α))
  | [] => some []
  | (key, value) :: rest => do
    let value ← read value
    let rest ← readMembers read rest
    return (key, value) :: rest

def map? {α : Type} (read : Json → Option α) : Json → Option (SortedMap α)
  | .object members => (readMembers read members).map SortedMap.ofList
  | _ => none

def texts? : Json → Option (SortedMap String) := map? string?

/-- A null is no value. -/
def nullable? {α : Type} (read : Json → Option α) : Json → Option (Option α)
  | .null => some none
  | j => (read j).map some

/-- The fields of a record by name. As an array it has at least the first `needed` of the
named fields, and no more than the named ones. -/
def record? (names : List String) (needed : Nat) : Json → Option (List (String × Json))
  | .object members => some members
  | .array items =>
    if needed ≤ items.length ∧ items.length ≤ names.length then some (names.zip items) else none
  | _ => none

/-- A field that must be there. -/
def required? {α : Type} (fields : List (String × Json)) (name : String)
    (read : Json → Option α) : Option α :=
  (lookupEntry name fields).bind read

/-- A field that may be missing or null. -/
def optional? {α : Type} (fields : List (String × Json)) (name : String)
    (read : Json → Option α) : Option (Option α) :=
  match lookupEntry name fields with
  | none => some none
  | some j => nullable? read j

/-- A field that may be missing but not null. -/
def defaulted? {α : Type} (fields : List (String × Json)) (name : String) (fallback : α)
    (read : Json → Option α) : Option α :=
  match lookupEntry name fields with
  | none => some fallback
  | some j => read j

end PolicySync.Json
