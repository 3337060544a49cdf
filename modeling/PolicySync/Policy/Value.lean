import PolicySync.Json.Printer
import PolicySync.Text.Double

/-!
# Values

What expressions evaluate to. Sets and objects are kept ascending in one order of all
values: null, truth values, numbers, strings, arrays, sets, objects.
-/

namespace PolicySync.Policy

inductive Value where
  | null
  | bool (b : Bool)
  | number (q : Rat)
  | string (s : String)
  | array (items : List Value)
  | set (items : List Value)
  | object (fields : List (Value × Value))
  deriving Inhabited

namespace Value

/-- Values of different kinds are ordered by kind. -/
def rank : Value → Nat
  | .null => 0
  | .bool _ => 1
  | .number _ => 2
  | .string _ => 3
  | .array _ => 4
  | .set _ => 5
  | .object _ => 6

mutual

def cmp : Value → Value → Ordering
  | .null, .null => .eq
  | .bool a, .bool b => compare a b
  | .number a, .number b => if a < b then .lt else if a = b then .eq else .gt
  | .string a, .string b => compare a b
  | .array a, .array b => cmpList a b
  | .set a, .set b => cmpList a b
  | .object a, .object b => cmpFields a b
  | a, b => compare a.rank b.rank

/-- Item by item; a list that ends first comes first. -/
def cmpList : List Value → List Value → Ordering
  | [], [] => .eq
  | [], _ :: _ => .lt
  | _ :: _, [] => .gt
  | a :: as, b :: bs => (cmp a b).then (cmpList as bs)

def cmpFields : List (Value × Value) → List (Value × Value) → Ordering
  | [], [] => .eq
  | [], _ :: _ => .lt
  | _ :: _, [] => .gt
  | (k, v) :: as, (k', v') :: bs => ((cmp k k').then (cmp v v')).then (cmpFields as bs)

end

def same (a b : Value) : Bool := cmp a b = .eq

/-- Puts a value into an ascending list, unless it is there already. -/
def insertItem (x : Value) : List Value → List Value
  | [] => [x]
  | y :: rest =>
    match cmp x y with
    | .lt => x :: y :: rest
    | .eq => y :: rest
    | .gt => y :: insertItem x rest

/-- Puts a field into an ascending list; an equal key gets the new value. -/
def insertField (key value : Value) : List (Value × Value) → List (Value × Value)
  | [] => [(key, value)]
  | (k, v) :: rest =>
    match cmp key k with
    | .lt => (key, value) :: (k, v) :: rest
    | .eq => (k, value) :: rest
    | .gt => (k, v) :: insertField key value rest

def setOf (items : List Value) : Value :=
  .set (items.foldl (fun s x => insertItem x s) [])

def objectOf (fields : List (Value × Value)) : Value :=
  .object (fields.foldl (fun o f => insertField f.1 f.2 o) [])

def field? (key : Value) (fields : List (Value × Value)) : Option Value :=
  (fields.find? fun f => same key f.1).map (·.2)

/-- The keys and values that iterating over a collection meets; a set holds each element
under itself. Other values have none. -/
def elements? : Value → Option (List (Value × Value))
  | .array items => some (items.zipIdx.map fun (v, i) => (.number (i : Rat), v))
  | .set items => some (items.map fun v => (v, v))
  | .object fields => some fields
  | _ => none

/-- What a collection holds under a key. -/
def get? (collection key : Value) : Option Value :=
  match collection, key with
  | .array items, .number q => if q.den = 1 ∧ 0 ≤ q.num then items[q.num.toNat]? else none
  | .set items, key => items.find? (same key)
  | .object fields, key => field? key fields
  | _, _ => none

/-- Objects merged key by key, at every depth; elsewhere the second value is kept. -/
def merge : Nat → Value → Value → Value
  | 0, _, b => b
  | fuel + 1, .object a, .object b =>
    .object <| b.foldl (fun acc f =>
      match field? f.1 acc with
      | some old => insertField f.1 (merge fuel old f.2) acc
      | none => insertField f.1 f.2 acc) a
  | _, _, b => b

mutual

/-- How deep a value nests. -/
def depth : Value → Nat
  | .array items => depthList items + 1
  | .set items => depthList items + 1
  | .object fields => depthFields fields + 1
  | _ => 1

def depthList : List Value → Nat
  | [] => 0
  | v :: rest => max v.depth (depthList rest)

def depthFields : List (Value × Value) → Nat
  | [] => 0
  | (_, v) :: rest => max v.depth (depthFields rest)

end

/-- A number as JSON holds it: an integer of 64 bits or a double. A number beyond all doubles
has no JSON form. -/
def jsonNumber? (q : Rat) : Option Json.Number :=
  if q.den = 1 ∧ Json.fits64 q.num then some (.int q.num)
  else (Text.Double.ofDigits? q).map .real

mutual

/-- The JSON form: a set is its sorted array, a key that is no string its JSON text. -/
def toJson? : Value → Option Json
  | .null => some .null
  | .bool b => some (.bool b)
  | .number q => (jsonNumber? q).map .number
  | .string s => some (.string s)
  | .array items => (listToJson? items).map .array
  | .set items => (listToJson? items).map .array
  | .object fields => (fieldsToJson? fields).map Json.ofMembers

def listToJson? : List Value → Option (List Json)
  | [] => some []
  | v :: rest => do
    let j ← v.toJson?
    let others ← listToJson? rest
    return j :: others

def fieldsToJson? : List (Value × Value) → Option (List (String × Json))
  | [] => some []
  | (.string s, v) :: rest => do
    let j ← v.toJson?
    let others ← fieldsToJson? rest
    return (s, j) :: others
  | (k, v) :: rest => do
    let key ← k.toJson?
    let j ← v.toJson?
    let others ← fieldsToJson? rest
    return (key.text, j) :: others

end

end Value

end PolicySync.Policy
