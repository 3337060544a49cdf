import PolicySync.Policy.Value

/-!
# The tree of documents

What the rules and packages define so far. A place holds a whole value, the members of a set
that more rules can add to, or a folder of places under it. Every change says when it conflicts
with what is there.
-/

namespace PolicySync.Policy

inductive Document where
  | value (v : Value)
  | members (items : List Value)
  | folder (fields : List (Value × Document))
  deriving Inhabited

/-- The field of an object or the element of a set under each key in turn. -/
def Value.chain? (v : Value) : List String → Option Value
  | [] => some v
  | key :: keys => (v.get? (.string key)).bind fun w => w.chain? keys

namespace Document

/-- The place under a key of a folder. -/
def field? (key : Value) (fields : List (Value × Document)) : Option Document :=
  (fields.find? fun f => Value.same key f.1).map (·.2)

def setField (key : Value) (d : Document) : List (Value × Document) → List (Value × Document)
  | [] => [(key, d)]
  | (k, old) :: rest =>
    if Value.same key k then (k, d) :: rest else (k, old) :: setField key d rest

mutual

/-- A place as a value: a folder is an object. -/
def toValue : Document → Value
  | .value v => v
  | .members items => .set items
  | .folder fields => .objectOf (fieldValues fields)

def fieldValues : List (Value × Document) → List (Value × Value)
  | [] => []
  | (key, d) :: rest => (key, d.toValue) :: fieldValues rest

end

/-- The value under keys. -/
def get? : List String → Document → Option Value
  | [], d => some d.toValue
  | key :: keys, .folder fields => (field? (.string key) fields).bind (get? keys)
  | keys, .value v => v.chain? keys
  | keys, .members items => (Value.set items).chain? keys

/-- Changes the place at a path. Nothing can stand under a place that is no folder. -/
def update (change : Option Document → Option Document) :
    List Value → Option Document → Option Document
  | [], d => change d
  | key :: keys, none => (update change keys none).map fun d => .folder [(key, d)]
  | key :: keys, some (.folder fields) =>
    (update change keys (field? key fields)).map fun d => .folder (setField key d fields)
  | _ :: _, some _ => none

/-- A whole value. It may be given more than once, and takes the place of an empty folder. -/
def putValue (v : Value) : Option Document → Option Document
  | none => some (.value v)
  | some (.folder []) => some (.value v)
  | some (.value w) => if Value.same v w then some (.value w) else none
  | some _ => none

/-- A member of a set. -/
def putMember (v : Value) : Option Document → Option Document
  | none => some (.members [v])
  | some (.members items) => some (.members (Value.insertItem v items))
  | some _ => none

/-- A set, empty if no member was added. -/
def putSet : Option Document → Option Document
  | none => some (.members [])
  | some (.members items) => some (.members items)
  | some _ => none

/-- A folder, empty if nothing stands in it. An object will do. -/
def putFolder : Option Document → Option Document
  | none => some (.folder [])
  | some (.folder fields) => some (.folder fields)
  | some (.value (.object fields)) => some (.value (.object fields))
  | some _ => none

/-- Puts a value where nothing stands, and else changes nothing. One key can be added to an
object. -/
def addDefault (v : Value) : List Value → Option Document → Document
  | [], none => .value v
  | [], some d => d
  | key :: keys, none => .folder [(key, addDefault v keys none)]
  | key :: keys, some (.folder fields) =>
    .folder (setField key (addDefault v keys (field? key fields)) fields)
  | [key], some (.value (.object fields)) =>
    match Value.field? key fields with
    | some _ => .value (.object fields)
    | none => .value (.object (Value.insertField key v fields))
  | _ :: _, some d => d

end Document

end PolicySync.Policy
