import PolicySync.Json.Value
import PolicySync.Text.Quoted

/-!
# Writing YAML

JSON values as YAML documents in block style. Items of a list stand below their key without
further indent; a text of several lines is a literal block.
-/

namespace PolicySync.Json

open PolicySync.Text

/-- The words that would not be read back as text. -/
def yamlWords : List String := ["null", "true", "false", "yes", "no", "on", "off", "y", "n"]

/-- Whether a colon or a blank makes a text end or change its meaning, given the character
before. -/
def breaksPlain (before : Char) : List Char → Bool
  | [] => before = ' ' || before = ':'
  | c :: rest => (before = ':' && c = ' ') || (before = ' ' && c = '#') || breaksPlain c rest

/-- Whether a text may stand without quotes: it begins with a letter, shows as it is, and is no
reserved word. -/
def isPlain (s : String) : Bool :=
  match s.toList with
  | [] => false
  | c :: rest =>
    c.isAlpha && rest.all (fun c => 0x20 ≤ c.toNat && c.toNat < 0x7F) && !breaksPlain c rest &&
      !yamlWords.contains s.toLower

def yamlText (s : String) : String := if isPlain s then s else Quoted.quote s

def indented (lines : List String) : List String := lines.map ("  " ++ ·)

/-- The lines of an item below its dash. -/
def dashed : List String → List String
  | [] => ["-"]
  | first :: rest => ("- " ++ first) :: indented rest

/-- A value on one line; none for one that needs a block. -/
def inline? : Json → Option String
  | .null => some "null"
  | .bool b => some (if b then "true" else "false")
  | .number (.int n) => some (toString n)
  | .number (.real q) => some (toString q)
  | .string s => if s.toList.contains '\n' then none else some (yamlText s)
  | .array [] => some "[]"
  | .object [] => some "\x7b\x7d"
  | _ => none

/-- A literal block: its header, then its lines. -/
def literalBlock (s : String) : List String := s.splitOn "\n"

mutual

/-- The lines of a value that stands by itself. -/
def yamlLines : Json → List String
  | .string s => if s.toList.contains '\n' then "|-" :: indented (literalBlock s) else [yamlText s]
  | .array items => if items.isEmpty then ["[]"] else yamlItems items
  | .object members => if members.isEmpty then ["\x7b\x7d"] else yamlMembers members
  | j => (inline? j).toList

def yamlItems : List Json → List String
  | [] => []
  | item :: rest => dashed (yamlLines item) ++ yamlItems rest

def yamlMembers : List (String × Json) → List String
  | [] => []
  | (key, value) :: rest =>
    let front := yamlText key ++ ":"
    let lines :=
      match value, inline? value with
      | _, some text => [front ++ " " ++ text]
      | .array items, none => front :: yamlItems items
      | .string s, none => (front ++ " |-") :: indented (literalBlock s)
      | value, none => front :: indented (yamlLines value)
    lines ++ yamlMembers rest

end

/-- A value as a document. -/
def yaml (j : Json) : String := String.join ((yamlLines j).map (· ++ "\n"))

end PolicySync.Json
