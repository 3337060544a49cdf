import PolicySync.Json.Value
import PolicySync.Text.Double
import PolicySync.Text.Quoted

/-!
# Writing JSON

Values are written without white space, members in key order.
-/

namespace PolicySync.Json

open PolicySync.Text

/-- An integer in full, any other number as the nearest double in its fewest digits. -/
def Number.text : Number → String
  | .int n => toString n
  | .real q => Double.text (Double.nearest q)

mutual

def text : Json → String
  | .null => "null"
  | .bool b => if b then "true" else "false"
  | .number n => n.text
  | .string s => Quoted.quote s
  | .array items => "[" ++ itemsText items ++ "]"
  | .object members => "\x7b" ++ membersText members ++ "\x7d"

def itemsText : List Json → String
  | [] => ""
  | [item] => item.text
  | item :: rest => item.text ++ "," ++ itemsText rest

def membersText : List (String × Json) → String
  | [] => ""
  | [(key, value)] => Quoted.quote key ++ ":" ++ value.text
  | (key, value) :: rest => Quoted.quote key ++ ":" ++ value.text ++ "," ++ membersText rest

end

end PolicySync.Json
