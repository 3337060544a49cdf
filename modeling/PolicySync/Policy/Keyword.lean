/-!
# Keywords

Some words are reserved in every module; others become keywords by import, and the newer
dialect switches on `if`, `in`, `every` and `contains` at once.
-/

namespace PolicySync.Policy

/-- Words that no module may use as a name. -/
def reservedWords : List String :=
  ["as", "default", "else", "false", "import", "package", "not", "null", "some", "true", "with"]

/-- The words that the newer dialect makes keywords. -/
def optionalWords : List String := ["contains", "every", "if", "in"]

/-- The keywords that a module's imports switched on. -/
structure Keywords where
  imported : List String := []
  /-- The newer dialect, in which bodies need `if`. -/
  strict : Bool := false
  deriving DecidableEq, Repr

namespace Keywords

/-- What a module starts with, before its imports. -/
def initial : Keywords := {}

/-- Whether a word was made a keyword by import. -/
def has (k : Keywords) (word : String) : Bool := k.imported.contains word

/-- Switches on a word; the newer dialect refuses one that is switched on already. Outside
of it `every` brings `in` along. -/
def add? (k : Keywords) (word : String) : Option Keywords :=
  if k.strict && k.has word then none
  else if word = "every" && !k.strict then some { k with imported := "in" :: word :: k.imported }
  else some { k with imported := word :: k.imported }

def addAll? (k : Keywords) (words : List String) : Option Keywords := words.foldlM add? k

/-- Whether a word cannot name a variable. `contains` always can. -/
def reserves (k : Keywords) (word : String) : Bool :=
  reservedWords.contains word || (word ≠ "contains" && k.has word)

end Keywords

end PolicySync.Policy
