import PolicySync.Policy.Term

/-!
# Package paths

The package that a resource's policy is written in, and the store path it is kept at.
-/

namespace PolicySync

open PolicySync.Policy PolicySync.Text

/-- A package path around an id; an id that is no bare name stands quoted in brackets. -/
def packagePath (first id last : String) : String :=
  if isIdentifier id then first ++ "." ++ id ++ "." ++ last
  else first ++ "[" ++ Quoted.quote id ++ "]." ++ last

/-- Where the labels of a system are stored. -/
def labelsPath (id : String) : String := "metadata/" ++ id ++ "/labels"

/-- Where the selectors of a stack are stored. -/
def selectorsPath (id : String) : String := "stacks/" ++ id ++ "/selectors"

end PolicySync
