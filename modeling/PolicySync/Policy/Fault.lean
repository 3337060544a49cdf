/-!
# Faults

Why an evaluation fails. A fault in any part is a fault of the whole; an expression without a
value is none.
-/

namespace PolicySync.Policy

inductive Fault where
  | unbound (name : String)
  | redeclared
  | unknownFunction
  | recursion
  | conflict
  | wrongType
  | divisionByZero
  | notConstant
  | unsupported
  /-- The modules cannot be evaluated at all: a variable is bound nowhere, or an import or a
  function is not usable. -/
  | unsafeModules
  | tooDeep
  deriving DecidableEq, Repr

end PolicySync.Policy
