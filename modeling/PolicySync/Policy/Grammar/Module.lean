import PolicySync.Policy.Grammar.Expr
import PolicySync.Policy.Token.Lexer

/-!
# Reading modules

A module is its package line, its imports and its rules. Imports decide which keywords
the rules are read with.
-/

namespace PolicySync.Policy

/-- The keywords after an import. The newer dialect is switched on before its words are, so
that it refuses a module that imported one of them. -/
def Keywords.import? (k : Keywords) (path : List String) : Option Keywords :=
  match path with
  | ["rego", "v1"] => { k with strict := true }.addAll? optionalWords
  | "rego" :: _ => some k
  | ["future", "keywords"] => k.addAll? optionalWords
  | ["future", "keywords", word] => k.add? word
  | "data" :: _ => some k
  | "input" :: _ => some k
  | _ => none

/-- Whether an import only switches keywords; such an import takes no alias. -/
def isKeywordImport (path : List String) : Bool :=
  path.head? = some "future" || path = ["rego", "v1"]

/-- Two imports clash when they have the same alias, or no alias and the same path. Imports of
keywords are left out of this. -/
def ImportDecl.clashes (a b : ImportDecl) : Bool :=
  match a.name, b.name with
  | some x, some y => x = y
  | none, none => a.path = b.path
  | _, _ => false

/-- The alias after `as`. -/
def readAlias (k : Keywords) (tokens : List Lexeme) : Option (Option String × List Lexeme) :=
  match expectWord "as" tokens with
  | none => some (none, tokens)
  | some rest => do
    let (name, rest) ← readVar k rest
    if name = "_" then none else return (some name, rest)

/-- The imports at the front, with the keywords that they leave switched on. -/
def readImports : Nat → Keywords → List ImportDecl → List Lexeme →
    Option (Keywords × List ImportDecl × List Lexeme)
  | 0, _, _, _ => none
  | fuel + 1, k, earlier, tokens =>
    match expectWord "import" tokens with
    | none => some (k, earlier, tokens)
    | some rest => do
      let (path, rest) ← readSegmentPath rest
      let k' ← k.import? path.segments
      let (name, rest) ← readAlias k' rest
      let decl : ImportDecl := ⟨path, name⟩
      let isKeyword := isKeywordImport path.segments
      if name.isSome && isKeyword then none
      else if !isKeyword && earlier.any decl.clashes then none
      else readImports fuel k' (earlier ++ [decl]) rest

/-- The fields and keys of a rule's name. -/
def readRuleSegments (k : Keywords) : Nat → Expr → List Lexeme → Option (Expr × List Lexeme)
  | 0, _, _ => none
  | fuel + 1, ref, tokens =>
    match tokens with
    | ⟨.adjacent, _, .symbol .dot⟩ :: ⟨.adjacent, _, .name field⟩ :: rest =>
      if k.reserves field then none else readRuleSegments k fuel (.dot ref field) rest
    | ⟨.adjacent, _, .symbol .bracketOpen⟩ :: rest => do
      let (key, rest) ← readExpr k (callBound rest) rest
      let rest ← expect .bracketClose rest
      readRuleSegments k fuel (.index ref key) rest
    | ⟨.newline, _, _⟩ :: _ => some (ref, tokens)
    | ⟨_, _, .symbol .dot⟩ :: _ => none
    | ⟨_, _, .symbol .bracketOpen⟩ :: _ => none
    | _ => some (ref, tokens)

/-- The reference at the head of a rule; its first name cannot be one that no rule may
declare. -/
def readRuleRef (k : Keywords) (tokens : List Lexeme) : Option (Expr × List Lexeme) := do
  let (name, rest) ← readVar k tokens
  if mayDeclare k (.var name) then readRuleSegments k (tokens.length + 1) (.var name) rest
  else none

/-- The value after `=` or `:=`, if one of them comes next. -/
def readValue (k : Keywords) (tokens : List Lexeme) : Option (Option Expr × List Lexeme) :=
  match tokens with
  | ⟨_, _, .symbol .declare⟩ :: rest =>
    (readPairExpr k (callBound rest) rest).map fun (e, rest) => (some e, rest)
  | ⟨_, _, .symbol .unify⟩ :: rest =>
    (readPairExpr k (callBound rest) rest).map fun (e, rest) => (some e, rest)
  | _ => some (none, tokens)

/-- The arguments of a function's head, which are terms; a last comma may stand alone. -/
def readParams (k : Keywords) : Nat → List Lexeme → Option (List Expr × List Lexeme)
  | 0, _ => none
  | fuel + 1, tokens =>
    match expect .parenClose tokens with
    | some rest => some ([], rest)
    | none => do
      let (param, rest) ← readTerm k (callBound tokens) tokens
      match expect .comma rest with
      | some rest =>
        let (params, rest) ← readParams k fuel rest
        return (param :: params, rest)
      | none =>
        let rest ← expect .parenClose rest
        return ([param], rest)

/-- Whether a keyword comes next, so that a head with a bracket is a rule with a body. -/
def startsWithKeyword (k : Keywords) : List Lexeme → Bool
  | ⟨_, _, .name w⟩ :: _ => k.reserves w
  | _ => false

/-- The head of a rule. A name with one key in brackets and nothing assigned is a set. -/
def readHead (k : Keywords) (tokens : List Lexeme) : Option (RuleHead × List Lexeme) := do
  let (ref, rest) ← readRuleRef k tokens
  match rest with
  | ⟨_, _, .symbol .parenOpen⟩ :: rest =>
    let (args, rest) ← readParams k (rest.length + 1) rest
    let (value, rest) ← readValue k rest
    return (.function ref args value, rest)
  | ⟨_, _, .name "contains"⟩ :: rest =>
    let (key, rest) ← readPairExpr k (callBound rest) rest
    return (.set ref key, rest)
  | _ =>
    let (value, rest) ← readValue k rest
    match value, ref with
    | none, .index (.var name) key =>
      if startsWithKeyword k rest then return (.complete ref none, rest)
      else return (.set (.var name) key, rest)
    | _, _ => return (.complete ref value, rest)

/-- The statements of a body after `if`: braces hold a query where one can be read and a
collection elsewhere; without braces the body is one statement. -/
def readIfBody (k : Keywords) (tokens : List Lexeme) : Option (Query × List Lexeme) :=
  let single := (readStmt k (callBound tokens) tokens).map fun (s, rest) => ([s], rest)
  match tokens with
  | ⟨_, _, .symbol .braceOpen⟩ :: rest =>
    match readStmt k (callBound rest) rest with
    | none => single
    | some (stmt, rest) =>
      if startsWith .comma rest || startsWith .colon rest then single
      else do
        let (stmts, rest) ← readMoreStmts k (callBound rest) (.symbol .braceClose) rest
        if isUnion (stmt :: stmts) then single else return (stmt :: stmts, rest)
  | _ => single

/-- A query in braces. -/
def readBlock (k : Keywords) (tokens : List Lexeme) : Option (Query × List Lexeme) := do
  let rest ← expect .braceOpen tokens
  readQuery k (callBound rest) (.symbol .braceClose) rest

/-- A body, if one comes next. The newer dialect refuses one in braces without `if`. -/
def readBody (k : Keywords) (tokens : List Lexeme) : Option (Option Query × List Lexeme) :=
  if k.has "if" && startsWithWord "if" tokens then
    (readIfBody k (tokens.drop 1)).map fun (q, rest) => (some q, rest)
  else if startsWith .braceOpen tokens then
    if k.strict then none
    else (readBlock k tokens).map fun (q, rest) => (some q, rest)
  else some (none, tokens)

/-- Further bodies in braces directly after the first. -/
def readBlocks (k : Keywords) : Nat → List Lexeme → Option (List RuleBody × List Lexeme)
  | 0, _ => none
  | fuel + 1, tokens =>
    if startsWith .braceOpen tokens then do
      let (query, rest) ← readBlock k tokens
      let (bodies, rest) ← readBlocks k fuel rest
      return (⟨none, query⟩ :: bodies, rest)
    else some ([], tokens)

/-- The `else` branches: each has a value, a body or both. One without a body is the last. -/
def readElses (k : Keywords) : Nat → List Lexeme → Option (List RuleBody × List Lexeme)
  | 0, _ => none
  | fuel + 1, tokens =>
    match expectWord "else" tokens with
    | none => some ([], tokens)
    | some rest => do
      let (value, rest) ← readValue k rest
      let (query, rest) ← readBody k rest
      match query with
      | some query =>
        let (bodies, rest) ← readElses k fuel rest
        return (⟨value, query⟩ :: bodies, rest)
      | none => if value.isSome then return ([⟨value, []⟩], rest) else none

/-- The bodies of a rule. Only rules for one value and functions have more than one. -/
def readBodies (k : Keywords) (isSet : Bool) (tokens : List Lexeme) :
    Option (List RuleBody × List Lexeme) := do
  let (query, rest) ← readBody k tokens
  match query with
  | none => return ([], rest)
  | some query =>
    let first : RuleBody := ⟨none, query⟩
    if isSet then return ([first], rest)
    else if startsWith .braceOpen rest then
      let (more, rest) ← readBlocks k (rest.length + 1) rest
      return (first :: more, rest)
    else
      let (more, rest) ← readElses k (rest.length + 1) rest
      return (first :: more, rest)

def RuleHead.isSet : RuleHead → Bool
  | .set .. => true
  | _ => false

def RuleHead.hasValue : RuleHead → Bool
  | .complete _ value => value.isSome
  | .function _ _ value => value.isSome
  | .set .. => true

/-- The arguments of a default function after the first: variables, all different. -/
def readMoreDefaultArgs (k : Keywords) :
    Nat → List String → List Lexeme → Option (List String × List Lexeme)
  | 0, _, _ => none
  | fuel + 1, args, tokens =>
    match expect .comma tokens with
    | none => do
      let rest ← expect .parenClose tokens
      return (args, rest)
    | some rest => do
      let (arg, rest) ← readVar k rest
      if arg ≠ "_" && args.contains arg then none
      else readMoreDefaultArgs k fuel (args ++ [arg]) rest

/-- The arguments of a default function, if a parenthesis comes next. -/
def readDefaultArgs (k : Keywords) (tokens : List Lexeme) :
    Option (List String × List Lexeme) :=
  match expect .parenOpen tokens with
  | none => some ([], tokens)
  | some rest =>
    match expect .parenClose rest with
    | some rest => some ([], rest)
    | none => do
      let (arg, rest) ← readVar k rest
      readMoreDefaultArgs k (rest.length + 1) [arg] rest

/-- A rule after the word `default`: its value is any term. -/
def readDefault (k : Keywords) (tokens : List Lexeme) : Option (RuleDecl × List Lexeme) := do
  let (ref, rest) ← readRuleRef k tokens
  let (args, rest) ← readDefaultArgs k rest
  let rest ← (expect .unify rest).or (expect .declare rest)
  let (value, rest) ← readTerm k (callBound rest) rest
  return (.default ref (args.map .var) value, rest)

def readRule (k : Keywords) (tokens : List Lexeme) : Option (RuleDecl × List Lexeme) :=
  match expectWord "default" tokens with
  | some rest => readDefault k rest
  | none => do
    let (head, rest) ← readHead k tokens
    let (bodies, rest) ← readBodies k head.isSet rest
    if k.strict && !head.hasValue && bodies.isEmpty then none
    else return (.rule head bodies, rest)

/-- Rules up to the end of the text; nothing has to separate them. -/
def readRules (k : Keywords) : Nat → List Lexeme → Option (List RuleDecl)
  | 0, _ => none
  | fuel + 1, tokens =>
    if tokens.isEmpty then some []
    else do
      let (rule, rest) ← readRule k tokens
      let rules ← readRules k fuel rest
      return rule :: rules

def readModule (tokens : List Lexeme) : Option ModuleTree := do
  let rest ← expectWord "package" tokens
  let (package, rest) ← readSegmentPath rest
  let (k, imports, rest) ← readImports (rest.length + 1) .initial [] rest
  let rules ← readRules k (rest.length + 1) rest
  return ⟨package, imports, k.strict, rules⟩

/-- The module that a source text holds. -/
def ModuleTree.parse? (source : String) : Option ModuleTree := do
  let tokens ← lex source
  readModule tokens

/-- A query is read without any keyword switched on. -/
def Query.parse? (source : String) : Option Query := do
  let tokens ← lex source
  let (query, _) ← readQuery .initial (callBound tokens) .endOfText tokens
  return query

end PolicySync.Policy
