import PolicySync.Policy.Keyword
import PolicySync.Policy.Token
import PolicySync.Policy.Tree

/-!
# Reading expressions and statements

Recursive descent over the tokens that are left. Every function returns what it read and
the tokens after it, or nothing when the tokens do not fit. The first number bounds the
depth of calls; `callBound` gives one that no text reaches.
-/

namespace PolicySync.Policy

/-- Infix operators with their binding strength; 1 binds tightest. -/
def Symbol.operator? : Symbol → Option (BinaryOp × Nat)
  | .times => some (.mul, 1)
  | .divide => some (.div, 1)
  | .modulo => some (.mod, 1)
  | .plus => some (.add, 2)
  | .minus => some (.sub, 2)
  | .ampersand => some (.intersection, 3)
  | .bar => some (.union, 4)
  | .equal => some (.eq, 5)
  | .unequal => some (.ne, 5)
  | .less => some (.lt, 5)
  | .lessEqual => some (.le, 5)
  | .greater => some (.gt, 5)
  | .greaterEqual => some (.ge, 5)
  | _ => none

/-- The strength of comparisons, which bind least of the infix operators. -/
def comparisonLevel : Nat := 5

/-- The strength of sums, to which a number with its sign can be the second operand. -/
def sumLevel : Nat := 2

/-- Whether the next token is a symbol. -/
def startsWith (s : Symbol) : List Lexeme → Bool
  | ⟨_, _, .symbol t⟩ :: _ => s = t
  | _ => false

/-- Whether the next token is a word. -/
def startsWithWord (word : String) : List Lexeme → Bool
  | ⟨_, _, .name w⟩ :: _ => word = w
  | _ => false

/-- Whether the next token is a text in quotes or between grave accents. -/
def startsWithText : List Lexeme → Bool
  | ⟨_, _, .text _ _⟩ :: _ => true
  | ⟨_, _, .rawText _⟩ :: _ => true
  | _ => false

/-- Whether the next token is an operator of products. -/
def startsWithProduct : List Lexeme → Bool
  | ⟨_, _, .symbol s⟩ :: _ => s = .times || s = .divide || s = .modulo
  | _ => false

/-- The tokens after a symbol that has to come next. -/
def expect (s : Symbol) : List Lexeme → Option (List Lexeme)
  | ⟨_, _, .symbol t⟩ :: rest => if s = t then some rest else none
  | _ => none

def expectWord (word : String) : List Lexeme → Option (List Lexeme)
  | ⟨_, _, .name w⟩ :: rest => if word = w then some rest else none
  | _ => none

/-- Whether `in` comes before the next comma and the end of the brackets around the tokens.
The number counts the brackets that are open. -/
def comesIn : Nat → List Lexeme → Bool
  | _, [] => false
  | depth, ⟨_, _, .name word⟩ :: rest => (depth = 0 && word = "in") || comesIn depth rest
  | depth, ⟨_, _, .symbol s⟩ :: rest =>
    if s.opens then comesIn (depth + 1) rest
    else if s.closes then
      match depth with
      | 0 => false
      | depth + 1 => comesIn depth rest
    else if s = .comma && depth = 0 then false
    else comesIn depth rest
  | depth, _ :: rest => comesIn depth rest

/-- A variable: a name that is no keyword. -/
def readVar (k : Keywords) : List Lexeme → Option (String × List Lexeme)
  | ⟨_, _, .name w⟩ :: rest => if k.reserves w then none else some (w, rest)
  | _ => none

/-- A quoted key may stand in the path of a function; other keys may not. -/
def isQuoted : Expr → Bool
  | .quoted _ _ => true
  | _ => false

/-- How a list of tokens ends. -/
inductive Closing where
  | symbol (s : Symbol)
  | endOfText
  deriving DecidableEq, Repr

/-- The tokens after the end of a list, if it comes next. -/
def Closing.close? : Closing → List Lexeme → Option (List Lexeme)
  | .symbol s, tokens => expect s tokens
  | .endOfText, [] => some []
  | .endOfText, _ => none

/-- In the newer dialect `:=` may not declare `data` or `input`. -/
def mayDeclare (k : Keywords) : Expr → Bool
  | .var name => !(k.strict && (name = "data" || name = "input"))
  | _ => true

/-- The segments after the first name of a path, each adjacent to the one before. -/
def readSegments : Nat → List Lexeme → Option (List String × List Lexeme)
  | 0, _ => none
  | fuel + 1, tokens =>
    match tokens with
    | ⟨.adjacent, _, .symbol .dot⟩ :: ⟨.adjacent, _, .name field⟩ :: rest =>
      if reservedWords.contains field then none
      else do
        let (segments, rest) ← readSegments fuel rest
        return (field :: segments, rest)
    | ⟨.adjacent, _, .symbol .dot⟩ :: _ => none
    | ⟨.adjacent, _, .symbol .bracketOpen⟩ :: ⟨_, _, .text raw _⟩ :: rest => do
      let rest ← expect .bracketClose rest
      let (segments, rest) ← readSegments fuel rest
      return (raw :: segments, rest)
    | ⟨.adjacent, _, .symbol .bracketOpen⟩ :: _ => none
    | _ => some ([], tokens)

/-- A path of names and quoted keys. Only the words that are reserved everywhere are no
names here. -/
def readSegmentPath (tokens : List Lexeme) : Option (SegmentPath × List Lexeme) :=
  match tokens with
  | ⟨_, _, .name head⟩ :: rest =>
    if reservedWords.contains head then none
    else do
      let (segments, rest) ← readSegments (rest.length + 1) rest
      return (⟨head, segments⟩, rest)
  | _ => none

/-- A union that stands alone is taken for the elements of a set. -/
def isUnion : List Stmt → Bool
  | [.mk (.expr false (.binary .union _ _)) _] => true
  | _ => false

/-- A term between commas, with its text. -/
structure Listed where
  text : String
  expr : Expr

/-- The names declared by terms that are all variables. The first is named by its first
token, the others by their whole text; both differ from the variable only in parentheses. -/
def declaredNames? (listed : List Listed) : Option (List String) :=
  listed.mapM fun l =>
    match l.expr with
    | .var _ => some l.text
    | _ => none

mutual

/-- A scalar, a collection, a parenthesis, a negation or a reference. A negation takes
everything up to the end of the expression; nothing can follow a parenthesis. -/
def readTerm (k : Keywords) : Nat → List Lexeme → Option (Expr × List Lexeme)
  | 0, _ => none
  | fuel + 1, tokens =>
    match tokens with
    | ⟨_, _, .number negative digits⟩ :: rest =>
      readPath k fuel false (.scalar (signed negative digits)) rest
    | ⟨_, _, .text raw value⟩ :: rest => readPath k fuel false (.quoted raw value) rest
    | ⟨_, _, .rawText value⟩ :: rest => readPath k fuel false (.verbatim value) rest
    | ⟨_, _, .name word⟩ :: rest =>
      if word = "null" || word = "true" || word = "false" then
        readPath k fuel false (.scalar word) rest
      else if k.reserves word then none
      else readPath k fuel true (.var word) rest
    | ⟨_, _, .symbol .minus⟩ :: rest => do
      let (operand, rest) ← readExpr k fuel rest
      return (.neg operand, rest)
    | ⟨_, _, .symbol .parenOpen⟩ :: rest => do
      let (e, rest) ← readPairExpr k fuel rest
      let rest ← expect .parenClose rest
      return (e, rest)
    | ⟨_, _, .symbol .bracketOpen⟩ :: rest => do
      let (e, rest) ← readBrackets k fuel rest
      readPath k fuel false e rest
    | ⟨_, _, .symbol .braceOpen⟩ :: rest => do
      let (e, rest) ← readBraces k fuel rest
      readPath k fuel false e rest
    | ⟨_, _, .symbol .setOpen⟩ :: rest => do
      let rest ← expect .parenClose rest
      readPath k fuel false (.set []) rest
    | _ => none

/-- Fields, keys and calls after the term they belong to. A point or a bracket on a new
line belongs to the next statement; after blanks on the same line it is refused. -/
def readPath (k : Keywords) : Nat → Bool → Expr → List Lexeme → Option (Expr × List Lexeme)
  | 0, _, _, _ => none
  | fuel + 1, callable, base, tokens =>
    match tokens with
    | ⟨.adjacent, _, .symbol .dot⟩ :: ⟨.adjacent, _, .name field⟩ :: rest =>
      if k.reserves field then none else readPath k fuel callable (.dot base field) rest
    | ⟨.adjacent, _, .symbol .dot⟩ :: _ => none
    | ⟨.blanks, _, .symbol .dot⟩ :: _ => none
    | ⟨.adjacent, _, .symbol .bracketOpen⟩ :: rest => do
      let (key, rest) ← readExpr k fuel rest
      let rest ← expect .bracketClose rest
      readPath k fuel (callable && isQuoted key) (.index base key) rest
    | ⟨.blanks, _, .symbol .bracketOpen⟩ :: _ => none
    | ⟨_, _, .symbol .parenOpen⟩ :: rest =>
      if callable then do
        let (args, rest) ← readItems k fuel .parenClose rest
        readPath k fuel false (.call base args) rest
      else some (base, tokens)
    | _ => some (base, tokens)

/-- Expressions between commas up to a closing symbol; a last comma may stand alone. -/
def readItems (k : Keywords) : Nat → Symbol → List Lexeme → Option (List Expr × List Lexeme)
  | 0, _, _ => none
  | fuel + 1, close, tokens =>
    match expect close tokens with
    | some rest => some ([], rest)
    | none => do
      let (e, rest) ← readExpr k fuel tokens
      let (items, rest) ← readMoreItems k fuel close rest
      return (e :: items, rest)

/-- The items after the first. -/
def readMoreItems (k : Keywords) : Nat → Symbol → List Lexeme → Option (List Expr × List Lexeme)
  | 0, _, _ => none
  | fuel + 1, close, tokens =>
    match expect .comma tokens with
    | some rest => readItems k fuel close rest
    | none => do
      let rest ← expect close tokens
      return ([], rest)

/-- The fields of an object after the first, up to the brace. -/
def readMoreFields (k : Keywords) : Nat → List Lexeme → Option (List (Expr × Expr) × List Lexeme)
  | 0, _ => none
  | fuel + 1, tokens =>
    match expect .comma tokens with
    | none => do
      let rest ← expect .braceClose tokens
      return ([], rest)
    | some tokens =>
      match expect .braceClose tokens with
      | some rest => some ([], rest)
      | none => do
        let (key, rest) ← readExpr k fuel tokens
        let rest ← expect .colon rest
        let (value, rest) ← readExpr k fuel rest
        let (fields, rest) ← readMoreFields k fuel rest
        return ((key, value) :: fields, rest)

/-- An array or an array comprehension, its bracket already read. -/
def readBrackets (k : Keywords) : Nat → List Lexeme → Option (Expr × List Lexeme)
  | 0, _ => none
  | fuel + 1, tokens =>
    match expect .bracketClose tokens with
    | some rest => some (.array [], rest)
    | none => do
      let (head, rest) ← readTerm k fuel tokens
      match readComprehension k fuel .bracketClose rest with
      | some (body, rest) => return (.arrayCompr head body, rest)
      | none =>
        let (e, rest) ← finishExpr k fuel head rest
        let (items, rest) ← readMoreItems k fuel .bracketClose rest
        return (.array (e :: items), rest)

/-- An object, a set or a comprehension of either, its brace already read. -/
def readBraces (k : Keywords) : Nat → List Lexeme → Option (Expr × List Lexeme)
  | 0, _ => none
  | fuel + 1, tokens =>
    match expect .braceClose tokens with
    | some rest => some (.object [], rest)
    | none => do
      let (head, rest) ← readTerm k fuel tokens
      match readComprehension k fuel .braceClose rest with
      | some (body, rest) => return (.setCompr head body, rest)
      | none =>
        let (first, rest) ← finishExpr k fuel head rest
        match expect .colon rest with
        | none =>
          let (items, rest) ← readMoreItems k fuel .braceClose rest
          return (.set (first :: items), rest)
        | some rest =>
          let (head, rest) ← readTerm k fuel rest
          match readComprehension k fuel .braceClose rest with
          | some (body, rest) => return (.objectCompr first head body, rest)
          | none =>
            let (value, rest) ← finishExpr k fuel head rest
            let (fields, rest) ← readMoreFields k fuel rest
            return (.object ((first, value) :: fields), rest)

/-- A bar and a query up to the closing symbol: the rest of a comprehension. -/
def readComprehension (k : Keywords) : Nat → Symbol → List Lexeme → Option (List Stmt × List Lexeme)
  | 0, _, _ => none
  | fuel + 1, close, tokens => do
    let rest ← expect .bar tokens
    readQuery k fuel (.symbol close) rest

/-- An expression without assignment and without pairs. -/
def readExpr (k : Keywords) : Nat → List Lexeme → Option (Expr × List Lexeme)
  | 0, _ => none
  | fuel + 1, tokens => do
    let (head, rest) ← readTerm k fuel tokens
    finishExpr k fuel head rest

/-- Operators and memberships after the first term. -/
def finishExpr (k : Keywords) : Nat → Expr → List Lexeme → Option (Expr × List Lexeme)
  | 0, _, _ => none
  | fuel + 1, head, tokens => do
    let (e, rest) ← extend k fuel comparisonLevel head tokens
    if k.has "in" then readMemberships k fuel none e rest else return (e, rest)

/-- An expression in which `k, v in xs` is one membership. -/
def readPairExpr (k : Keywords) : Nat → List Lexeme → Option (Expr × List Lexeme)
  | 0, _ => none
  | fuel + 1, tokens => do
    let (head, rest) ← readTerm k fuel tokens
    finishPairExpr k fuel head rest

/-- Operators, a pair and memberships after the first term. -/
def finishPairExpr (k : Keywords) : Nat → Expr → List Lexeme → Option (Expr × List Lexeme)
  | 0, _, _ => none
  | fuel + 1, head, tokens => do
    let (e, rest) ← extend k fuel comparisonLevel head tokens
    if k.has "in" then
      match readPairValue k fuel rest with
      | some (value, rest) => readMemberships k fuel (some e) value rest
      | none => readMemberships k fuel none e rest
    else return (e, rest)

/-- After the key of a membership: the comma and the value, when `in` follows them. Without
an `in` ahead the value is not read, so that nested lists are read once. -/
def readPairValue (k : Keywords) : Nat → List Lexeme → Option (Expr × List Lexeme)
  | 0, _ => none
  | fuel + 1, tokens => do
    let rest ← expect .comma tokens
    if comesIn 0 rest then
      let (head, rest) ← readTerm k fuel rest
      let (value, rest) ← extend k fuel comparisonLevel head rest
      if startsWithWord "in" rest then return (value, rest) else none
    else none

/-- Memberships of what was read so far, leftmost first. -/
def readMemberships (k : Keywords) :
    Nat → Option Expr → Expr → List Lexeme → Option (Expr × List Lexeme)
  | 0, _, _, _ => none
  | fuel + 1, key, value, tokens =>
    match expectWord "in" tokens with
    | none => some (value, tokens)
    | some rest => do
      let (head, rest) ← readTerm k fuel rest
      let (collection, rest) ← extend k fuel comparisonLevel head rest
      readMemberships k fuel none (.member key value collection) rest

/-- Infix operators up to a strength, applied to the operand read so far. A number with its
sign is subtracted as a whole, so that no product can follow it. -/
def extend (k : Keywords) : Nat → Nat → Expr → List Lexeme → Option (Expr × List Lexeme)
  | 0, _, _, _ => none
  | fuel + 1, level, lhs, tokens =>
    match tokens with
    | ⟨_, _, .symbol s⟩ :: rest =>
      match s.operator? with
      | some (op, strength) =>
        if strength ≤ level then do
          let (head, rest) ← readTerm k fuel rest
          let (rhs, rest) ← extend k fuel (strength - 1) head rest
          extend k fuel level (.binary op lhs rhs) rest
        else some (lhs, tokens)
      | none => some (lhs, tokens)
    | ⟨_, _, .number true digits⟩ :: rest =>
      if level < sumLevel then some (lhs, tokens)
      else if startsWithProduct rest then none
      else extend k fuel level (.binary .sub lhs (.scalar digits)) rest
    | _ => some (lhs, tokens)

/-- Statements up to a closing symbol, at least one. A comma or a colon after the first, or a
union alone, shows that this is no query but a collection. -/
def readQuery (k : Keywords) : Nat → Closing → List Lexeme → Option (List Stmt × List Lexeme)
  | 0, _, _ => none
  | fuel + 1, close, tokens => do
    let (stmts, rest) ← readStmts k fuel close tokens
    if isUnion stmts then none else return (stmts, rest)

def readStmts (k : Keywords) : Nat → Closing → List Lexeme → Option (List Stmt × List Lexeme)
  | 0, _, _ => none
  | fuel + 1, close, tokens => do
    let (stmt, rest) ← readStmt k fuel tokens
    let (stmts, rest) ← readMoreStmts k fuel close rest
    return (stmt :: stmts, rest)

/-- The statements after the first, each after a semicolon or on a new line. At the end of a
text no line can start with a text in quotes. -/
def readMoreStmts (k : Keywords) : Nat → Closing → List Lexeme → Option (List Stmt × List Lexeme)
  | 0, _, _ => none
  | fuel + 1, close, tokens =>
    match close.close? tokens with
    | some rest => some ([], rest)
    | none =>
      match tokens with
      | ⟨_, _, .symbol .semicolon⟩ :: rest => readStmts k fuel close rest
      | ⟨.newline, _, _⟩ :: _ =>
        if close = .endOfText && startsWithText tokens then none
        else readStmts k fuel close tokens
      | _ => none

/-- A literal with its modifiers. -/
def readStmt (k : Keywords) : Nat → List Lexeme → Option (Stmt × List Lexeme)
  | 0, _ => none
  | fuel + 1, tokens => do
    let (literal, rest) ← readLiteral k fuel tokens
    let (modifiers, rest) ← readModifiers k fuel rest
    return (.mk literal modifiers, rest)

def readModifiers (k : Keywords) :
    Nat → List Lexeme → Option (List (SegmentPath × Expr) × List Lexeme)
  | 0, _ => none
  | fuel + 1, tokens =>
    match expectWord "with" tokens with
    | none => some ([], tokens)
    | some rest => do
      let (target, rest) ← readSegmentPath rest
      let rest ← expectWord "as" rest
      let (value, rest) ← readExpr k fuel rest
      let (modifiers, rest) ← readModifiers k fuel rest
      return ((target, value) :: modifiers, rest)

def readLiteral (k : Keywords) : Nat → List Lexeme → Option (Literal × List Lexeme)
  | 0, _ => none
  | fuel + 1, tokens =>
    match tokens with
    | ⟨_, _, .name "some"⟩ :: rest => readSome k fuel rest
    | ⟨_, _, .name "not"⟩ :: rest => do
      let (e, rest) ← readAssignment k fuel rest
      return (.expr true e, rest)
    | _ =>
      if k.has "every" && startsWithWord "every" tokens then
        readEvery k fuel (tokens.drop 1)
      else do
        let (e, rest) ← readAssignment k fuel tokens
        return (.expr false e, rest)

/-- The names or patterns after `some`, and their domain. -/
def readSome (k : Keywords) : Nat → List Lexeme → Option (Literal × List Lexeme)
  | 0, _ => none
  | fuel + 1, tokens => do
    let (first, rest) ← readTerm k fuel tokens
    let (others, rest) ← readListed k fuel rest
    let listed := ⟨writtenLexemes (tokens.take 1), first⟩ :: others
    match (if k.has "in" then expectWord "in" rest else none) with
    | some rest =>
      let (head, rest) ← readTerm k fuel rest
      let (collection, rest) ← extend k fuel comparisonLevel head rest
      match listed with
      | [value] => return (.someIn none value.expr collection, rest)
      | [key, value] => return (.someIn (some key.expr) value.expr collection, rest)
      | _ => none
    | none =>
      let names ← declaredNames? listed
      return (.someVars names, rest)

/-- Terms, each after a comma. -/
def readListed (k : Keywords) : Nat → List Lexeme → Option (List Listed × List Lexeme)
  | 0, _ => none
  | fuel + 1, tokens =>
    match expect .comma tokens with
    | none => some ([], tokens)
    | some tokens => do
      let (e, rest) ← readTerm k fuel tokens
      let (others, after) ← readListed k fuel rest
      return (⟨writtenLexemes (tokens.take (tokens.length - rest.length)), e⟩ :: others, after)

/-- The variables, the domain and the body after `every`. -/
def readEvery (k : Keywords) : Nat → List Lexeme → Option (Literal × List Lexeme)
  | 0, _ => none
  | fuel + 1, tokens => do
    let (first, rest) ← readVar k tokens
    let (key, value, rest) ←
      match expect .comma rest with
      | some rest => (readVar k rest).map fun (second, rest) => (some first, second, rest)
      | none => some (none, first, rest)
    let rest ← expectWord "in" rest
    let (head, rest) ← readTerm k fuel rest
    let (domain, rest) ← extend k fuel comparisonLevel head rest
    let rest ← expect .braceOpen rest
    let (body, rest) ← readQuery k fuel (.symbol .braceClose) rest
    return (.every key value domain body, rest)

/-- An expression, or a term with what it is assigned or unified with. -/
def readAssignment (k : Keywords) : Nat → List Lexeme → Option (Expr × List Lexeme)
  | 0, _ => none
  | fuel + 1, tokens => do
    let (head, rest) ← readTerm k fuel tokens
    match rest with
    | ⟨_, _, .symbol .declare⟩ :: rest =>
      if mayDeclare k head then do
        let (value, rest) ← readPairExpr k fuel rest
        return (.assign .declare head value, rest)
      else none
    | ⟨_, _, .symbol .unify⟩ :: rest => do
      let (value, rest) ← readPairExpr k fuel rest
      return (.assign .unify head value, rest)
    | _ => finishPairExpr k fuel head rest

end

/-- Between two tokens that are read no more than ten calls nest. -/
def callBound (tokens : List Lexeme) : Nat := 10 * tokens.length + 10

end PolicySync.Policy
