import PolicySync.Selectors
import PolicySync.Proofs.PackagePath
import PolicySync.Proofs.Policy.Grammar.Separated

/-!
# The module that holds selectors

The text that is written for selectors is read as a module with one rule, whose body is two
bindings of literals, a look-up and a call, whatever texts the id and the selectors are.
-/

namespace PolicySync

open PolicySync.Policy PolicySync.Text

namespace Selector

def memberLexemes (value : String) : List Lexeme :=
  [.fresh "\n            " (quotedToken value), comma]

def membersLexemes (values : List String) : List Lexeme :=
  if values.isEmpty then [.apart (.symbol .setOpen), .glued (.symbol .parenClose)]
  else
    .apart (.symbol .braceOpen) ::
      (values.flatMap memberLexemes ++ [.fresh "\n        " (.symbol .braceClose)])

def entryLexemes (e : String × List String) : List Lexeme :=
  .fresh "\n        " (quotedToken e.1) :: colon :: (membersLexemes e.2 ++ [comma])

def objectLexemes (s : Selector) : List Lexeme :=
  .apart (.symbol .braceOpen) ::
    (s.entries.flatMap entryLexemes ++ [.fresh "\n    " (.symbol .braceClose)])

/-- The lexemes of the statement that binds a selector to a name. -/
def bindingLexemes (before name : String) (s : Selector) : List Lexeme :=
  .fresh before (.name name) :: .apart (.symbol .declare) :: objectLexemes s

def literal (s : Selector) : Expr :=
  .object (s.entries.map fun e => (quotedExpr e.1, .set (e.2.map quotedExpr)))

def binding (name : String) (s : Selector) : Stmt :=
  .mk (.expr false (.assign .declare (.var name) (literal s))) []

private theorem renderMember_toList (value : String) :
    '\n' :: (renderMember value).toList = spelling (memberLexemes value) ++ ['\n'] := by
  simp [renderMember, memberLexemes, quotedToken, comma, Lexeme.fresh, Lexeme.glued,
    Token.written, Symbol.text, Quoted.quote]

private theorem renderEntry_toList (e : String × List String) :
    '\n' :: (renderEntry e).toList = spelling (entryLexemes e) ++ ['\n'] := by
  rw [renderEntry, entryLexemes, membersLexemes]
  split
  · simp [quotedToken, colon, comma, Lexeme.fresh, Lexeme.apart, Lexeme.glued, Token.written,
      Symbol.text, Quoted.quote]
  · have hmembers := lineFeed_join renderMember_toList e.2
    have happend := congrArg (· ++ "        \x7d,\n".toList) hmembers
    simp only [List.cons_append, List.append_assoc] at happend
    simpa [quotedToken, colon, comma, Lexeme.fresh, Lexeme.apart, Lexeme.glued, Token.written,
      Symbol.text, Quoted.quote] using happend

theorem renderBinding_toList (lead : List Char) {before : String}
    (h : before.toList = lead ++ "    ".toList) (name : String) (s : Selector) :
    lead ++ (renderBinding name s).toList = spelling (bindingLexemes before name s) ++ ['\n'] := by
  have hentries := lineFeed_join renderEntry_toList s.entries
  have happend := congrArg (· ++ "    \x7d\n".toList) hentries
  simp only [List.cons_append, List.append_assoc] at happend
  simpa [renderBinding, bindingLexemes, objectLexemes, Lexeme.fresh, Lexeme.apart, Token.written,
    Symbol.text, h] using happend

private theorem areLines_member (value : String) : AreLines (memberLexemes value) := by
  constructor
  · simp [memberLexemes, standBefore, quotedToken, comma, Lexeme.fresh, Lexeme.glued,
      Token.standsBefore, gapAcross, Gap.addBlank, Symbol.text, Symbol.ofPair?]
  · simp [memberLexemes, Lexeme.fresh]

private theorem areLines_entry (e : String × List String) : AreLines (entryLexemes e) := by
  rw [entryLexemes, membersLexemes]
  split
  · constructor
    · simp [standBefore, quotedToken, colon, comma, Lexeme.fresh, Lexeme.apart, Lexeme.glued,
        Token.standsBefore, Token.written, gapAcross, Gap.addBlank, Symbol.text, Symbol.ofPair?]
    · simp [Lexeme.fresh]
  · have hopen : AreLines [.fresh "\n        " (quotedToken e.1), colon,
        .apart (.symbol .braceOpen)] := by
      constructor
      · simp [standBefore, quotedToken, colon, Lexeme.fresh, Lexeme.apart, Lexeme.glued,
          Token.standsBefore, Token.written, gapAcross, Gap.addBlank, Symbol.text, Symbol.ofPair?]
      · simp [Lexeme.fresh]
    have hclose : AreLines [.fresh "\n        " (.symbol .braceClose), comma] := by
      constructor <;> decide
    have hmembers : AreLines (e.2.flatMap memberLexemes) :=
      AreLines.flatMap fun v _ => areLines_member v
    simpa using hopen.append (hmembers.append hclose)

private theorem areLines_binding {before name : String} (s : Selector)
    (h : AreLines [.fresh before (.name name), .apart (.symbol .declare),
      .apart (.symbol .braceOpen)]) : AreLines (bindingLexemes before name s) := by
  have hentries : AreLines (s.entries.flatMap entryLexemes) :=
    AreLines.flatMap fun e _ => areLines_entry e
  have hclose : AreLines [.fresh "\n    " (.symbol .braceClose)] := by constructor <;> decide
  simpa [bindingLexemes, objectLexemes] using h.append (hentries.append hclose)

private theorem readsTokens_quoted (k : Keywords) (value : String) :
    ReadsTokens k [quotedToken value] (quotedExpr value) := ReadsTokens.text _ value

private theorem readsTokens_members (k : Keywords) (values : List String) :
    ReadsTokens k ((membersLexemes values).map Lexeme.token) (.set (values.map quotedExpr)) := by
  cases values with
  | nil => exact ReadsTokens.emptySet
  | cons v vs =>
    have hset := ReadsTokens.listedSet (readsTokens_quoted k v)
      (fun w (_ : w ∈ vs) => readsTokens_quoted k w)
    simpa [membersLexemes, memberLexemes, comma, Lexeme.apart, Lexeme.fresh, Lexeme.glued,
      List.map_flatMap] using hset

private theorem readsTerm_object (k : Keywords) (s : Selector) :
    ReadsTerm k (objectLexemes s) (literal s) := by
  refine ReadsTokens.listedObject
    (fun e _ => ⟨readsTokens_quoted k e.1, readsTokens_members k e.2⟩) _ ?_
  simp [objectLexemes, entryLexemes, colon, comma, Lexeme.apart, Lexeme.fresh, Lexeme.glued,
    List.map_flatMap]

/-- A statement that declares a group is read up to what ends its term, when this is neither a comma
nor a modifier. -/
theorem readStmt_declare (newer : Bool) {before name : String} {vs rest : List Lexeme} {e : Expr}
    {fuel : Nat} (hname : name = "include" ∨ name = "exclude")
    (hvs : ReadsTerm (dialectKeywords newer) vs e) (hends : endsTerm rest = true)
    (hcomma : expect .comma rest = none) (hwith : expectWord "with" rest = none)
    (hfuel : 10 * (vs.length + 2) ≤ fuel) :
    readStmt (dialectKeywords newer) fuel
        (.fresh before (.name name) :: .apart (.symbol .declare) :: (vs ++ rest)) =
      some (.mk (.expr false (.assign .declare (.var name) e)) [], rest) := by
  obtain ⟨fuel, rfl⟩ : ∃ n, fuel = n + 6 := ⟨fuel - 6, by omega⟩
  have hvalue : readPairExpr (dialectKeywords newer) (fuel + 3) (vs ++ rest) = some (e, rest) :=
    readPairExpr_of_reads hvs hends hcomma (by omega)
  have hliteral : readLiteral (dialectKeywords newer) (fuel + 5)
      (.fresh before (.name name) :: .apart (.symbol .declare) :: (vs ++ rest)) =
        some (.expr false (.assign .declare (.var name) e), rest) := by
    rcases hname with rfl | rfl
    all_goals
      cases newer
      all_goals
        change (((readPairExpr _ (fuel + 3) (vs ++ rest)).bind _).bind _) = _
        rw [hvalue]
        rfl
  have hmodifiers : readModifiers (dialectKeywords newer) (fuel + 5) rest = some ([], rest) := by
    rw [readModifiers, hwith]
  change ((readLiteral (dialectKeywords newer) (fuel + 5) _).bind _) = _
  rw [hliteral]
  change ((readModifiers (dialectKeywords newer) (fuel + 5) _).bind _) = _
  rw [hmodifiers]
  rfl

/-- A binding is read as one statement before another line that begins with a name. -/
theorem readStmt_binding (newer : Bool) {before before' name word : String} {s : Selector}
    {rest : List Lexeme} {fuel : Nat} (hname : name = "include" ∨ name = "exclude")
    (hword : word ≠ "in" ∧ word ≠ "with")
    (hfuel : 10 * (bindingLexemes before name s).length ≤ fuel) :
    readStmt (dialectKeywords newer) fuel
        (bindingLexemes before name s ++ .fresh before' (.name word) :: rest) =
      some (binding name s, .fresh before' (.name word) :: rest) := by
  rw [bindingLexemes, List.length_cons, List.length_cons] at hfuel
  have hends : endsTerm (.fresh before' (.name word) :: rest) = true := by
    simp [endsTerm, Lexeme.fresh, hword.1]
  have hwith : expectWord "with" (.fresh before' (.name word) :: rest) = none :=
    if_neg hword.2.symm
  exact readStmt_declare newer hname (readsTerm_object _ s) hends rfl hwith (by omega)

end Selector

namespace Selectors

/-- Names after points. -/
def dotted (names : List String) : List Lexeme :=
  names.flatMap fun name => [.glued (.symbol .dot), .glued (.name name)]

/-- The rule up to its body. -/
def ruleLexemes : List Lexeme :=
  [.fresh "\n\n" (.name rule), .apart (.name "contains"), .apart (.name "system_id"),
    .apart (.name "if"), .apart (.symbol .braceOpen)]

/-- The imports, and the rule up to its body. -/
def headLexemes : List Lexeme :=
  [.fresh "\n\n" (.name "import"), .apart (.name "data")] ++
    dotted ["library", "v1", "utils", "labels", "match", "v1"] ++
    [.apart (.name "as"), .apart (.name "match"), .fresh "\n" (.name "import"),
      .apart (.name "rego")] ++ dotted ["v1"] ++ ruleLexemes

/-- The body after its two bindings. -/
def tailLexemes : List Lexeme :=
  [.fresh "\n\n    " (.name "metadata"), .apart (.symbol .declare), .apart (.name "data")] ++
    dotted ["metadata"] ++
    [.glued (.symbol .bracketOpen), .glued (.name "system_id"), .glued (.symbol .bracketClose),
      .fresh "\n    " (.name "match")] ++ dotted ["all"] ++
    [.glued (.symbol .parenOpen), .glued (.name "metadata")] ++ dotted ["labels", "labels"] ++
    [comma, .apart (.name "include"), comma, .apart (.name "exclude"),
      .glued (.symbol .parenClose), .fresh "\n" (.symbol .braceClose)]

def bodyLexemes (s : Selectors) : List Lexeme :=
  s.incl.bindingLexemes "\n    " "include" ++
    (s.excl.bindingLexemes "\n\n    " "exclude" ++ tailLexemes)

/-- The metadata of the system that is asked for. -/
def metadataStmt : Stmt :=
  .mk (.expr false (.assign .declare (.var "metadata")
    (.index (.dot (.var "data") "metadata") (.var "system_id")))) []

/-- The call that compares the labels of the system with both groups. -/
def matchStmt : Stmt :=
  .mk (.expr false (.call (.dot (.var "match") "all")
    [.dot (.dot (.var "metadata") "labels") "labels", .var "include", .var "exclude"])) []

def body (s : Selectors) : Query :=
  [s.incl.binding "include", s.excl.binding "exclude", metadataStmt, matchStmt]

def matchImport : ImportDecl :=
  ⟨⟨"data", ["library", "v1", "utils", "labels", "match", "v1"]⟩, some "match"⟩

def tree (id : String) (s : Selectors) : ModuleTree where
  package := ⟨"stacks", [Quoted.escape id, "selectors"]⟩
  imports := [matchImport, newerImport]
  strict := true
  rules := [.rule (.set (.var rule) (.var "system_id")) [⟨none, body s⟩]]

/-- The tree of the module in either dialect. -/
def dialectTree (newer : Bool) (id : String) (s : Selectors) : ModuleTree :=
  { tree id s with imports := matchImport :: dialectImports newer, strict := newer }

private theorem lineFeeds_append {incl excl tail incl' excl' tail' : List Char}
    (hincl : '\n' :: incl = incl' ++ ['\n']) (hexcl : '\n' :: '\n' :: excl = excl' ++ ['\n'])
    (htail : '\n' :: '\n' :: tail = tail' ++ ['\n']) :
    '\n' :: (incl ++ '\n' :: (excl ++ '\n' :: tail)) = incl' ++ (excl' ++ tail') ++ ['\n'] := by
  calc '\n' :: (incl ++ '\n' :: (excl ++ '\n' :: tail))
    _ = ('\n' :: incl) ++ '\n' :: (excl ++ '\n' :: tail) := by simp
    _ = incl' ++ (('\n' :: '\n' :: excl) ++ '\n' :: tail) := by rw [hincl]; simp
    _ = incl' ++ (excl' ++ ('\n' :: '\n' :: tail)) := by rw [hexcl]; simp
    _ = incl' ++ (excl' ++ tail') ++ ['\n'] := by rw [htail]; simp

private theorem spelling_headLexemes : "\n\nimport ".toList ++ (matchHelper.toList ++
    (" as match\nimport rego.v1\n\n".toList ++ (rule.toList ++
      " contains system_id if \x7b".toList))) = spelling headLexemes := by
  rfl

private theorem spelling_tailLexemes :
    '\n' :: '\n' :: ("    metadata := data.metadata[system_id]\n".toList ++
      "    match.all(metadata.labels.labels, include, exclude)\n\x7d\n".toList) =
        spelling tailLexemes ++ ['\n'] := by
  rfl

/-- The text of the body, after the line of its first brace. -/
def bodyText (s : Selectors) : String :=
  s.incl.renderBinding "include" ++ "\n" ++ (s.excl.renderBinding "exclude" ++ "\n" ++
    ("    metadata := data.metadata[system_id]\n" ++
      "    match.all(metadata.labels.labels, include, exclude)\n\x7d\n"))

theorem spelling_body (s : Selectors) :
    '\n' :: (bodyText s).toList = spelling (bodyLexemes s) ++ ['\n'] := by
  have hincl := Selector.renderBinding_toList ['\n'] (show "\n    ".toList = _ from rfl)
    "include" s.incl
  have hexcl := Selector.renderBinding_toList ['\n', '\n'] (show "\n\n    ".toList = _ from rfl)
    "exclude" s.excl
  have hlines := lineFeeds_append hincl hexcl spelling_tailLexemes
  rw [bodyLexemes, spelling_append, spelling_append, ← hlines]
  unfold bodyText
  simp only [String.toList_append, List.append_assoc, -String.reduceToList]
  rfl

theorem render_eq (id : String) (s : Selectors) :
    render id s = "package " ++ packagePath "stacks" id "selectors" ++ ("\n\nimport " ++
      (matchHelper ++ (" as match\nimport rego.v1\n\n" ++ (rule ++
        (" contains system_id if \x7b\n" ++ bodyText s))))) := by
  unfold render bodyText
  simp only [String.append_assoc, -String.reduceAppend]

theorem render_toList (id : String) (s : Selectors) :
    (render id s).toList =
      spelling (packageLine "stacks" id "selectors" ++ (headLexemes ++ bodyLexemes s)) ++
        ['\n'] := by
  have hline : " contains system_id if \x7b\n".toList =
      " contains system_id if \x7b".toList ++ ['\n'] := rfl
  rw [spelling_append, spelling_packageLine, spelling_append, List.append_assoc, List.append_assoc,
    List.append_assoc, ← spelling_body, ← spelling_headLexemes, render_eq]
  simp only [String.toList_append, List.append_assoc, hline, List.singleton_append,
    -String.reduceToList]

theorem areLines_body (s : Selectors) : AreLines (bodyLexemes s) := by
  have htail : AreLines tailLexemes := by constructor <;> decide
  have hincl : AreLines (s.incl.bindingLexemes "\n    " "include") :=
    Selector.areLines_binding s.incl (by constructor <;> decide)
  have hexcl : AreLines (s.excl.bindingLexemes "\n\n    " "exclude") :=
    Selector.areLines_binding s.excl (by constructor <;> decide)
  exact hincl.append (hexcl.append htail)

theorem lex_render (id : String) (s : Selectors) :
    lex (render id s) =
      some (packageLine "stacks" id "selectors" ++ (headLexemes ++ bodyLexemes s)) := by
  have hhead : AreLines headLexemes := by constructor <;> decide
  refine lex_lines (List.cons_ne_nil _ _) (render_toList id s) ?_ (hhead.append (areLines_body s))
  exact standBefore_packageLine (by decide) (by decide) (by decide)

/-- The statements after the bindings are read up to the brace, whatever blanks are before them. -/
theorem readMoreStmts_tail (newer : Bool) (before : String) (fuel : Nat) :
    readMoreStmts (dialectKeywords newer) (fuel + 30) (.symbol .braceClose)
        (.fresh before (.name "metadata") :: tailLexemes.tail) =
      some ([metadataStmt, matchStmt], []) := by
  cases newer <;> rfl

/-- The body is read as its first statement, and then the other three up to the brace. -/
theorem readStmt_body (newer : Bool) (s : Selectors) {fuel : Nat}
    (hfuel : 10 * (bodyLexemes s).length ≤ fuel) :
    readStmt (dialectKeywords newer) fuel (bodyLexemes s) =
      some (s.incl.binding "include",
        s.excl.bindingLexemes "\n\n    " "exclude" ++ tailLexemes) := by
  refine Selector.readStmt_binding newer (Or.inl rfl) (by decide) ?_
  rw [bodyLexemes, List.length_append] at hfuel
  omega

theorem readMoreStmts_body (newer : Bool) {s : Selectors} {fuel : Nat}
    (hfuel : 10 * (s.excl.bindingLexemes "\n\n    " "exclude" ++ tailLexemes).length ≤ fuel) :
    readMoreStmts (dialectKeywords newer) fuel (.symbol .braceClose)
        (s.excl.bindingLexemes "\n\n    " "exclude" ++ tailLexemes) =
      some ([s.excl.binding "exclude", metadataStmt, matchStmt], []) := by
  have htail : 10 * tailLexemes.length = 230 := by decide
  rw [List.length_append] at hfuel
  obtain ⟨fuel, rfl⟩ : ∃ n, fuel = n + 32 := ⟨fuel - 32, by omega⟩
  have hstmt : readStmt (dialectKeywords newer) (fuel + 30)
      (s.excl.bindingLexemes "\n\n    " "exclude" ++ tailLexemes) =
        some (s.excl.binding "exclude", tailLexemes) :=
    Selector.readStmt_binding newer (Or.inr rfl) (by decide) (by omega)
  change ((readStmt _ (fuel + 30)
    (s.excl.bindingLexemes "\n\n    " "exclude" ++ tailLexemes)).bind _) = _
  rw [hstmt]
  change ((readMoreStmts _ (fuel + 30) _
    (.fresh "\n\n    " (.name "metadata") :: tailLexemes.tail)).bind _) = _
  rw [readMoreStmts_tail]
  rfl

/-- The rule is read from its first statement and from those up to the brace. -/
theorem readRule_block {ls rest : List Lexeme} {stmt : Stmt} {stmts : Query}
    (hstmt : readStmt newerKeywords (callBound ls) ls = some (stmt, rest))
    (hcomma : startsWith .comma rest = false) (hcolon : startsWith .colon rest = false)
    (hmore : readMoreStmts newerKeywords (callBound rest) (.symbol .braceClose) rest =
      some (stmts, []))
    (hunion : isUnion (stmt :: stmts) = false) :
    readRule newerKeywords (ruleLexemes ++ ls) =
      some (.rule (.set (.var rule) (.var "system_id")) [⟨none, stmt :: stmts⟩], []) := by
  have hblock : readIfBody newerKeywords (.apart (.symbol .braceOpen) :: ls) =
      some (stmt :: stmts, []) := by
    simp only [readIfBody, Lexeme.apart, hstmt, hcomma, hcolon, Bool.or_false]
    rw [if_neg Bool.false_ne_true, hmore]
    simp [hunion]
  have hdefault : expectWord "default" (ruleLexemes ++ ls) = none := rfl
  have hhead : readHead newerKeywords (ruleLexemes ++ ls) =
      some (.set (.var rule) (.var "system_id"), .apart (.name "if") ::
        .apart (.symbol .braceOpen) :: ls) := rfl
  have hbody : readBody newerKeywords (.apart (.name "if") :: .apart (.symbol .braceOpen) :: ls) =
      some (some (stmt :: stmts), []) := by
    change (readIfBody newerKeywords (.apart (.symbol .braceOpen) :: ls)).map _ = _
    rw [hblock]
    rfl
  unfold readRule
  rw [hdefault, hhead]
  change (((readBody newerKeywords _).bind _).bind _) = _
  rw [hbody]
  rfl

private theorem readRule_body (s : Selectors) :
    readRule newerKeywords (ruleLexemes ++ bodyLexemes s) =
      some (.rule (.set (.var rule) (.var "system_id")) [⟨none, body s⟩], []) := by
  have hstmt : readStmt newerKeywords (callBound (bodyLexemes s)) (bodyLexemes s) = _ :=
    readStmt_body true s (Nat.le_add_right _ 10)
  have hmore : readMoreStmts newerKeywords
      (callBound (s.excl.bindingLexemes "\n\n    " "exclude" ++ tailLexemes)) (.symbol .braceClose)
      (s.excl.bindingLexemes "\n\n    " "exclude" ++ tailLexemes) = _ :=
    readMoreStmts_body true (Nat.le_add_right _ 10)
  exact readRule_block hstmt rfl rfl hmore rfl

private theorem readModule_lexemes (id : String) (s : Selectors) :
    readModule (packageLine "stacks" id "selectors" ++ (headLexemes ++ bodyLexemes s)) =
      if reservedWords.contains id then none else some (tree id s) := by
  change ((readSegmentPath (.apart (.name "stacks") :: (pathLexemes id "selectors" ++
    .fresh "\n\n" (.name "import") :: (headLexemes.tail ++ bodyLexemes s)))).bind _) = _
  rw [readSegmentPath_packageLine (by decide) (by decide)]
  split
  · rfl
  · change (((readRule newerKeywords (ruleLexemes ++ bodyLexemes s)).bind _).bind _) = _
    rw [readRule_body]
    rfl

/-- The text that is written for selectors is read as the module meant, for every id and all
selectors; an id that is a reserved word makes it no module. -/
theorem parse?_render (id : String) (s : Selectors) :
    ModuleTree.parse? (render id s) =
      if reservedWords.contains id then none else some (tree id s) := by
  change ((lex (render id s)).bind readModule) = _
  rw [lex_render]
  exact readModule_lexemes id s

def helperLexemes : List Lexeme :=
  [.fresh "" (.name "package"), .apart (.name "library")] ++
    dotted ["v1", "utils", "labels", "match", "v1"] ++
    [.fresh "\n\n" (.name "import"), .apart (.name "rego")] ++ dotted ["v1"] ++
    [.fresh "\n\n" (.name "all"), .glued (.symbol .parenOpen), .glued (.name "labels"), comma,
      .apart (.name "incl"), comma, .apart (.name "excl"), .glued (.symbol .parenClose),
      .apart (.name "if"), .apart (.symbol .braceOpen), .fresh "\n\t" (.name "true"),
      .fresh "\n" (.symbol .braceClose)]

/-- The module that stands in for the matching helper: a function of three operands that always
holds. -/
def helperTree : ModuleTree where
  package := ⟨"library", ["v1", "utils", "labels", "match", "v1"]⟩
  imports := [newerImport]
  strict := true
  rules :=
    [.rule (.function (.var "all") [.var "labels", .var "incl", .var "excl"] none)
      [⟨none, [.mk (.expr false (.scalar "true")) []]⟩]]

private theorem lex_helper : lex matchHelperFragment.2 = some helperLexemes := by
  decide +kernel

theorem parse?_helper : ModuleTree.parse? matchHelperFragment.2 = some helperTree := by
  change ((lex matchHelperFragment.2).bind readModule) = _
  rw [lex_helper]
  rfl

end Selectors

end PolicySync
