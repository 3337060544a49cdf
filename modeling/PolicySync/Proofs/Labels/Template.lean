import PolicySync.Proofs.Labels.Rule
import PolicySync.Proofs.Policy.Grammar.Separated

/-!
# The module that holds labels

The text that is written for labels is read as a module with one rule and no body, whose value is
an object of the labels, whatever texts the id and the labels are.
-/

namespace PolicySync

open PolicySync.Policy PolicySync.Text

namespace Labels

def entryLexemes (e : String × String) : List Lexeme :=
  [.fresh "\n    " (quotedToken e.1), colon, .apart (quotedToken e.2), comma]

/-- The lexemes of the object that holds the entries, its first brace apart. -/
def objectLexemes (labels : Labels) : List Lexeme :=
  .apart (.symbol .braceOpen) ::
    (labels.entries.flatMap entryLexemes ++ [.fresh "\n" (.symbol .braceClose)])

def importLexemes : List Lexeme :=
  [.fresh "\n\n" (.name "import"), .apart (.name "rego"), .glued (.symbol .dot),
    .glued (.name "v1"), .fresh "\n\n" (.name "labels"), .apart (.symbol .declare)]

def literal (labels : Labels) : Expr :=
  .object (labels.entries.map fun e => (quotedExpr e.1, quotedExpr e.2))

def tree (id : String) (labels : Labels) : ModuleTree where
  package := ⟨"metadata", [Quoted.escape id, "labels"]⟩
  imports := [newerImport]
  strict := true
  rules := [.rule (.complete (.var "labels") (some (literal labels))) []]

private theorem renderEntry_toList (e : String × String) :
    '\n' :: (renderEntry e).toList = spelling (entryLexemes e) ++ ['\n'] := by
  simp [renderEntry, entryLexemes, quotedToken, colon, comma, Lexeme.fresh, Lexeme.apart,
    Lexeme.glued, Token.written, Symbol.text, Quoted.quote]

theorem spelling_rule (before : String) (labels : Labels) :
    spelling (ruleHead before ++ objectLexemes labels) ++ ['\n'] =
      before.toList ++ ("labels := \x7b\n".toList ++
        ((String.join (labels.entries.map renderEntry)).toList ++ "\x7d\n".toList)) := by
  have hentries := lineFeed_join renderEntry_toList labels.entries
  have happend := congrArg (· ++ ['}', '\n']) hentries
  simp only [List.cons_append, List.append_assoc] at happend
  simpa [ruleHead, objectLexemes, Lexeme.fresh, Lexeme.apart, Lexeme.glued, Token.written,
    Symbol.text] using happend.symm

theorem render_toList (id : String) (labels : Labels) :
    (render id labels).toList =
      spelling (packageLine "metadata" id "labels" ++ (importLexemes ++ objectLexemes labels)) ++
        ['\n'] := by
  have himport : importLexemes ++ objectLexemes labels =
      importLine true ++ (ruleHead "\n\n" ++ objectLexemes labels) := rfl
  have hspelling : spelling (importLine true) = "\n\nimport rego.v1".toList := rfl
  rw [himport, spelling_append, spelling_packageLine, spelling_append, hspelling]
  simp only [List.append_assoc]
  rw [spelling_rule]
  simp [render]

private theorem areLines_entry (e : String × String) : AreLines (entryLexemes e) := by
  constructor
  · simp [entryLexemes, standBefore, quotedToken, colon, comma, Lexeme.fresh, Lexeme.apart,
      Lexeme.glued, Token.standsBefore, Token.written, gapAcross, Gap.addBlank, Symbol.text,
      Symbol.ofPair?]
  · simp [entryLexemes, Lexeme.fresh]

/-- Lines that end with the first brace of the labels, and the labels after them. -/
theorem areLines_object {head : List Lexeme} (labels : Labels)
    (h : AreLines (head ++ [.apart (.symbol .braceOpen)])) :
    AreLines (head ++ objectLexemes labels) := by
  have hentries : AreLines (labels.entries.flatMap entryLexemes) :=
    AreLines.flatMap fun e _ => areLines_entry e
  have hclose : AreLines [.fresh "\n" (.symbol .braceClose)] := by constructor <;> decide
  simpa [objectLexemes] using h.append (hentries.append hclose)

theorem lex_render (id : String) (labels : Labels) :
    lex (render id labels) =
      some (packageLine "metadata" id "labels" ++ (importLexemes ++ objectLexemes labels)) := by
  have hlines : AreLines (importLexemes ++ objectLexemes labels) :=
    areLines_object labels (by constructor <;> decide)
  refine lex_lines (List.cons_ne_nil _ _) (render_toList id labels) ?_ hlines
  exact standBefore_packageLine (by decide) (by decide) (by decide)

theorem readsTerm_object (k : Keywords) (labels : Labels) :
    ReadsTerm k (objectLexemes labels) (literal labels) := by
  have hquoted (v : String) : ReadsTokens k [quotedToken v] (quotedExpr v) := ReadsTokens.text _ v
  refine ReadsTokens.listedObject (fun e _ => ⟨hquoted e.1, hquoted e.2⟩) _ ?_
  simp [objectLexemes, entryLexemes, colon, comma, Lexeme.apart, Lexeme.fresh, Lexeme.glued,
    List.map_flatMap]

/-- The text that is written for labels is read as the module meant, for every id and all labels;
an id that is a reserved word makes it no module. -/
theorem parse?_render (id : String) (labels : Labels) :
    ModuleTree.parse? (render id labels) =
      if reservedWords.contains id then none else some (tree id labels) := by
  change ((lex (render id labels)).bind readModule) = _
  rw [lex_render]
  exact readModule_rule true (readsTerm_object newerKeywords labels)

end Labels

end PolicySync
