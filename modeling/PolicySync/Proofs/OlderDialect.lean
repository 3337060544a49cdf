import PolicySync.Proofs.Labels.RoundTrip
import PolicySync.Proofs.Selectors.RoundTrip

/-!
# Modules in the older dialect

A module without the import of the newer dialect is read with other keywords, and the rule for
members of a set has another head in it. What is written for labels and selectors, put into the
older dialect line by line, is read back as the same values.
-/

namespace PolicySync

open PolicySync.Policy PolicySync.Text

/-- A line of a module in the older dialect. The import of the newer one is left out, and the head
of the rule for members loses its keywords. -/
def olderLine? (line : List Char) : Option (List Char) :=
  if line = "import rego.v1".toList then none
  else if line = "systems contains system_id if \x7b".toList then
    some "systems[system_id] \x7b".toList
  else some line

def olderText (source : String) : String :=
  String.ofList (['\n'].intercalate ((source.toList.splitOn '\n').filterMap olderLine?))

/-- Whether the lines of a text become those of another in the older dialect. -/
def BecomesOlder (cs ds : List Char) : Prop :=
  (cs.splitOn '\n').filterMap olderLine? = ds.splitOn '\n'

namespace BecomesOlder

variable {cs ds l l' : List Char}

theorem nil : BecomesOlder [] [] := rfl

private theorem splitOn_line (hl : '\n' ∉ l) :
    (l ++ '\n' :: cs).splitOn '\n' = l :: cs.splitOn '\n' := by
  rw [List.splitOn_eq_splitOnP, List.splitOn_eq_splitOnP]
  refine List.splitOnP_append_cons_of_forall_mem (fun c hc => ?_) '\n' (by simp) cs
  simp only [beq_eq_false_iff_ne]
  rintro rfl
  exact hl hc

/-- A line in front that is changed. -/
theorem line (hl : '\n' ∉ l) (hl' : '\n' ∉ l') (holder : olderLine? l = some l')
    (h : BecomesOlder cs ds) : BecomesOlder (l ++ '\n' :: cs) (l' ++ '\n' :: ds) := by
  rw [BecomesOlder, splitOn_line hl, splitOn_line hl', List.filterMap_cons_some holder, h]

/-- A line in front that is left out. -/
theorem leftOut (hl : '\n' ∉ l) (holder : olderLine? l = none) (h : BecomesOlder cs ds) :
    BecomesOlder (l ++ '\n' :: cs) ds := by
  rw [BecomesOlder, splitOn_line hl, List.filterMap_cons_none holder, h]

end BecomesOlder

theorem olderText_toList {source : String} {ds : List Char}
    (h : BecomesOlder source.toList ds) : (olderText source).toList = ds := by
  rw [olderText, h, List.intercalate_splitOn, String.toList_ofList]

example : olderText "import rego.v1\n\nsystems contains system_id if \x7b\n    true\n\x7d\n" =
    "\nsystems[system_id] \x7b\n    true\n\x7d\n" := by
  decide +kernel

/-- Whether whole lines stay as they are in the older dialect, whatever comes after them. -/
def StaysOlder (lines : List Char) : Prop :=
  ∀ cs ds, BecomesOlder cs ds → BecomesOlder (lines ++ cs) (lines ++ ds)

namespace StaysOlder

theorem append {a b : List Char} (ha : StaysOlder a) (hb : StaysOlder b) : StaysOlder (a ++ b) := by
  intro cs ds h
  rw [List.append_assoc, List.append_assoc]
  exact ha _ _ (hb _ _ h)

theorem blank : StaysOlder ['\n'] := by
  intro cs ds h
  have hno : '\n' ∉ ([] : List Char) := List.not_mem_nil
  exact BecomesOlder.line hno hno rfl h

/-- The two lines that the older dialect has otherwise begin with `i` and with `s`. -/
theorem line {c : Char} {l : List Char} (hc : c ≠ '\n' ∧ c ≠ 'i' ∧ c ≠ 's') (hl : '\n' ∉ l) :
    StaysOlder (c :: (l ++ ['\n'])) := by
  have himport : c :: l ≠ "import rego.v1".toList := fun h => hc.2.1 (List.cons.inj h).1
  have hrule : c :: l ≠ "systems contains system_id if \x7b".toList :=
    fun h => hc.2.2 (List.cons.inj h).1
  have hsame : olderLine? (c :: l) = some (c :: l) := by
    rw [olderLine?, if_neg himport, if_neg hrule]
  have hno : '\n' ∉ c :: l := by
    rw [List.mem_cons, not_or]
    exact ⟨hc.1.symm, hl⟩
  intro cs ds h
  have hline := BecomesOlder.line hno hno hsame h
  simpa using hline

theorem join {α : Type} {text : α → String} (h : ∀ x, StaysOlder (text x).toList) (xs : List α) :
    StaysOlder (String.join (xs.map text)).toList := by
  induction xs with
  | nil =>
    intro cs ds hrest
    exact hrest
  | cons x xs ih =>
    rw [List.map_cons, String.join_cons, String.toList_append]
    exact (h x).append ih

end StaysOlder

namespace Labels

private theorem staysOlder_entry (e : String × String) : StaysOlder (renderEntry e).toList := by
  have hline : '\n' ∉ "   ".toList ++ ((Quoted.quote e.1).toList ++ (": ".toList ++
      ((Quoted.quote e.2).toList ++ ",".toList))) := by
    simp [Quoted.quote, Quoted.lineFeed_notMem_encodeChars]
  have hstays : StaysOlder (' ' :: (_ ++ ['\n'])) := StaysOlder.line (by decide) hline
  simpa [renderEntry] using hstays

/-- The labels in the older dialect: the line of the import is missing. -/
theorem olderText_render (id : String) (labels : Labels) :
    (olderText (render id labels)).toList =
      spelling (packageLine "metadata" id "labels" ++ (ruleHead "\n\n\n" ++ objectLexemes labels)) ++
        ['\n'] := by
  have hpackage : '\n' ∉ "package ".toList ++ (packagePath "metadata" id "labels").toList := by
    simp [lineFeed_notMem_packagePath]
  have hsame : olderLine? ("package ".toList ++ (packagePath "metadata" id "labels").toList) =
      some ("package ".toList ++ (packagePath "metadata" id "labels").toList) := rfl
  have hentries : StaysOlder (String.join (labels.entries.map renderEntry)).toList :=
    StaysOlder.join staysOlder_entry labels.entries
  have hbrace : StaysOlder ('}' :: ([] ++ ['\n'])) := StaysOlder.line (by decide) (by simp)
  have hrule : StaysOlder ('l' :: ("abels := \x7b".toList ++ ['\n'])) :=
    StaysOlder.line (by decide) (by decide)
  have hrest := (StaysOlder.blank.append (hrule.append (hentries.append hbrace))) _ _
    BecomesOlder.nil
  have himport := BecomesOlder.leftOut (l := "import rego.v1".toList) (by decide) rfl hrest
  have hall := BecomesOlder.line hpackage hpackage hsame (StaysOlder.blank _ _ himport)
  rw [spelling_append, List.append_assoc, spelling_rule, spelling_packageLine]
  refine olderText_toList ?_
  simpa [render] using hall

private theorem parse?_older {id : String} (hres : reservedWords.contains id = false)
    (labels : Labels) :
    ModuleTree.parse? (olderText (render id labels)) =
      some (ruleTree id false (literal labels)) := by
  have hlines : AreLines (ruleHead "\n\n\n" ++ objectLexemes labels) :=
    areLines_object labels (by constructor <;> decide)
  have hpackage : standBefore .newline (packageLine "metadata" id "labels") (some '\n') = true :=
    standBefore_packageLine (by decide) (by decide) (by decide)
  have hread : readModule (packageLine "metadata" id "labels" ++
      (importLine false ++ (ruleHead "\n\n\n" ++ objectLexemes labels))) = _ :=
    readModule_rule false (readsTerm_object .initial labels)
  rw [if_neg (by simpa using hres)] at hread
  change ((lex (olderText (render id labels))).bind readModule) = _
  rw [lex_lines (List.cons_ne_nil _ _) (olderText_render id labels) hpackage hlines]
  exact hread

/-- Labels are read back from their module in the older dialect. -/
theorem decode_older {id : String} (h : IsResourceName id) (labels : Labels) :
    decode id (olderText (render id labels)) = .ok labels := by
  have hparse := parse?_older h.unreserved labels
  rw [decode_rule false hparse h.unreserved (literal_inert labels) (literal_evaluates labels) rfl,
    if_pos h.plain, ofRow_value, SortedMap.ofList_entries]

end Labels

namespace Selector

private theorem staysOlder_member (value : String) : StaysOlder (renderMember value).toList := by
  have hline : '\n' ∉ "           ".toList ++ ((Quoted.quote value).toList ++ ",".toList) := by
    simp [Quoted.quote, Quoted.lineFeed_notMem_encodeChars]
  have hstays : StaysOlder (' ' :: (_ ++ ['\n'])) := StaysOlder.line (by decide) hline
  simpa [renderMember] using hstays

private theorem staysOlder_entry (e : String × List String) :
    StaysOlder (renderEntry e).toList := by
  rw [renderEntry]
  split
  · have hline : '\n' ∉ "       ".toList ++ ((Quoted.quote e.1).toList ++ ": set(),".toList) := by
      simp [Quoted.quote, Quoted.lineFeed_notMem_encodeChars]
    have hstays : StaysOlder (' ' :: (_ ++ ['\n'])) := StaysOlder.line (by decide) hline
    simpa using hstays
  · have hline : '\n' ∉ "       ".toList ++ ((Quoted.quote e.1).toList ++ ": \x7b".toList) := by
      simp [Quoted.quote, Quoted.lineFeed_notMem_encodeChars]
    have hopen : StaysOlder (' ' :: (_ ++ ['\n'])) := StaysOlder.line (by decide) hline
    have hclose : StaysOlder (' ' :: ("       \x7d,".toList ++ ['\n'])) :=
      StaysOlder.line (by decide) (by decide)
    have hall := hopen.append ((StaysOlder.join staysOlder_member e.2).append hclose)
    simpa using hall

private theorem staysOlder_binding {name : String} (hname : '\n' ∉ name.toList) (s : Selector) :
    StaysOlder (renderBinding name s).toList := by
  have hline : '\n' ∉ "   ".toList ++ (name.toList ++ " := \x7b".toList) := by
    simp [hname]
  have hopen : StaysOlder (' ' :: (_ ++ ['\n'])) := StaysOlder.line (by decide) hline
  have hclose : StaysOlder (' ' :: ("   \x7d".toList ++ ['\n'])) :=
    StaysOlder.line (by decide) (by decide)
  have hall := hopen.append ((StaysOlder.join staysOlder_entry s.entries).append hclose)
  simpa [renderBinding] using hall

end Selector

namespace Selectors

/-- The rule up to its body. -/
def olderRuleLexemes : List Lexeme :=
  [.fresh "\n\n" (.name rule), .glued (.symbol .bracketOpen), .glued (.name "system_id"),
    .glued (.symbol .bracketClose), .apart (.symbol .braceOpen)]

/-- The imports, and the rule up to its body. -/
def olderHeadLexemes : List Lexeme :=
  [.fresh "\n\n" (.name "import"), .apart (.name "data")] ++
    dotted ["library", "v1", "utils", "labels", "match", "v1"] ++
    [.apart (.name "as"), .apart (.name "match")] ++ olderRuleLexemes

private theorem staysOlder_body (s : Selectors) : StaysOlder (bodyText s).toList := by
  have hmetadata : StaysOlder (' ' :: ("   metadata := data.metadata[system_id]".toList ++ ['\n'])) :=
    StaysOlder.line (by decide) (by decide)
  have hmatch : StaysOlder
      (' ' :: ("   match.all(metadata.labels.labels, include, exclude)".toList ++ ['\n'])) :=
    StaysOlder.line (by decide) (by decide)
  have hbrace : StaysOlder ('}' :: ([] ++ ['\n'])) := StaysOlder.line (by decide) (by simp)
  have hincl : StaysOlder (s.incl.renderBinding "include").toList :=
    Selector.staysOlder_binding (by decide) s.incl
  have hexcl : StaysOlder (s.excl.renderBinding "exclude").toList :=
    Selector.staysOlder_binding (by decide) s.excl
  have hall := (hincl.append StaysOlder.blank).append ((hexcl.append StaysOlder.blank).append
    (hmetadata.append (hmatch.append hbrace)))
  simpa [bodyText] using hall

private theorem spelling_olderHead : "\n\nimport ".toList ++ (matchHelper.toList ++
    (" as match\n\n".toList ++ "systems[system_id] \x7b".toList)) = spelling olderHeadLexemes := by
  rfl

/-- The selectors in the older dialect: the line of the import is missing, and the head of the rule
is another. -/
theorem olderText_render (id : String) (s : Selectors) :
    (olderText (render id s)).toList =
      spelling (packageLine "stacks" id "selectors" ++ (olderHeadLexemes ++ bodyLexemes s)) ++
        ['\n'] := by
  have hpackage : '\n' ∉ "package ".toList ++ (packagePath "stacks" id "selectors").toList := by
    simp [lineFeed_notMem_packagePath]
  have hsame : olderLine? ("package ".toList ++ (packagePath "stacks" id "selectors").toList) =
      some ("package ".toList ++ (packagePath "stacks" id "selectors").toList) := rfl
  have hbody := staysOlder_body s _ _ BecomesOlder.nil
  have hrule : BecomesOlder ("systems contains system_id if \x7b".toList ++ '\n' :: _)
      ("systems[system_id] \x7b".toList ++ '\n' :: _) :=
    BecomesOlder.line (by decide) (by decide) rfl hbody
  have himport := BecomesOlder.leftOut (l := "import rego.v1".toList) (by decide) rfl
    (StaysOlder.blank _ _ hrule)
  have hmatch := BecomesOlder.line
    (l := "import ".toList ++ (matchHelper.toList ++ " as match".toList)) (by decide) (by decide)
    rfl himport
  have hall := BecomesOlder.line hpackage hpackage hsame (StaysOlder.blank _ _ hmatch)
  rw [spelling_append, spelling_packageLine, spelling_append, List.append_assoc, List.append_assoc,
    List.append_assoc, ← spelling_body, ← spelling_olderHead]
  refine olderText_toList ?_
  simpa [render_eq, rule] using hall

private theorem readBlock_body (s : Selectors) :
    readBlock .initial (.apart (.symbol .braceOpen) :: bodyLexemes s) = some (body s, []) := by
  have htail : (tailLexemes).length = 23 := rfl
  have hlength : (bodyLexemes s).length =
      (s.incl.bindingLexemes "\n    " "include").length +
        (s.excl.bindingLexemes "\n\n    " "exclude" ++ tailLexemes).length := by
    rw [bodyLexemes, List.length_append]
  have hstmt : readStmt .initial (10 * (bodyLexemes s).length + 8) (bodyLexemes s) = _ :=
    readStmt_body false s (by omega)
  have hmore : readMoreStmts .initial (10 * (bodyLexemes s).length + 8) (.symbol .braceClose)
      (s.excl.bindingLexemes "\n\n    " "exclude" ++ tailLexemes) = _ :=
    readMoreStmts_body false (by omega)
  have hstmts : readStmts .initial (10 * (bodyLexemes s).length + 9) (.symbol .braceClose)
      (bodyLexemes s) = some (body s, []) := by
    change ((readStmt .initial _ (bodyLexemes s)).bind _) = _
    rw [hstmt]
    change ((readMoreStmts .initial _ _ _).bind _) = _
    rw [hmore]
    rfl
  change ((readStmts .initial (10 * (bodyLexemes s).length + 9) _ (bodyLexemes s)).bind _) = _
  rw [hstmts]
  rfl

/-- In the older dialect a name with a key in brackets before a body is a rule for members. -/
private theorem readRule_older (s : Selectors) :
    readRule .initial (olderRuleLexemes ++ bodyLexemes s) =
      some (.rule (.set (.var rule) (.var "system_id")) [⟨none, body s⟩], []) := by
  have hhead : readHead .initial (olderRuleLexemes ++ bodyLexemes s) =
      some (.set (.var rule) (.var "system_id"),
        .apart (.symbol .braceOpen) :: bodyLexemes s) := rfl
  have hbody : readBody .initial (.apart (.symbol .braceOpen) :: bodyLexemes s) =
      some (some (body s), []) := by
    change (readBlock .initial (.apart (.symbol .braceOpen) :: bodyLexemes s)).map _ = _
    rw [readBlock_body]
    rfl
  have hdefault : expectWord "default" (olderRuleLexemes ++ bodyLexemes s) = none := rfl
  unfold readRule
  rw [hdefault, hhead]
  change (((readBody .initial _).bind _).bind _) = _
  rw [hbody]
  rfl

private theorem parse?_older {id : String} (hres : reservedWords.contains id = false)
    (s : Selectors) :
    ModuleTree.parse? (olderText (render id s)) = some (dialectTree false id s) := by
  have hhead : AreLines olderHeadLexemes := by constructor <;> decide
  have hpackage : standBefore .newline (packageLine "stacks" id "selectors") (some '\n') = true :=
    standBefore_packageLine (by decide) (by decide) (by decide)
  change ((lex (olderText (render id s))).bind readModule) = _
  rw [lex_lines (List.cons_ne_nil _ _) (olderText_render id s) hpackage
    (hhead.append (areLines_body s))]
  change ((readSegmentPath (.apart (.name "stacks") :: (pathLexemes id "selectors" ++
    .fresh "\n\n" (.name "import") :: (olderHeadLexemes.tail ++ bodyLexemes s)))).bind _) = _
  rw [readSegmentPath_packageLine (by decide) (by decide), if_neg (by simpa using hres)]
  change (((readRule .initial (olderRuleLexemes ++ bodyLexemes s)).bind _).bind _) = _
  rw [readRule_older]
  rfl

/-- Selectors are read back from their module in the older dialect. -/
theorem decode_older {id : String} (h : IsResourceName id) (s : Selectors) :
    decode (olderText (render id s)) = .ok s :=
  decode_dialect false (parse?_older h.unreserved s)

end Selectors

/-- What is written for labels and for selectors decodes to the same values in both dialects: to
those that were written. -/
theorem decode_olderText {id : String} (h : IsResourceName id) (labels : Labels) (s : Selectors) :
    (Labels.decode id (olderText (Labels.render id labels)) = .ok labels ∧
        Labels.decode id (Labels.render id labels) = .ok labels) ∧
      Selectors.decode (olderText (Selectors.render id s)) = .ok s ∧
        Selectors.decode (Selectors.render id s) = .ok s := by
  have hlabels : Labels.decode id (Labels.render id labels) = .ok labels := by
    rw [Labels.decode_render, h.unreserved, if_neg Bool.false_ne_true, if_pos h.plain]
  have hselectors : Selectors.decode (Selectors.render id s) = .ok s := by
    rw [Selectors.decode_render, h.unreserved, if_neg Bool.false_ne_true]
  exact ⟨⟨Labels.decode_older h labels, hlabels⟩, Selectors.decode_older h s, hselectors⟩

theorem decode_olderText_web :
    IsResourceName "web-1.a" ∧
      Labels.decode "web-1.a" (olderText (Labels.render "web-1.a"
        (.ofList [("", "import rego.v1"), ("\n", "\nimport rego.v1\n")]))) =
          .ok (.ofList [("", "import rego.v1"), ("\n", "\nimport rego.v1\n")]) ∧
      Selectors.decode (olderText (Selectors.render "web-1.a"
        ⟨.ofList [("a", ["x", "\"", "x"]), ("b", [])], .ofList [("if", [])]⟩)) =
          .ok ⟨.ofList [("a", ["x", "\"", "x"]), ("b", [])], .ofList [("if", [])]⟩ := by
  have hname : IsResourceName "web-1.a" := by decide
  have hboth := decode_olderText hname
    (.ofList [("", "import rego.v1"), ("\n", "\nimport rego.v1\n")])
    ⟨.ofList [("a", ["x", "\"", "x"]), ("b", [])], .ofList [("if", [])]⟩
  exact ⟨hname, hboth.1.1, hboth.2.1⟩

end PolicySync
