import PolicySync.Proofs.Json.ReadBack
import PolicySync.Proofs.Selectors.Content

/-!
# Selectors written by hand

A selectors rule may bind its groups in either order, to objects with entries of any shape. Its
module decodes to the sets under texts; no other entry makes it fail or changes what is kept.
-/

namespace PolicySync.Selectors

open PolicySync.Json (Between Written WrittenItems)
open PolicySync.Policy PolicySync.Text

/-- The lines that bind a group. -/
def groupText (name text : String) : String := "    " ++ name ++ " := " ++ text ++ "\n"

namespace Ending

/-- The lines of the body after the groups, and the brace. -/
def text : Ending → String
  | .bare => "\x7d\n"
  | .named system => "    system_id := " ++ Quoted.quote system ++ "\n\x7d\n"
  | .matched =>
    "    metadata := data.metadata[system_id]\n" ++
      "    match.all(metadata.labels.labels, include, exclude)\n\x7d\n"

/-- The line that imports the helper, where it is called. -/
def importText : Ending → String
  | .matched => "import " ++ matchHelper ++ " as match\n"
  | _ => ""

/-- What stands before the first token after the groups. -/
def lead : Ending → String
  | .bare => "\n"
  | _ => "\n    "

end Ending

/-- A module with one selectors rule whose groups are written out, in either order. -/
def handWritten (id : String) (ending : Ending) (inclFirst : Bool) (incl excl : String) : String :=
  "package " ++ packagePath "stacks" id "selectors" ++ "\n\n" ++ ending.importText ++
    "import rego.v1\n\n" ++ rule ++ " contains system_id if \x7b\n" ++
    (if inclFirst then groupText "include" incl ++ groupText "exclude" excl
      else groupText "exclude" excl ++ groupText "include" incl) ++ ending.text

section

variable {id first second t₁ t₂ : String} {ending : Ending} {ts₁ ts₂ : List Token}

private def groupHead (name : String) : List Lexeme :=
  [.fresh "\n    " (.name name), .apart (.symbol .declare)]

private theorem spelling_groupHead (name : String) (text : List Char) :
    spelling (groupHead name) ++ ' ' :: text =
      '\n' :: (("    " ++ name ++ " := ").toList ++ text) := by
  simp [groupHead, Lexeme.fresh, Lexeme.apart, Token.written, Symbol.text]

private theorem spelling_ending (ending : Ending) :
    spelling (ending.lexemes ending.lead) ++ ['\n'] = '\n' :: ending.text.toList := by
  cases ending with
  | bare => rfl
  | named system =>
    change spelling [.fresh "\n    " (.name "system_id"), .apart (.symbol .declare),
      .apart (quotedToken system), .fresh "\n" (.symbol .braceClose)] ++ ['\n'] =
        '\n' :: ("    system_id := " ++ Quoted.quote system ++ "\n\x7d\n").toList
    simp [quotedToken, Lexeme.fresh, Lexeme.apart, Token.written, Symbol.text, Quoted.quote]
  | matched =>
    change _ = '\n' :: (_ ++ _ : String).toList
    rw [String.toList_append]
    rfl

private theorem spelling_head (ending : Ending) :
    spelling ending.headLexemes = "\n\n".toList ++ (ending.importText.toList ++
      ("import rego.v1\n\n".toList ++ (rule.toList ++ " contains system_id if \x7b".toList))) := by
  cases ending with
  | matched =>
    rw [Ending.importText, String.toList_append, String.toList_append]
    rfl
  | _ => rfl

/-- The package line, the imports and the rule up to its body. -/
private def frontLexemes (id : String) (ending : Ending) : List Lexeme :=
  packageLine "stacks" id "selectors" ++ ending.headLexemes

private theorem standBefore_front (id : String) (ending : Ending) :
    standBefore .newline (frontLexemes id ending) (some '\n') = true := by
  have hpackage : packageLine "stacks" id "selectors" ≠ [] := List.cons_ne_nil _ _
  have hhead : (spelling ending.headLexemes).head?.or (some '\n') = some '\n' := by
    cases ending <;> rfl
  rw [frontLexemes, standBefore_append hpackage, Bool.and_eq_true, hhead]
  refine ⟨standBefore_packageLine (by decide) (by decide) (by decide), ?_⟩
  cases ending <;> rfl

/-- The text of a module, its groups in the order in which they are bound. -/
private def orderedText (id : String) (ending : Ending) (first second : String)
    (cs₁ cs₂ : List Char) : List Char :=
  spelling (frontLexemes id ending) ++ (spelling (groupHead first) ++ ' ' :: (cs₁ ++
    (spelling (groupHead second) ++ ' ' :: (cs₂ ++ (spelling (ending.lexemes ending.lead) ++
      ['\n'])))))

private theorem orderedText_eq (id : String) (ending : Ending) (first second : String)
    (t₁ t₂ : String) :
    orderedText id ending first second t₁.toList t₂.toList =
      ("package " ++ packagePath "stacks" id "selectors" ++ "\n\n" ++ ending.importText ++
        "import rego.v1\n\n" ++ rule ++ " contains system_id if \x7b\n" ++
        (groupText first t₁ ++ groupText second t₂) ++ ending.text).toList := by
  have hline : " contains system_id if \x7b\n".toList =
      " contains system_id if \x7b".toList ++ ['\n'] := rfl
  rw [orderedText, frontLexemes, spelling_append, spelling_packageLine, spelling_head,
    spelling_ending, spelling_groupHead, spelling_groupHead, groupText, groupText]
  simp only [String.toList_append, List.append_assoc, hline, List.cons_append,
    -String.reduceToList]
  rfl

private theorem lexes_group {name : String} {cs rest : List Char} {ts : List Token}
    (hname : name = "include" ∨ name = "exclude") (hcs : IsTextOf cs ts)
    (hrest : endsWord rest = true) (g : Gap) (before : List Char) :
    ∃ front vs g' before', vs.map Lexeme.token = ts ∧ ∀ after, Lexes g' before' rest after →
      Lexes g before (spelling (groupHead name) ++ ' ' :: (cs ++ rest))
        (groupLexemes front name vs ++ after) := by
  have htext : IsTextOf (' ' :: (cs ++ [])) ts := hcs.padded (.space .nil) .nil
  rw [List.append_nil] at htext
  obtain ⟨vs, g', before', hvs, hlexes⟩ := htext rest hrest .adjacent []
  refine ⟨String.ofList before ++ "\n    ", vs, g', before', hvs, fun after h => ?_⟩
  have htail : Lexes .adjacent [] (spelling [.apart (.symbol .declare)] ++ ' ' :: (cs ++ rest))
      ([.apart (.symbol .declare)] ++ (vs ++ after)) :=
    Lexes.spelling_append rfl (hlexes after h)
  have hstand : standBefore g (groupHead name) (some ' ') = true := by
    rcases hname with rfl | rfl
    all_goals cases g <;> rfl
  exact Lexes.cons_append hstand htail

private theorem lexes_ending (ending : Ending) (g : Gap) (before : List Char) :
    ∃ front, Lexes g before (spelling (ending.lexemes ending.lead) ++ ['\n'])
      (ending.lexemes front) := by
  have hothers : standBefore .adjacent ending.others (some '\n') = true := by
    cases ending with
    | bare => rfl
    | named system =>
      simp [Ending.others, standBefore, quotedToken, Lexeme.fresh, Lexeme.apart, gapAcross,
        Gap.addBlank, Token.standsBefore, Symbol.text, Symbol.ofPair?, Quoted.escape]
    | matched => rfl
  have hstand : standBefore g (ending.lexemes ending.lead) (some '\n') = true := by
    rw [Ending.lexemes, standBefore, hothers, Bool.and_true]
    cases ending with
    | bare => cases g <;> rfl
    | named system =>
      -- the name of the system is open, but a blank stands between it and the first token
      have hhead : (spelling (Ending.named system).others).head? = some ' ' := by
        simp [Ending.others, Lexeme.apart]
      have hlead : (Ending.named system).lead = "\n    " := rfl
      have hfirst : (Ending.named system).first = .name "system_id" := rfl
      rw [hhead, hlead, hfirst]
      cases g <;> rfl
    | matched => cases g <;> rfl
  have htail : Lexes .adjacent [] (spelling ending.others ++ ['\n']) (ending.others ++ []) := by
    rw [List.append_nil]
    exact Lexes.spelling hothers rfl
  have hall : Lexes g before (spelling (ending.lexemes ending.lead) ++ ['\n'])
      (ending.lexemes (String.ofList before ++ ending.lead) ++ []) :=
    Lexes.cons_append hstand htail
  rw [List.append_nil] at hall
  exact ⟨_, hall⟩

private theorem parse?_ordered {source : String} {cs₁ cs₂ : List Char} {e₁ e₂ : Expr}
    (hgroups : AreGroups first second) (hres : reservedWords.contains id = false)
    (hts₁ : IsTextOf cs₁ ts₁) (h₁ : ReadsTokens newerKeywords ts₁ e₁)
    (hts₂ : IsTextOf cs₂ ts₂) (h₂ : ReadsTokens newerKeywords ts₂ e₂)
    (hsource : source.toList = orderedText id ending first second cs₁ cs₂) :
    ModuleTree.parse? source = some (ruleTree id ending first second e₁ e₂) := by
  have hrest₁ : endsWord (spelling (groupHead second) ++ ' ' :: (cs₂ ++
      (spelling (ending.lexemes ending.lead) ++ ['\n']))) = true := by
    rw [spelling_groupHead]
    rfl
  have hrest₂ : endsWord (spelling (ending.lexemes ending.lead) ++ ['\n']) = true := by
    rw [spelling_ending]
    rfl
  obtain ⟨front₁, vs₁, g₁, before₁, hvs₁, hlexes₁⟩ :=
    lexes_group hgroups.first_eq hts₁ hrest₁ .adjacent []
  obtain ⟨front₂, vs₂, g₂, before₂, hvs₂, hlexes₂⟩ := lexes_group hgroups.second_eq hts₂
    hrest₂ g₁ before₁
  obtain ⟨front₃, hlexes₃⟩ := lexes_ending ending g₂ before₂
  have hbody := hlexes₁ _ (hlexes₂ _ hlexes₃)
  have hlex : lex source = some (frontLexemes id ending ++ (groupLexemes front₁ first vs₁ ++
      (groupLexemes front₂ second vs₂ ++ ending.lexemes front₃))) := by
    have hfront := standBefore_front id ending
    rw [lex, hsource]
    refine Lexes.spelling_append ?_ ?_ _ (Nat.lt_succ_self _)
    · rw [spelling_groupHead]
      exact hfront
    · exact hbody
  change (lex source).bind readModule = _
  rw [hlex, frontLexemes, List.append_assoc]
  exact readModule_groups hgroups hres (h₁ vs₁ hvs₁) (h₂ vs₂ hvs₂)

end

/-- The selectors in a module written by hand are the sets under texts, each with its texts in order
and with duplicates. Every other entry of a group and every other member of a set is left out, and
none makes the module fail or changes what is kept of the others. -/
theorem decode_keeps_sets {id inclText exclText : String} {incl excl : List (Json × Content)}
    (ending : Ending) (inclFirst : Bool) (hid : reservedWords.contains id = false)
    (hincl : (incl.map (·.1)).Nodup) (hexcl : (excl.map (·.1)).Nodup)
    (hinclText : Content.SpellsGroup incl inclText.toList)
    (hexclText : Content.SpellsGroup excl exclText.toList) :
    ∃ s, decode (handWritten id ending inclFirst inclText exclText) = .ok s ∧
      (∀ key values, s.incl.get? key = some values ↔ ∃ members,
        (.string key, .set members) ∈ incl ∧ values = members.filterMap Json.string?) ∧
      ∀ key values, s.excl.get? key = some values ↔ ∃ members,
        (.string key, .set members) ∈ excl ∧ values = members.filterMap Json.string? := by
  obtain ⟨ts₁, _, hts₁, h₁, fs₁, rfl, hfs₁⟩ := (hinclText.denotes (k := newerKeywords)).reads
  obtain ⟨ts₂, _, hts₂, h₂, fs₂, rfl, hfs₂⟩ := (hexclText.denotes (k := newerKeywords)).reads
  refine ⟨⟨.ofFields (fieldsOfExprs fs₁), .ofFields (fieldsOfExprs fs₂)⟩, ?_, ?_, ?_⟩
  · cases inclFirst with
    | true =>
      have hgroups : AreGroups "include" "exclude" := .inl ⟨rfl, rfl⟩
      have hparse := parse?_ordered hgroups hid hts₁ h₁ hts₂ h₂
        (orderedText_eq id ending "include" "exclude" inclText exclText).symm
      exact decode_groups hgroups (Content.inert_group hfs₁) (Content.inert_group hfs₂) hparse
    | false =>
      have hgroups : AreGroups "exclude" "include" := .inr ⟨rfl, rfl⟩
      have hparse := parse?_ordered hgroups hid hts₂ h₂ hts₁ h₁
        (orderedText_eq id ending "exclude" "include" exclText inclText).symm
      exact decode_groups hgroups (Content.inert_group hfs₂) (Content.inert_group hfs₁) hparse
  · rw [Content.ofFields_group hfs₁]
    exact Content.get?_ofList_kept hincl
  · rw [Content.ofFields_group hfs₂]
    exact Content.get?_ofList_kept hexcl

private theorem spellsGroup_of_eq {entries : List (Json × Content)} {cs cs' : List Char}
    (h : Content.SpellsGroup entries cs) (heq : cs' = cs) : Content.SpellsGroup entries cs' := by
  rw [heq]
  exact h

theorem decode_keeps_sets_mixed :
    let incl : List (Json × Content) :=
      [(.string "team", .set [.string "b", .array [.object []], .string "b"]),
        (.null, .set [.string "x"]), (.string "none", .set []), (.string "off", .json (.object []))]
    let excl : List (Json × Content) := [(.string "zone", .set [.string "z"])]
    let inclText := "\x7b\"team\": \x7b\"b\", [\x7b\x7d], \"b\"\x7d, null: \x7b\"x\"\x7d, " ++
      "\"none\": set(), \"off\": \x7b\x7d\x7d"
    let exclText := "\x7b\"zone\": \x7b\"z\",\x7d,\n\x7d"
    reservedWords.contains "web" = false ∧ (incl.map (·.1)).Nodup ∧ (excl.map (·.1)).Nodup ∧
      Content.SpellsGroup incl inclText.toList ∧ Content.SpellsGroup excl exclText.toList ∧
      ∃ s, decode (handWritten "web" .matched false inclText exclText) = .ok s ∧
        (∀ key values, s.incl.get? key = some values ↔ ∃ members,
          (.string key, .set members) ∈ incl ∧ values = members.filterMap Json.string?) ∧
        ∀ key values, s.excl.get? key = some values ↔ ∃ members,
          (.string key, .set members) ∈ excl ∧ values = members.filterMap Json.string? := by
  intro incl excl inclText exclText
  have hid : reservedWords.contains "web" = false := by decide
  have hincl : (incl.map (·.1)).Nodup := by simp [incl]
  have hexcl : (excl.map (·.1)).Nodup := by simp [excl]
  have written {j : Json} (h : j.isWhole = true) : Written IsBlank j j.text.toList :=
    Json.written_text .nil j h
  have bare {p : List Char → Prop} {cs : List Char} (h : p cs) : Between IsBlank p cs :=
    Between.bare .nil h
  have spaced {p : List Char → Prop} {cs : List Char} (h : p cs) : Between IsBlank p (' ' :: cs) :=
    ⟨[' '], cs, [], .space .nil, h, .nil, by simp⟩
  have noItems : WrittenItems IsBlank [] [] := by rw [WrittenItems]
  have item {x : Json} {xs : List Json} {shown more : List Char}
      (hshown : Between IsBlank (Written IsBlank x) shown) (hmore : WrittenItems IsBlank xs more) :
      WrittenItems IsBlank (x :: xs) (',' :: (shown ++ more)) := by
    rw [WrittenItems]
    exact ⟨shown, more, hshown, hmore, rfl⟩
  have hinclText : Content.SpellsGroup incl inclText.toList := by
    have hmembers := item (spaced (written (j := .array [.object []]) rfl))
      (item (spaced (written (j := .string "b") rfl)) noItems)
    have hteam := Content.Spells.set (bare (written (j := .string "b") rfl)) hmembers .nothing
    have hnull := Content.Spells.set (bare (written (j := .string "x") rfl)) noItems .nothing
    have hoff := Content.Spells.json (written (j := .object []) rfl)
    have hgroup := Content.SpellsGroup.entries (bare (written (j := .string "team") rfl))
      (spaced hteam) (.cons (spaced (written (j := .null) rfl)) (spaced hnull)
        (.cons (spaced (written (j := .string "none") rfl)) (spaced .emptySet)
          (.cons (spaced (written (j := .string "off") rfl)) (spaced hoff) (.last .nothing))))
    exact spellsGroup_of_eq hgroup (by decide +kernel)
  have hexclText : Content.SpellsGroup excl exclText.toList := by
    have hzone := Content.Spells.set (bare (written (j := .string "z") rfl)) noItems (.comma .nil)
    have hgroup := Content.SpellsGroup.entries (bare (written (j := .string "zone") rfl))
      (spaced hzone) (.last (.comma (.lineFeed .nil)))
    exact spellsGroup_of_eq hgroup (by decide +kernel)
  exact ⟨hid, hincl, hexcl, hinclText, hexclText,
    decode_keeps_sets .matched false hid hincl hexcl hinclText hexclText⟩

private theorem decode_unread {id inclText exclText : String} {ending : Ending}
    {cs₁ cs₂ : List Char} {n : Nat} (hincl : inclText.toList = cs₁) (hexcl : exclText.toList = cs₂)
    (hlength : (orderedText id ending "include" "exclude" cs₁ cs₂).length = n)
    (h : lexFrom (n + 1) .newline [] (orderedText id ending "include" "exclude" cs₁ cs₂) = none) :
    decode (handWritten id ending true inclText exclText) = .error (.malformed fragment) := by
  have hsource : (handWritten id ending true inclText exclText).toList = _ :=
    (orderedText_eq id ending "include" "exclude" inclText exclText).symm
  have hlex : lex (handWritten id ending true inclText exclText) = none := by
    rw [lex, hsource, hincl, hexcl, hlength]
    exact h
  have hparse : ModuleTree.parse? (handWritten id ending true inclText exclText) = none := by
    rw [ModuleTree.parse?, hlex]
    rfl
  rw [decode, compile_of_unread (readFragments_malformed hparse)]
  rfl

/-- An integer that no double comes near is no literal. -/
theorem decode_integer_beyond_doubles :
    let digits := Nat.toDigits 10 (Nat.pow 10 309)
    (Decimal.ofNat (Nat.pow 10 309)).Spells digits ∧
      decode (handWritten "web" .bare true
        ("\x7b\"k\": \x7b\"v\"\x7d, \"n\": " ++ String.ofList digits ++ "\x7d") "\x7b\x7d") =
          .error (.malformed "selector.rego") := by
  intro digits
  have hincl : ("\x7b\"k\": \x7b\"v\"\x7d, \"n\": " ++ String.ofList digits ++ "\x7d").toList =
      "\x7b\"k\": \x7b\"v\"\x7d, \"n\": ".toList ++ digits ++ "\x7d".toList := by
    rw [String.toList_append, String.toList_append, String.toList_ofList (l := digits)]
  have hlength : (orderedText "web" .bare "include" "exclude"
      ("\x7b\"k\": \x7b\"v\"\x7d, \"n\": ".toList ++ digits ++ "\x7d".toList)
        "\x7b\x7d".toList).length = 443 := by
    simp only [orderedText, List.length_append, List.length_cons, List.length_nil]
    decide +kernel
  have hunread : lexFrom 444 .newline [] (orderedText "web" .bare "include" "exclude"
      ("\x7b\"k\": \x7b\"v\"\x7d, \"n\": ".toList ++ digits ++ "\x7d".toList)
        "\x7b\x7d".toList) = none := by
    decide +kernel
  exact ⟨Decimal.spells_ofNat _, decode_unread hincl rfl hlength hunread⟩

end PolicySync.Selectors
