import PolicySync.Proofs.Json.Spelling
import PolicySync.Proofs.Labels.Rule
import PolicySync.Proofs.Policy.JsonLiteral
import PolicySync.Proofs.Policy.Value

/-!
# Labels written by hand

A labels rule may hold any JSON object. In both dialects its entries that are texts are the labels;
all the others are left out, and none of them makes the module fail.
-/

namespace PolicySync.Labels

open PolicySync.Policy PolicySync.Text

/-- A module with one labels rule whose value is written out. -/
def handWritten (id : String) (newer : Bool) (text : String) : String :=
  "package " ++ packagePath "metadata" id "labels" ++ "\n\n" ++
    (if newer then "import rego.v1\n\n" else "") ++ "labels := " ++ text ++ "\n"

private def frontLexemes (id : String) (newer : Bool) : List Lexeme :=
  packageLine "metadata" id "labels" ++ (importLine newer ++ ruleHead "\n\n")

private theorem handWritten_toList (id : String) (newer : Bool) (text : String) :
    (handWritten id newer text).toList =
      spelling (frontLexemes id newer) ++ ' ' :: (text.toList ++ ['\n']) := by
  have hhead : spelling (ruleHead "\n\n") = "\n\nlabels :=".toList := rfl
  rw [frontLexemes, spelling_append, spelling_append, spelling_packageLine, hhead]
  cases newer with
  | true =>
    have himport : spelling (importLine true) = "\n\nimport rego.v1".toList := rfl
    rw [himport]
    simp [handWritten]
  | false =>
    have himport : spelling (importLine false) = [] := rfl
    rw [himport]
    simp [handWritten]

private theorem standBefore_front (id : String) (newer : Bool) :
    standBefore .newline (frontLexemes id newer) (some ' ') = true := by
  have hpackage : packageLine "metadata" id "labels" ≠ [] := List.cons_ne_nil _ _
  rw [frontLexemes, standBefore_append hpackage, Bool.and_eq_true]
  have hhead : (spelling (importLine newer ++ ruleHead "\n\n")).head?.or (some ' ') =
      some '\n' := by
    cases newer <;> rfl
  rw [hhead]
  refine ⟨standBefore_packageLine (by decide) (by decide) (by decide), ?_⟩
  cases newer <;> decide

/-- A module whose labels are a JSON object is read as one rule with an inert value. -/
theorem parse?_handWritten {id text : String} {j : Json} (newer : Bool)
    (hres : reservedWords.contains id = false) (h : j.Spells text.toList) :
    ∃ e : Expr, e.Inert ∧ Evaluates e j.value ∧
      ModuleTree.parse? (handWritten id newer text) = some (ruleTree id newer e) := by
  have hwritten := (Json.spells_iff.mp h).2
  obtain ⟨ts, e, hts, hreads, he⟩ := (Json.denotes (k := dialectKeywords newer) j hwritten).reads
  have htext : IsTextOf (' ' :: (text.toList ++ ['\n'])) ts :=
    hts.padded (.space .nil) (.lineFeed .nil)
  obtain ⟨ls, hls, hlexes⟩ := (htext [] rfl).lexes .adjacent []
  have hlex : lex (handWritten id newer text) = some (frontLexemes id newer ++ ls) := by
    have hfront : Lexes .newline []
        (spelling (frontLexemes id newer) ++ ' ' :: (text.toList ++ ['\n']))
        (frontLexemes id newer ++ ls) :=
      Lexes.spelling_append (standBefore_front id newer) hlexes
    rw [lex, handWritten_toList]
    exact hfront _ (Nat.lt_succ_self _)
  have hmodule : readModule (packageLine "metadata" id "labels" ++
      (importLine newer ++ (ruleHead "\n\n" ++ ls))) = _ :=
    readModule_rule newer (hreads ls hls)
  rw [hres, if_neg Bool.false_ne_true] at hmodule
  refine ⟨e, he.inert, he.evaluates, ?_⟩
  change ((lex (handWritten id newer text)).bind readModule) = _
  rw [hlex, frontLexemes, List.append_assoc, List.append_assoc]
  exact hmodule

private theorem mem_ofFields {entries : List (String × Value)} {key value : String} :
    (key, value) ∈ ofFields (entries.map Value.textField) ↔ (key, .string value) ∈ entries := by
  induction entries with
  | nil => simp [ofFields]
  | cons e rest ih =>
    obtain ⟨k, v⟩ := e
    cases v
    all_goals
      simp [ofFields, Value.textField] at ih ⊢
      simp [ih]

/-- Leaving out fields leaves the others in order. -/
private theorem ofFields_sorted {entries : List (String × Value)}
    (h : entries.Pairwise fun a b => a.1 < b.1) :
    (ofFields (entries.map Value.textField)).Pairwise fun a b => a.1 < b.1 := by
  induction entries with
  | nil => exact .nil
  | cons e rest ih =>
    obtain ⟨k, v⟩ := e
    obtain ⟨hk, hrest⟩ := List.pairwise_cons.mp h
    cases v with
    | string text =>
      refine List.pairwise_cons.mpr ⟨fun entry hentry => ?_, ih hrest⟩
      exact hk _ (mem_ofFields.mp hentry)
    | _ => exact ih hrest

/-- The labels in an object are its texts, each under its key. -/
private theorem get?_ofRow_object {members : List (String × Json)}
    (hkeys : (members.map (·.1)).Nodup) (key value : String) :
    (SortedMap.ofList (ofRow [(Json.object members).value])).get? key = some value ↔
      (key, .string value) ∈ members := by
  have hvalue : (Json.object members).value =
      Value.objectOf ((members.map fun m => (m.1, m.2.value)).map Value.textField) := by
    rw [Json.value, Json.fieldsOf_eq, List.map_map]
    rfl
  have hnodup : ((members.map fun m => (m.1, m.2.value)).map (·.1)).Nodup := by
    rwa [List.map_map]
  rw [hvalue, Value.objectOf_textFields]
  change (SortedMap.ofList (ofFields _)).get? key = _ ↔ _
  rw [SortedMap.get?_eq_some, SortedMap.entries_ofList (ofFields_sorted (SortedMap.sorted _)),
    mem_ofFields, SortedMap.mem_entries_ofList hnodup, List.mem_map]
  constructor
  · rintro ⟨⟨k, j⟩, hmem, heq⟩
    obtain ⟨rfl, hj⟩ := Prod.mk.inj heq
    have hstring : j = .string value := Json.value_eq_string.mp hj
    rwa [hstring] at hmem
  · intro hmem
    exact ⟨_, hmem, rfl⟩

/-- The labels in a JSON object written by hand are its entries that are texts. Every other entry is
left out, and no entry makes the module fail. -/
theorem decode_handWritten {id text : String} {members : List (String × Json)} (newer : Bool)
    (hid : IsResourceName id) (hkeys : (members.map (·.1)).Nodup)
    (htext : (Json.object members).Spells text.toList) :
    ∃ labels, decode id (handWritten id newer text) = .ok labels ∧
      ∀ key value, labels.get? key = some value ↔ (key, .string value) ∈ members := by
  obtain ⟨e, he, hv, hparse⟩ := parse?_handWritten newer hid.unreserved htext
  have hdecode := decode_rule newer hparse hid.unreserved he hv rfl
  rw [if_pos hid.plain] at hdecode
  exact ⟨_, hdecode, get?_ofRow_object hkeys⟩

theorem decode_handWritten_web :
    IsResourceName "web-1.a" ∧ ["b", "n", "o"].Nodup ∧
      (Json.object [("b", .string "\""), ("n", .ofInt (-7)), ("o", .object [("a", .null)])]).Spells
        "\x7b\"b\":\"\\\"\",\"n\":-7,\"o\":\x7b\"a\":null\x7d\x7d".toList ∧
      ∃ labels, decode "web-1.a" (handWritten "web-1.a" false
          "\x7b\"b\":\"\\\"\",\"n\":-7,\"o\":\x7b\"a\":null\x7d\x7d") = .ok labels ∧
        ∀ key value, labels.get? key = some value ↔ (key, Json.string value) ∈
          [("b", .string "\""), ("n", .ofInt (-7)), ("o", .object [("a", .null)])] := by
  have hspells := Json.spells_text
    (.object [("b", .string "\""), ("n", .ofInt (-7)), ("o", .object [("a", .null)])]) (by decide)
  have htext : (Json.object [("b", .string "\""), ("n", .ofInt (-7)),
      ("o", .object [("a", .null)])]).text =
        "\x7b\"b\":\"\\\"\",\"n\":-7,\"o\":\x7b\"a\":null\x7d\x7d" := by
    decide +kernel
  rw [htext] at hspells
  have hid : IsResourceName "web-1.a" := by decide
  have hkeys : ["b", "n", "o"].Nodup := by decide
  exact ⟨hid, hkeys, hspells, decode_handWritten false hid hkeys hspells⟩

end PolicySync.Labels
