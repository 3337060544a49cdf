import PolicySync.Labels
import PolicySync.Proofs.PackagePath
import PolicySync.Proofs.Policy.Evaluation
import PolicySync.Proofs.Policy.Grammar.Literal

/-!
# The query for labels

The query for the labels of a system is read as a reference to the labels rule in the package of
that system. The reference names the package as it is written, escapes included.
-/

namespace PolicySync.Labels

open PolicySync.Policy PolicySync.Text

/-- What an id leads to from the place before it. -/
def systemExpr (base : Expr) (id : String) : Expr :=
  if isIdentifier id then .dot base id else .index base (quotedExpr id)

/-- The reference to the labels rule of a system. -/
def reference (id : String) : Expr :=
  .dot (.dot (systemExpr (.dot (.var "data") "metadata") id) "labels") "labels"

/-- The path of the module that holds the labels of a system. -/
def package (id : String) : List String := ["metadata", Quoted.escape id, "labels"]

private theorem isReference_dot (field : String) :
    IsReference (.dot (.dot (.dot (.dot (.var "data") "metadata") field) "labels") "labels")
      ["metadata", field, "labels", "labels"] :=
  ⟨rfl, ⟨_, _, rfl⟩, rfl, rfl, fun _ _ => rfl, fun _ => rfl⟩

private theorem isReference_index (raw value : String) :
    IsReference (.dot (.dot (.index (.dot (.var "data") "metadata") (.quoted raw value)) "labels")
      "labels") ["metadata", raw, "labels", "labels"] :=
  ⟨rfl, ⟨_, _, rfl⟩, rfl, rfl, fun _ _ => rfl, fun _ => rfl⟩

theorem isReference (id : String) : IsReference (reference id) (package id ++ ["labels"]) := by
  by_cases hid : isIdentifier id = true
  · rw [reference, systemExpr, package, if_pos hid, escape_identifier hid]
    exact isReference_dot id
  · rw [reference, systemExpr, package, if_neg hid]
    exact isReference_index _ _

/-- The last name of the query, after a point. -/
def ruleLexemes : List Lexeme := [.glued (.symbol .dot), .glued (.name "labels")]

def queryLexemes (id : String) : List Lexeme :=
  [.fresh "" (.name "data"), .glued (.symbol .dot), .glued (.name "metadata")] ++
    (pathLexemes id "labels" ++ ruleLexemes)

private theorem standBefore_query (id : String) :
    standBefore .newline (queryLexemes id) none = true := by
  have hrule : standBefore .adjacent ruleLexemes none = true := by decide
  have hpath : standBefore .adjacent (pathLexemes id "labels") (some '.') = true :=
    standBefore_pathLexemes (by decide)
  have hne : pathLexemes id "labels" ≠ [] := by simp [pathLexemes]
  have hrest : standBefore .adjacent (pathLexemes id "labels" ++ ruleLexemes) none = true := by
    rw [standBefore_append hne, hrule, Bool.and_true]
    exact hpath
  rw [queryLexemes, standBefore_append (List.cons_ne_nil _ _), hrest, Bool.and_true,
    spelling_append, List.head?_append]
  rcases head?_pathLexemes id "labels" with hhead | hhead
  · rw [hhead]
    decide
  · rw [hhead]
    decide

private theorem lex_query (id : String) : lex (query id) = some (queryLexemes id) := by
  have hspelling : (query id).toList = spelling (queryLexemes id) ++ [] := by
    simp [query, queryLexemes, ruleLexemes, packagePath_toList, Lexeme.fresh, Lexeme.glued,
      Token.written, Symbol.text]
  exact lex_spelling hspelling (standBefore_query id) rfl

section

variable {k : Keywords} {fuel : Nat} {callable : Bool} {base : Expr} {rest : List Lexeme}

private theorem readPath_dot {field : String} (h : k.reserves field = false) :
    readPath k (fuel + 1) callable base (.glued (.symbol .dot) :: .glued (.name field) :: rest) =
      readPath k fuel callable (.dot base field) rest := by
  change (if k.reserves field then _ else _) = _
  rw [h]
  rfl

private theorem readPath_key {text : String} (hfuel : 13 ≤ fuel) :
    readPath k (fuel + 1) callable base (.glued (.symbol .bracketOpen) ::
        .glued (quotedToken text) :: .glued (.symbol .bracketClose) :: rest) =
      readPath k fuel callable (.index base (quotedExpr text)) rest := by
  have hkey : readExpr k fuel
      ([.glued (quotedToken text)] ++ .glued (.symbol .bracketClose) :: rest) =
        some (quotedExpr text, .glued (.symbol .bracketClose) :: rest) :=
    readExpr_of_reads (ReadsTerm.quoted _ _ _ _) rfl hfuel
  change ((readExpr k fuel ([_] ++ .glued (.symbol .bracketClose) :: rest)).bind _) = _
  rw [hkey]
  change readPath k fuel (callable && true) _ rest = _
  rw [Bool.and_true]

private theorem readPath_pathLexemes {id last : String} (hid : k.reserves id = false)
    (hlast : k.reserves last = false) (hfuel : 12 ≤ fuel) :
    readPath k (fuel + 2) callable base (pathLexemes id last ++ rest) =
      readPath k fuel callable (.dot (systemExpr base id) last) rest := by
  unfold pathLexemes segmentLexemes systemExpr
  split
  · simp only [List.cons_append, List.nil_append]
    rw [readPath_dot hid, readPath_dot hlast]
  · simp only [List.cons_append, List.nil_append]
    change readPath k (fuel + 2) callable base (_ :: .glued (quotedToken id) :: _) = _
    rw [readPath_key (by omega), readPath_dot hlast]

end

private theorem readTerm_query {id : String} (h : Keywords.initial.reserves id = false)
    {fuel : Nat} (hfuel : 20 ≤ fuel) :
    readTerm .initial fuel (queryLexemes id) = some (reference id, []) := by
  obtain ⟨fuel, rfl⟩ : ∃ n, fuel = n + 6 := ⟨fuel - 6, by omega⟩
  change readPath .initial (fuel + 5) true (.var "data")
    (.glued (.symbol .dot) :: .glued (.name "metadata") :: _) = _
  rw [readPath_dot rfl]
  change readPath .initial (fuel + 2 + 2) true _ (pathLexemes id "labels" ++ [_, _]) = _
  rw [readPath_pathLexemes h rfl (by omega), readPath_dot rfl]
  rfl

private theorem readStmt_query {id : String} (h : Keywords.initial.reserves id = false)
    {fuel : Nat} (hfuel : 30 ≤ fuel) :
    readStmt .initial fuel (queryLexemes id) =
      some (.mk (.expr false (reference id)) [], []) := by
  obtain ⟨fuel, rfl⟩ : ∃ n, fuel = n + 3 := ⟨fuel - 3, by omega⟩
  have hassign : readAssignment .initial (fuel + 1) (queryLexemes id) =
      some (reference id, []) := by
    unfold readAssignment
    rw [readTerm_query h (by omega)]
    obtain ⟨fuel, rfl⟩ : ∃ n, fuel = n + 10 := ⟨fuel - 10, by omega⟩
    rfl
  change (((readAssignment .initial (fuel + 1) (queryLexemes id)).bind _).bind _) = _
  rw [hassign]
  rfl

/-- The query is read as the reference meant, for every id that the policy language does not
reserve. -/
theorem parse?_query {id : String} (h : reservedWords.contains id = false) :
    Query.parse? (query id) = some [.mk (.expr false (reference id)) []] := by
  have hid : Keywords.initial.reserves id = false := by
    simpa [Keywords.reserves, Keywords.initial, Keywords.has] using h
  have hlength : 5 ≤ (queryLexemes id).length := by simp [queryLexemes, ruleLexemes]
  obtain ⟨fuel, hfuel⟩ : ∃ fuel, callBound (queryLexemes id) = fuel + 32 := by
    refine ⟨callBound (queryLexemes id) - 32, ?_⟩
    rw [callBound]
    omega
  have hquery : readQuery .initial (fuel + 32) .endOfText (queryLexemes id) =
      some ([.mk (.expr false (reference id)) []], []) := by
    change (((readStmt .initial (fuel + 30) (queryLexemes id)).bind _).bind _) = _
    rw [readStmt_query hid (by omega)]
    rfl
  change ((lex (query id)).bind fun tokens =>
    (readQuery .initial (callBound tokens) .endOfText tokens).bind _) = _
  rw [lex_query]
  change ((readQuery .initial (callBound (queryLexemes id)) .endOfText _).bind _) = _
  rw [hfuel, hquery]
  rfl

end PolicySync.Labels
