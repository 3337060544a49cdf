import PolicySync.PackagePath
import PolicySync.Policy.Grammar.Module
import PolicySync.Policy.Term
import PolicySync.Proofs.Policy.Token.Spelling

/-!
# Package paths are read back

An id stands in a package path as a bare name or as a quoted key. Either way the path is read with
the id as it is written between quotes, whatever the id holds.
-/

namespace PolicySync

open PolicySync.Policy PolicySync.Text

/-- The keywords of the newer dialect. -/
def newerKeywords : Keywords := ⟨["in", "if", "every", "contains"], true⟩

/-- The import that switches the newer dialect on. -/
def newerImport : ImportDecl := ⟨⟨"rego", ["v1"]⟩, none⟩

/-- The keywords of either dialect. -/
def dialectKeywords (newer : Bool) : Keywords := if newer then newerKeywords else .initial

/-- The import of the dialect, which only the newer one has. -/
def dialectImports (newer : Bool) : List ImportDecl := if newer then [newerImport] else []

def segmentLexemes (id : String) : List Lexeme :=
  if isIdentifier id then [.glued (.symbol .dot), .glued (.name id)]
  else
    [.glued (.symbol .bracketOpen), .glued (.text (Quoted.escape id) id),
      .glued (.symbol .bracketClose)]

/-- The lexemes of a package path after its first name. -/
def pathLexemes (id last : String) : List Lexeme :=
  segmentLexemes id ++ [.glued (.symbol .dot), .glued (.name last)]

theorem packagePath_toList (first id last : String) :
    (packagePath first id last).toList = first.toList ++ spelling (pathLexemes id last) := by
  unfold packagePath pathLexemes segmentLexemes
  split
  · simp [Lexeme.glued, Token.written, Symbol.text]
  · simp [Lexeme.glued, Token.written, Symbol.text, Quoted.quote, Quoted.escape]

theorem standBefore_pathLexemes {id last : String} {next : Option Char}
    (h : (Token.name last).standsBefore next = true) :
    standBefore .adjacent (pathLexemes id last) next = true := by
  have hdot : isNameChar '.' = false := by decide
  unfold pathLexemes segmentLexemes
  split
  · next hid =>
    have hword : isWord id = true := hid
    simpa [standBefore, Lexeme.glued, gapAcross, Token.standsBefore, Token.written, Symbol.text,
      Symbol.ofPair?, hword, hdot] using h
  · simpa [standBefore, Lexeme.glued, gapAcross, Token.standsBefore, Token.written, Symbol.text,
      Symbol.ofPair?] using h

private theorem isIdentifier_of_reserved {id : String} (h : reservedWords.contains id = true) :
    isIdentifier id = true := by
  have hall : ∀ w ∈ reservedWords, isIdentifier w = true := by decide
  exact hall id (by simpa using h)

private theorem isNameChar_control : ∀ n < 32, isNameChar (Char.ofNat n) = false := by
  decide

private theorem isPlain_of_isNameChar {c : Char} (h : isNameChar c = true) :
    Quoted.isPlain c = true := by
  have hq : c ≠ '"' := by rintro rfl; revert h; decide
  have hb : c ≠ '\\' := by rintro rfl; revert h; decide
  have hc : 32 ≤ c.toNat := by
    refine Nat.le_of_not_lt fun hlt => ?_
    have hfalse := isNameChar_control c.toNat hlt
    rw [Char.ofNat_toNat, h] at hfalse
    cases hfalse
  simp [Quoted.isPlain, hq, hb, hc]

theorem all_isNameChar_of_isIdentifier {id : String} (h : isIdentifier id = true) :
    id.toList.all isNameChar = true := by
  change isWord id = true at h
  unfold isWord at h
  split at h
  · cases h
  · next c cs hcs =>
    rw [Bool.and_eq_true] at h
    rw [hcs, List.all_cons, isNameChar_of_isNameStart h.1, h.2]
    rfl

/-- A bare name is written between quotes as it is. -/
theorem escape_identifier {id : String} (h : isIdentifier id = true) : Quoted.escape id = id := by
  refine Quoted.escape_eq_self.mpr (List.all_eq_true.mpr fun c hc => ?_)
  have hall := all_isNameChar_of_isIdentifier h
  exact isPlain_of_isNameChar (List.all_eq_true.mp hall c hc)

private theorem readSegments_fresh (fuel : Nat) (before : String) (t : Token)
    (rest : List Lexeme) :
    readSegments (fuel + 1) (.fresh before t :: rest) = some ([], .fresh before t :: rest) :=
  rfl

private theorem readSegments_dot {fuel : Nat} {field : String} {rest : List Lexeme}
    (h : reservedWords.contains field = false) :
    readSegments (fuel + 1) (.glued (.symbol .dot) :: .glued (.name field) :: rest) =
      (readSegments fuel rest).map fun r => (field :: r.1, r.2) := by
  change (if reservedWords.contains field then _ else _) = _
  rw [h, if_neg Bool.false_ne_true]
  cases readSegments fuel rest <;> rfl

private theorem readSegments_key {fuel : Nat} {raw value : String} {rest : List Lexeme} :
    readSegments (fuel + 1) (.glued (.symbol .bracketOpen) :: .glued (.text raw value) ::
        .glued (.symbol .bracketClose) :: rest) =
      (readSegments fuel rest).map fun r => (raw :: r.1, r.2) := by
  change ((readSegments fuel rest).bind _) = _
  cases readSegments fuel rest <;> rfl

/-- The path of a package is read with the id as it is written between quotes. A word that is
reserved in every module is no segment. -/
theorem readSegments_pathLexemes {id last before : String} {t : Token} {rest : List Lexeme}
    {fuel : Nat} (hlast : reservedWords.contains last = false) :
    readSegments (fuel + 3) (pathLexemes id last ++ .fresh before t :: rest) =
      if reservedWords.contains id then none
      else some ([Quoted.escape id, last], .fresh before t :: rest) := by
  have hend : readSegments (fuel + 2) (.glued (.symbol .dot) :: .glued (.name last) ::
      .fresh before t :: rest) = some ([last], .fresh before t :: rest) := by
    rw [readSegments_dot hlast, readSegments_fresh]
    rfl
  by_cases hid : isIdentifier id = true
  · rw [pathLexemes, segmentLexemes, if_pos hid, escape_identifier hid]
    cases hres : reservedWords.contains id with
    | true =>
      change (if reservedWords.contains id then _ else _) = _
      rw [hres]
      rfl
    | false =>
      change readSegments (fuel + 3) (.glued (.symbol .dot) :: .glued (.name id) :: _) = _
      rw [readSegments_dot hres]
      change (readSegments (fuel + 2) (.glued (.symbol .dot) :: .glued (.name last) ::
        .fresh before t :: rest)).map _ = _
      rw [hend]
      rfl
  · -- a reserved word is a bare name, so no key between quotes is one
    have hres : reservedWords.contains id = false :=
      Bool.eq_false_iff.mpr fun h => hid (isIdentifier_of_reserved h)
    rw [pathLexemes, segmentLexemes, if_neg hid, hres]
    change readSegments (fuel + 3) (.glued (.symbol .bracketOpen) :: .glued (.text _ id) ::
        .glued (.symbol .bracketClose) :: _) = _
    rw [readSegments_key]
    change (readSegments (fuel + 2) (.glued (.symbol .dot) :: .glued (.name last) ::
      .fresh before t :: rest)).map _ = _
    rw [hend]
    rfl

theorem head?_pathLexemes (id last : String) :
    (spelling (pathLexemes id last)).head? = some '.' ∨
      (spelling (pathLexemes id last)).head? = some '[' := by
  unfold pathLexemes segmentLexemes
  split
  · exact Or.inl rfl
  · exact Or.inr rfl

/-- The first line of a module. -/
def packageLine (first id last : String) : List Lexeme :=
  [.fresh "" (.name "package"), .apart (.name first)] ++ pathLexemes id last

theorem spelling_packageLine (first id last : String) :
    spelling (packageLine first id last) =
      "package ".toList ++ (packagePath first id last).toList := by
  have hstart : spelling [.fresh "" (.name "package"), .apart (.name first)] =
      "package ".toList ++ first.toList := by
    simp [Lexeme.fresh, Lexeme.apart, Token.written]
  rw [packageLine, spelling_append, hstart, packagePath_toList, List.append_assoc]

theorem standBefore_packageLine {first id last : String} {next : Option Char}
    (hdot : (Token.name first).standsBefore (some '.') = true)
    (hbracket : (Token.name first).standsBefore (some '[') = true)
    (hlast : (Token.name last).standsBefore next = true) :
    standBefore .newline (packageLine first id last) next = true := by
  rw [packageLine, standBefore_append (List.cons_ne_nil _ _), standBefore_pathLexemes hlast]
  have hpackage : (Token.name "package").standsBefore (some ' ') = true := by decide
  rcases head?_pathLexemes id last with hhead | hhead
  · simp [hhead, standBefore, Lexeme.fresh, Lexeme.apart, gapAcross, Gap.addBlank, hpackage, hdot]
  · simp [hhead, standBefore, Lexeme.fresh, Lexeme.apart, gapAcross, Gap.addBlank, hpackage,
      hbracket]

theorem readSegmentPath_packageLine {first id last before : String} {t : Token}
    {rest : List Lexeme} (hfirst : reservedWords.contains first = false)
    (hlast : reservedWords.contains last = false) :
    readSegmentPath (.apart (.name first) :: (pathLexemes id last ++ .fresh before t :: rest)) =
      if reservedWords.contains id then none
      else some (⟨first, [Quoted.escape id, last]⟩, .fresh before t :: rest) := by
  have hlength : ∃ n, (pathLexemes id last ++ .fresh before t :: rest).length + 1 = n + 3 := by
    refine ⟨(segmentLexemes id).length + rest.length + 1, ?_⟩
    simp [pathLexemes]
    omega
  obtain ⟨n, hn⟩ := hlength
  change (if reservedWords.contains first then none else _) = _
  rw [hfirst, if_neg Bool.false_ne_true, hn, readSegments_pathLexemes hlast]
  split <;> rfl

theorem lineFeed_notMem_packagePath {first last : String} (id : String)
    (hfirst : '\n' ∉ first.toList) (hlast : '\n' ∉ last.toList) :
    '\n' ∉ (packagePath first id last).toList := by
  have hname : isNameChar '\n' = false := by decide
  unfold packagePath
  split
  · next hid =>
    have hall := List.all_eq_true.mp (all_isNameChar_of_isIdentifier hid)
    have hmem : '\n' ∉ id.toList := by
      intro h
      rw [hall _ h] at hname
      cases hname
    simp [hfirst, hlast, hmem]
  · simp [Quoted.quote, hfirst, hlast, Quoted.lineFeed_notMem_encodeChars]

/-- A package that has an id in its written form names the id exactly when no character of the id
needs an escape. -/
theorem refSegments?_escape {first id last : String} :
    refSegments? [.var first, .string (Quoted.escape id), .string last] = some [first, id, last] ↔
      id.toList.all Quoted.isPlain = true := by
  have hsegments : refSegments? [.var first, .string (Quoted.escape id), .string last] =
      some [first, Quoted.escape id, last] := rfl
  rw [hsegments, ← Quoted.escape_eq_self]
  simp

theorem labelsPath_inj {a b : String} (h : labelsPath a = labelsPath b) : a = b := by
  have hlist := congrArg String.toList h
  simp only [labelsPath, String.toList_append, -String.reduceToList] at hlist
  exact String.toList_inj.mp (List.append_cancel_left (List.append_cancel_right hlist))

theorem selectorsPath_inj {a b : String} (h : selectorsPath a = selectorsPath b) : a = b := by
  have hlist := congrArg String.toList h
  simp only [selectorsPath, String.toList_append, -String.reduceToList] at hlist
  exact String.toList_inj.mp (List.append_cancel_left (List.append_cancel_right hlist))

theorem labelsPath_ne_selectorsPath (a b : String) : labelsPath a ≠ selectorsPath b := by
  intro h
  have hhead := congrArg (fun s => s.toList.head?) h
  simp [labelsPath, selectorsPath] at hhead

/-- Whether a text can name an object of the cluster. -/
def isObjectName (id : String) : Bool :=
  let isEdge (c : Char) := c.isLower || c.isDigit
  (id.toList.all fun c => isEdge c || c = '-' || c = '.') &&
    id.toList.head?.any isEdge && id.toList.getLast?.any isEdge

theorem plain_of_isObjectName {id : String} (h : isObjectName id = true) :
    id.toList.all Quoted.isPlain = true := by
  refine List.all_eq_true.mpr fun c hc => ?_
  simp only [isObjectName, Bool.and_eq_true] at h
  have hchar := List.all_eq_true.mp h.1.1 c hc
  simp only [Bool.or_eq_true, decide_eq_true_eq] at hchar
  rcases hchar with ((hlower | hdigit) | rfl) | rfl
  · have halpha : c.isAlpha = true := Bool.or_eq_true_iff.mpr (.inr hlower)
    exact isPlain_of_isNameChar (by simp [isNameChar, Char.isAlphanum, halpha])
  · exact isPlain_of_isNameChar (by simp [isNameChar, Char.isAlphanum, hdigit])
  · decide
  · decide

/-- An id that names an object of the cluster and is no word of the policy language. -/
structure IsResourceName (id : String) : Prop where
  objectName : isObjectName id = true
  noWord : id ∉ reservedWords ++ optionalWords

instance (id : String) : Decidable (IsResourceName id) :=
  decidable_of_iff (isObjectName id = true ∧ id ∉ reservedWords ++ optionalWords)
    ⟨fun h => ⟨h.1, h.2⟩, fun h => ⟨h.1, h.2⟩⟩

namespace IsResourceName

variable {id : String}

theorem unreserved (h : IsResourceName id) : reservedWords.contains id = false := by
  have hword := h.noWord
  simp only [List.mem_append, not_or] at hword
  simpa using hword.1

theorem plain (h : IsResourceName id) : id.toList.all Quoted.isPlain = true :=
  plain_of_isObjectName h.objectName

end IsResourceName

end PolicySync
