import PolicySync.Proofs.Policy.Token.Spelling

/-!
# Tokens of a text that is laid out freely

Between two tokens there may be spaces, tabs and ends of lines. They show in the gaps of the lexemes
and not in the tokens.
-/

namespace PolicySync.Policy

open PolicySync.Text

/-- Blanks between tokens. A carriage return is a blank before a line feed alone. -/
inductive IsBlank : List Char → Prop
  | nil : IsBlank []
  | space {cs : List Char} (h : IsBlank cs) : IsBlank (' ' :: cs)
  | tab {cs : List Char} (h : IsBlank cs) : IsBlank ('\t' :: cs)
  | lineFeed {cs : List Char} (h : IsBlank cs) : IsBlank ('\n' :: cs)
  | lineEnd {cs : List Char} (h : IsBlank cs) : IsBlank ('\r' :: '\n' :: cs)

/-- Whether a text goes on with nothing that could be part of a word or a number. -/
def endsWord (cs : List Char) : Bool :=
  cs.head?.all fun c => !isNameChar c && c ≠ '.' && c ≠ '('

theorem endsWord_append {a b : List Char} (ha : endsWord a = true) (hb : endsWord b = true) :
    endsWord (a ++ b) = true := by
  cases a with
  | nil => exact hb
  | cons c cs => exact ha

theorem IsBlank.endsWord {cs : List Char} (h : IsBlank cs) : endsWord cs = true := by
  cases h <;> rfl

/-- Whether a text, before what else is left, is read as some tokens, whatever gap is before it. -/
def Scans (cs rest : List Char) (ts : List Token) : Prop :=
  ∀ g before, ∃ ls g' before', ls.map Lexeme.token = ts ∧
    ∀ after, Lexes g' before' rest after → Lexes g before (cs ++ rest) (ls ++ after)

namespace Scans

variable {a b rest : List Char} {ts us : List Token}

theorem nil : Scans [] rest [] := by
  intro g before
  exact ⟨[], g, before, rfl, fun _ h => h⟩

theorem append (ha : Scans a (b ++ rest) ts) (hb : Scans b rest us) :
    Scans (a ++ b) rest (ts ++ us) := by
  intro g before
  obtain ⟨ls, g₁, before₁, hls, hfront⟩ := ha g before
  obtain ⟨ms, g₂, before₂, hms, hback⟩ := hb g₁ before₁
  refine ⟨ls ++ ms, g₂, before₂, by rw [List.map_append, hls, hms], fun after h => ?_⟩
  rw [List.append_assoc, List.append_assoc]
  exact hfront _ (hback after h)

private theorem step {cs : List Char} (hne : cs ≠ [])
    (hstep : ∀ g before, ∃ g' before', ∀ fuel,
      lexFrom (fuel + 1) g before (cs ++ rest) = lexFrom fuel g' before' rest) :
    Scans cs rest [] := by
  intro g before
  obtain ⟨g', before', hlex⟩ := hstep g before
  refine ⟨[], g', before', rfl, fun after h fuel hfuel => ?_⟩
  have hpos : 0 < cs.length := List.length_pos_iff.mpr hne
  rw [List.length_append] at hfuel
  obtain ⟨fuel, rfl⟩ : ∃ n, fuel = n + 1 := ⟨fuel - 1, by omega⟩
  -- a blank takes one unit of fuel and at least one character
  rw [hlex]
  exact h fuel (by omega)

theorem blank (hb : IsBlank b) : Scans b rest [] := by
  induction hb with
  | nil => exact nil
  | @space cs _ ih =>
    have hspace : Scans [' '] (cs ++ rest) [] :=
      step (List.cons_ne_nil _ _) fun g before => ⟨_, _, fun fuel => rfl⟩
    exact hspace.append ih
  | @tab cs _ ih =>
    have htab : Scans ['\t'] (cs ++ rest) [] :=
      step (List.cons_ne_nil _ _) fun g before => ⟨_, _, fun fuel => rfl⟩
    exact htab.append ih
  | @lineFeed cs _ ih =>
    have hline : Scans ['\n'] (cs ++ rest) [] :=
      step (List.cons_ne_nil _ _) fun g before => ⟨_, _, fun fuel => rfl⟩
    exact hline.append ih
  | @lineEnd cs _ ih =>
    have hline : Scans ['\r', '\n'] (cs ++ rest) [] :=
      step (List.cons_ne_nil _ _) fun g before => ⟨_, _, fun fuel => rfl⟩
    exact hline.append ih

theorem token {t : Token} {c : Char} {cs : List Char} (hc : c ∉ layoutChars)
    (hgap : t.gapAfter = .adjacent) (hscan : scanToken (c :: cs ++ rest) = some (t, rest)) :
    Scans (c :: cs) rest [t] := by
  intro g before
  refine ⟨[⟨g, String.ofList before, t⟩], .adjacent, [], rfl, fun after h => ?_⟩
  exact Lexes.scanned hc hgap hscan h

/-- A name or a symbol that may stand where it does. -/
theorem standing {t : Token} (ht : t.standsBefore rest.head? = true) :
    Scans t.written.toList rest [t] := by
  obtain ⟨c, cs, hcs, hc⟩ := written_cons ht
  have hscan := scanToken_written ht
  rw [hcs] at hscan ⊢
  exact token hc (gapAfter_of_standsBefore ht) hscan

/-- A text to its end has the tokens that it is read as. -/
theorem lexes {cs : List Char} (h : Scans cs [] ts) (g : Gap) (before : List Char) :
    ∃ ls, ls.map Lexeme.token = ts ∧ Lexes g before cs ls := by
  obtain ⟨ls, g', before', hls, hlexes⟩ := h g before
  have hall := hlexes [] (Lexes.nil g' before')
  rw [List.append_nil, List.append_nil] at hall
  exact ⟨ls, hls, hall⟩

end Scans

/-- A number after its sign. -/
def signedChars (negative : Bool) (digits : List Char) : List Char :=
  if negative then '-' :: digits else digits

theorem toList_signed (negative : Bool) (digits : List Char) :
    (signed negative (String.ofList digits)).toList = signedChars negative digits := by
  cases negative with
  | false => exact String.toList_ofList
  | true => exact String.toList_append.trans (congrArg _ String.toList_ofList)

/-- Whether a text has some tokens before anything that does not continue a word. -/
def IsTextOf (cs : List Char) (ts : List Token) : Prop :=
  ∀ rest, endsWord rest = true → Scans cs rest ts

namespace IsTextOf

variable {a b cs : List Char} {ts us : List Token}

theorem nil : IsTextOf [] [] := by
  intro rest _
  exact Scans.nil

theorem append (ha : IsTextOf a ts) (hends : endsWord b = true) (hb : IsTextOf b us) :
    IsTextOf (a ++ b) (ts ++ us) := by
  intro rest hrest
  have hfront := ha (b ++ rest) (endsWord_append hends hrest)
  exact hfront.append (hb rest hrest)

theorem blank (hb : IsBlank b) : IsTextOf b [] := by
  intro rest _
  exact Scans.blank hb

/-- Blanks around a text make no difference. -/
theorem padded (ha : IsBlank a) (hb : IsBlank b) (h : IsTextOf cs ts) :
    IsTextOf (a ++ (cs ++ b)) ts := by
  have htext := h.append hb.endsWord (blank hb)
  rw [List.append_nil] at htext
  intro rest hrest
  exact (Scans.blank ha).append (htext rest hrest)

theorem text {value : String} {raw : List Char} (hraw : Quoted.Spells value.toList raw) :
    IsTextOf ('"' :: (raw ++ ['"'])) [.text (String.ofList raw) value] := by
  intro rest _
  have hspells : Quoted.Spells value.toList (String.ofList raw).toList := by
    rwa [String.toList_ofList]
  have hscan : scanToken (_ ++ rest) = _ := scanToken_text hspells
  have htoken : (Token.text (String.ofList raw) value).written.toList = '"' :: (raw ++ ['"']) := by
    simp [Token.written]
  rw [htoken] at hscan
  exact Scans.token (by decide) rfl hscan

theorem word {w : String} (hw : isWord w = true) : IsTextOf w.toList [.name w] := by
  intro rest hrest
  have ht : (Token.name w).standsBefore rest.head? = true := by
    rw [Token.standsBefore, hw, Bool.true_and]
    -- a parenthesis would make the word a call, a point the front of a path
    cases rest with
    | nil => rfl
    | cons c cs =>
      simp [endsWord] at hrest
      simp [hrest]
  exact Scans.standing ht

private theorem endsNumber_of_endsWord {rest : List Char} (hrest : endsWord rest = true) :
    Decimal.endsNumber rest = true := by
  cases rest with
  | nil => rfl
  | cons c cs =>
    simp [endsWord, isNameChar, Char.isAlphanum] at hrest
    have he : c ≠ 'e' := by
      rintro rfl
      exact absurd hrest.1.1.1.1 (by decide)
    have hE : c ≠ 'E' := by
      rintro rfl
      exact absurd hrest.1.1.1.1 (by decide)
    simp [Decimal.endsNumber, hrest, he, hE]

private theorem scanNumber_spells {d : Decimal} {digits rest : List Char} {q : Rat}
    (negative : Bool) (h : d.Spells digits) (hq : d.value? = some q)
    (hrest : endsWord rest = true) :
    scanNumber negative (digits ++ rest) =
      some (.number negative (String.ofList digits), rest) := by
  have hlength : (digits ++ rest).length - rest.length = digits.length := by
    rw [List.length_append]
    omega
  rw [scanNumber, Decimal.scan_spells h (endsNumber_of_endsWord hrest)]
  simp only [Option.bind_eq_bind, Option.bind_some, hq, hlength, List.take_left]
  cases rest with
  | nil => rfl
  | cons c cs =>
    simp [endsWord] at hrest
    simp [hrest]

private theorem scanToken_digits {d : Char} {ds : List Char} (hd : d.isDigit = true) :
    scanToken (d :: ds) = scanNumber false (d :: ds) := by
  have hname : isNameStart d = false :=
    Decimal.of_isDigit (P := fun d => isNameStart d = false) (by decide) hd
  unfold scanToken
  split
  · next heq => cases heq; cases hd
  · next heq => cases heq; cases hd
  · next heq => cases heq; cases hd
  · next heq =>
    cases heq
    rw [hname, hd]
    rfl
  · next heq => cases heq

theorem number {d : Decimal} {digits : List Char} {q : Rat} (negative : Bool)
    (h : d.Spells digits) (hq : d.value? = some q) :
    IsTextOf (signedChars negative digits) [.number negative (String.ofList digits)] := by
  intro rest hrest
  have hscan := scanNumber_spells negative h hq hrest
  obtain ⟨c, cs, rfl, hc⟩ := h.eq_cons
  have hlayout : c ∉ layoutChars :=
    Decimal.of_isDigit (P := fun c => c ∉ layoutChars) (by decide) hc
  cases negative with
  | false => exact Scans.token hlayout rfl ((scanToken_digits hc).trans hscan)
  | true =>
    have htoken : scanToken ('-' :: (c :: cs) ++ rest) =
        some (.number true (String.ofList (c :: cs)), rest) := by
      change (if c.isDigit then _ else _) = _
      rw [hc, if_pos rfl]
      exact hscan
    exact Scans.token (by decide) rfl htoken

/-- A symbol in front, where it may stand. -/
private theorem standing {s : Symbol}
    (hs : ∀ rest, (Token.symbol s).standsBefore (cs ++ rest).head? = true) (h : IsTextOf cs ts) :
    IsTextOf (s.text.toList ++ cs) (.symbol s :: ts) := by
  intro rest hrest
  exact (Scans.standing (hs rest)).append (h rest hrest)

/-- Brackets, braces and commas are read as they are before everything. -/
theorem symbol {s : Symbol}
    (hs : s ∈ [.bracketOpen, .bracketClose, .braceOpen, .braceClose, .parenClose, .comma])
    (h : IsTextOf cs ts) : IsTextOf (s.text.toList ++ cs) (.symbol s :: ts) := by
  refine standing (fun rest => ?_) h
  -- none of these is the first half of a longer symbol
  simp only [List.mem_cons, List.not_mem_nil, or_false] at hs
  rcases hs with rfl | rfl | rfl | rfl | rfl | rfl
  all_goals
    cases (cs ++ rest).head? <;> simp [Token.standsBefore, Symbol.text, Symbol.ofPair?]

/-- A colon is read as it is before everything but an equals sign. -/
theorem colon {c : Char} (hc : c ≠ '=') (h : IsTextOf (c :: cs) ts) :
    IsTextOf (':' :: c :: cs) (.symbol .colon :: ts) := by
  refine standing (s := .colon) (fun rest => ?_) h
  simp [Token.standsBefore, Symbol.text, Symbol.ofPair?, hc]

/-- The empty set is read as such when nothing is between its parentheses. -/
theorem emptySet : IsTextOf "set()".toList [.symbol .setOpen, .symbol .parenClose] := by
  have hclose : IsTextOf [')'] [.symbol .parenClose] := symbol (by decide) nil
  exact standing (s := .setOpen) (fun rest => rfl) hclose

end IsTextOf

end PolicySync.Policy
