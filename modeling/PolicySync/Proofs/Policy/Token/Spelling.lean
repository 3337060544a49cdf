import PolicySync.Policy.Token.Lexer
import PolicySync.Proofs.Text.Decimal
import PolicySync.Proofs.Text.Quoted

/-!
# Lexemes are read back from their spelling

The spelling of lexemes is what stands before each of them followed by the token as written. When
every token may stand where it does, the text reads back as these lexemes.
-/

namespace PolicySync.Policy

open PolicySync.Text

/-- What lexemes look like in a source text. -/
def spelling (lexemes : List Lexeme) : List Char :=
  lexemes.flatMap fun l => l.before.toList ++ l.token.written.toList

@[simp] theorem spelling_nil : spelling [] = [] := rfl

@[simp] theorem spelling_cons (l : Lexeme) (rest : List Lexeme) :
    spelling (l :: rest) = l.before.toList ++ (l.token.written.toList ++ spelling rest) := by
  simp [spelling]

@[simp] theorem spelling_append (a b : List Lexeme) :
    spelling (a ++ b) = spelling a ++ spelling b := by
  simp [spelling]

namespace Lexeme

/-- A token directly after the one before. -/
def glued (token : Token) : Lexeme := ⟨.adjacent, "", token⟩

/-- A token after one space. -/
def apart (token : Token) : Lexeme := ⟨.blanks, " ", token⟩

/-- A token on a new line. -/
def fresh (before : String) (token : Token) : Lexeme := ⟨.newline, before, token⟩

end Lexeme

/-- The gap after spaces and line feeds. -/
def gapAcross : Gap → List Char → Gap
  | g, [] => g
  | g, c :: cs => gapAcross (if c = '\n' then .newline else g.addBlank) cs

/-- Whether a text is a name or a keyword. -/
def isWord (w : String) : Bool :=
  match w.toList with
  | [] => false
  | c :: cs => isNameStart c && cs.all isNameChar

/-- Whether a token is read back when a character, or the end of the text, follows it. Numbers
and raw texts are left out. -/
def Token.standsBefore (t : Token) (next : Option Char) : Bool :=
  match t with
  | .name w => isWord w && next.all fun c => !isNameChar c && (c ≠ '(' || w ≠ "set")
  | .text raw value => raw.toList = Quoted.encodeChars value.toList
  | .symbol .setOpen => next = some ')'
  | .symbol .minus => next.all fun c => !c.isDigit
  | .symbol s => s.text.toList.length = 2 ||
      next.all fun c => s.text.toList.all fun a => (Symbol.ofPair? a c).isNone
  | _ => false

/-- Whether lexemes, the first after a gap, are read back when a character follows the last. -/
def standBefore : Gap → List Lexeme → Option Char → Bool
  | _, [], _ => true
  | g, l :: rest, next =>
    (l.before.toList.all fun c => c = ' ' || c = '\n') &&
      l.gap = gapAcross g l.before.toList &&
      l.token.standsBefore ((spelling rest).head?.or next) &&
      standBefore .adjacent rest next

theorem isNameChar_of_isNameStart {c : Char} (h : isNameStart c = true) :
    isNameChar c = true := by
  simp only [isNameStart, isNameChar, Char.isAlphanum, Bool.or_eq_true] at h ⊢
  exact h.imp_left Or.inl

private theorem scanToken_nameStart {c : Char} {cs : List Char} (h : isNameStart c = true) :
    scanToken (c :: cs) = some (scanName (c :: cs)) := by
  unfold scanToken
  split
  · next heq => cases heq; cases h
  · next heq => cases heq; cases h
  · next heq => cases heq; cases h
  · next heq => cases heq; rw [if_pos h]
  · next heq => cases heq

private theorem scanName_word {w : String} {rest : List Char} (hw : w.toList.all isNameChar = true)
    (hr : (rest.head?.all fun c => !isNameChar c && (c ≠ '(' || w ≠ "set")) = true) :
    scanName (w.toList ++ rest) = (.name w, rest) := by
  have hstop : (rest.head?.all fun c => !isNameChar c) = true := by
    cases rest with
    | nil => rfl
    | cons c cs => simp at hr ⊢; exact hr.1
  unfold scanName
  rw [takeWhile_append_stop hw hstop, dropWhile_append_stop hw hstop, String.ofList_toList]
  split
  · next r =>
    simp only [List.head?_cons, Option.all_some, Bool.and_eq_true] at hr
    have hset : w ≠ "set" := by simpa using hr.2
    simp [hset]
  · rfl

private theorem scanToken_name {w : String} {rest : List Char}
    (h : (Token.name w).standsBefore rest.head? = true) :
    scanToken (w.toList ++ rest) = some (.name w, rest) := by
  rw [Token.standsBefore, Bool.and_eq_true] at h
  obtain ⟨hw, hr⟩ := h
  rw [isWord] at hw
  split at hw
  · cases hw
  · next c cs hcs =>
    rw [Bool.and_eq_true] at hw
    have hall : w.toList.all isNameChar = true := by
      rw [hcs, List.all_cons, isNameChar_of_isNameStart hw.1, hw.2]; rfl
    rw [← scanName_word hall hr, hcs]
    exact scanToken_nameStart hw.1

/-- A quoted text is read with what was written between its quotes. -/
theorem scanToken_text {raw value : String} {rest : List Char}
    (h : Quoted.Spells value.toList raw.toList) :
    scanToken ((Token.text raw value).written.toList ++ rest) = some (.text raw value, rest) := by
  have hwritten : (Token.text raw value).written.toList ++ rest =
      '"' :: (raw.toList ++ '"' :: rest) := by
    simp [Token.written]
  rw [hwritten]
  change scanText _ = _
  rw [scanText, Quoted.scan_spells h]
  have hlength : (raw.toList ++ '"' :: rest).length - rest.length - 1 = raw.toList.length := by
    rw [List.length_append, List.length_cons]
    omega
  change some (_, _) = _
  rw [hlength, List.take_left, String.ofList_toList, String.ofList_toList]

private theorem scanToken_symbol {s : Symbol} {rest : List Char}
    (h : (Token.symbol s).standsBefore rest.head? = true) :
    scanToken (s.text.toList ++ rest) = some (.symbol s, rest) := by
  cases rest with
  | nil => cases s <;> first | rfl | cases h
  | cons c cs =>
    cases s <;> simp [Token.standsBefore, Symbol.text, Symbol.ofPair?, scanToken, scanSymbol,
      Symbol.ofChar?, isNameStart] at h ⊢
    case cons.setOpen => subst h; rfl
    case cons.minus => simp [h]
    all_goals rw [h]

/-- A token that may stand before what follows is read back. -/
theorem scanToken_written {t : Token} {rest : List Char}
    (h : t.standsBefore rest.head? = true) :
    scanToken (t.written.toList ++ rest) = some (t, rest) := by
  cases t with
  | name w => exact scanToken_name h
  | number => cases h
  | text raw value =>
    have hraw : raw.toList = Quoted.encodeChars value.toList := by
      simpa [Token.standsBefore] using h
    exact scanToken_text (hraw ▸ Quoted.spells_encodeChars value.toList)
  | rawText => cases h
  | symbol s => exact scanToken_symbol h

/-- The characters with which no token begins. -/
def layoutChars : List Char := ['\x00', ' ', '\t', '\n', '\r', '#']

private theorem lexFrom_token {fuel : Nat} {g : Gap} {before : List Char} {c : Char}
    {cs : List Char} (h : c ∉ layoutChars) :
    lexFrom (fuel + 1) g before (c :: cs) =
      match scanToken (c :: cs) with
      | some (token, rest) =>
        (lexFrom fuel token.gapAfter [] rest).map (⟨g, String.ofList before, token⟩ :: ·)
      | none => none := by
  simp only [layoutChars, List.mem_cons, List.not_mem_nil, or_false, not_or] at h
  obtain ⟨h0, h1, h2, h3, h4, h5⟩ := h
  cases hscan : scanToken (c :: cs) with
  | none => simp [lexFrom, h0, h1, h2, h3, h4, h5, hscan]
  | some found => simp [lexFrom, h0, h1, h2, h3, h4, h5, hscan]

private theorem isNameStart_notLayout {c : Char} (h : isNameStart c = true) :
    c ∉ layoutChars := by
  intro hc
  simp only [layoutChars, List.mem_cons, List.not_mem_nil, or_false] at hc
  rcases hc with rfl | rfl | rfl | rfl | rfl | rfl <;> cases h

theorem written_cons {t : Token} {next : Option Char} (h : t.standsBefore next = true) :
    ∃ c cs, t.written.toList = c :: cs ∧ c ∉ layoutChars := by
  cases t with
  | name w =>
    rw [Token.standsBefore, Bool.and_eq_true, isWord] at h
    obtain ⟨hw, _⟩ := h
    split at hw
    · cases hw
    · next c cs hcs =>
      rw [Bool.and_eq_true] at hw
      exact ⟨c, cs, hcs, isNameStart_notLayout hw.1⟩
  | number => cases h
  | text raw value => exact ⟨'"', raw.toList ++ ['"'], by simp [Token.written], by decide⟩
  | rawText => cases h
  | symbol s => cases s <;> exact ⟨_, _, rfl, by decide⟩

theorem gapAfter_of_standsBefore {t : Token} {next : Option Char}
    (h : t.standsBefore next = true) : t.gapAfter = .adjacent := by
  cases t <;> first | rfl | cases h

/-- A text has these lexemes, with enough fuel, after a gap and what was already read of it. -/
def Lexes (g : Gap) (before cs : List Char) (lexemes : List Lexeme) : Prop :=
  ∀ fuel, cs.length < fuel → lexFrom fuel g before cs = some lexemes

namespace Lexes

theorem nil (g : Gap) (before : List Char) : Lexes g before [] [] := by
  intro fuel h
  cases fuel with
  | zero => cases h
  | succ fuel => rfl

private theorem blanks {g : Gap} {before bs cs : List Char} {ls : List Lexeme}
    (hb : (bs.all fun c => c = ' ' || c = '\n') = true)
    (h : Lexes (gapAcross g bs) (before ++ bs) cs ls) : Lexes g before (bs ++ cs) ls := by
  induction bs generalizing g before with
  | nil => simpa [gapAcross] using h
  | cons b bs ih =>
    rw [List.all_cons, Bool.and_eq_true] at hb
    -- the gap moves on with each blank, in the lexer as in `gapAcross`
    have hrest : Lexes (if b = '\n' then .newline else g.addBlank) (before ++ [b]) (bs ++ cs) ls :=
      ih hb.2 (by simpa [gapAcross] using h)
    intro fuel hfuel
    rw [List.cons_append, List.length_cons] at hfuel
    obtain ⟨fuel, rfl⟩ : ∃ n, fuel = n + 1 := ⟨fuel - 1, by omega⟩
    have hstep := hrest fuel (by omega)
    have hblank : b = ' ' ∨ b = '\n' := by simpa using hb.1
    rcases hblank with rfl | rfl
    · exact hstep
    · exact hstep

/-- A token in front, with the gap before it and what was read of that gap. -/
theorem scanned {g : Gap} {before : List Char} {t : Token} {c : Char} {cs rest : List Char}
    {ls : List Lexeme} (hc : c ∉ layoutChars) (hgap : t.gapAfter = .adjacent)
    (hscan : scanToken (c :: cs ++ rest) = some (t, rest)) (h : Lexes .adjacent [] rest ls) :
    Lexes g before (c :: cs ++ rest) (⟨g, String.ofList before, t⟩ :: ls) := by
  intro fuel hfuel
  rw [List.cons_append] at hfuel hscan ⊢
  rw [List.length_cons, List.length_append] at hfuel
  obtain ⟨fuel, rfl⟩ : ∃ n, fuel = n + 1 := ⟨fuel - 1, by omega⟩
  rw [lexFrom_token hc, hscan]
  change (lexFrom fuel t.gapAfter [] rest).map _ = _
  rw [hgap, h fuel (by omega)]
  rfl

private theorem token {g : Gap} {before : List Char} {t : Token} {rest : List Char}
    {ls : List Lexeme} (ht : t.standsBefore rest.head? = true) (h : Lexes .adjacent [] rest ls) :
    Lexes g before (t.written.toList ++ rest) (⟨g, String.ofList before, t⟩ :: ls) := by
  obtain ⟨c, cs, hcs, hc⟩ := written_cons ht
  have hscan := scanToken_written ht
  rw [hcs] at hscan ⊢
  exact scanned hc (gapAfter_of_standsBefore ht) hscan h

/-- A lexeme in front of what is read after it, with what was already read of the gap before it. -/
theorem cons_append {g : Gap} {before rest : List Char} {l : Lexeme} {ls rs : List Lexeme}
    (h : standBefore g (l :: ls) rest.head? = true)
    (htail : Lexes .adjacent [] (Policy.spelling ls ++ rest) (ls ++ rs)) :
    Lexes g before (Policy.spelling (l :: ls) ++ rest)
      (⟨l.gap, String.ofList before ++ l.before, l.token⟩ :: (ls ++ rs)) := by
  simp only [standBefore, Bool.and_eq_true, decide_eq_true_eq] at h
  obtain ⟨⟨⟨hblank, hgap⟩, hstands⟩, -⟩ := h
  have hnext : ((Policy.spelling ls).head?.or rest.head?) =
      (Policy.spelling ls ++ rest).head? := by
    cases Policy.spelling ls <;> rfl
  have htoken : Lexes l.gap (before ++ l.before.toList)
      (l.token.written.toList ++ (Policy.spelling ls ++ rest))
      (⟨l.gap, String.ofList (before ++ l.before.toList), l.token⟩ :: (ls ++ rs)) :=
    token (hnext ▸ hstands) htail
  rw [String.ofList_append, String.ofList_toList, hgap] at htoken
  rw [spelling_cons, List.append_assoc, List.append_assoc, hgap]
  exact blanks hblank htoken

/-- Lexemes that may stand where they do are read back from their spelling, before whatever is read
after them. -/
theorem spelling_append {g : Gap} {ls rs : List Lexeme} {rest : List Char}
    (h : standBefore g ls rest.head? = true)
    (hrest : Lexes (if ls.isEmpty then g else .adjacent) [] rest rs) :
    Lexes g [] (Policy.spelling ls ++ rest) (ls ++ rs) := by
  induction ls generalizing g with
  | nil => exact hrest
  | cons l ls ih =>
    have hstand : standBefore .adjacent ls rest.head? = true := by
      rw [standBefore, Bool.and_eq_true] at h
      exact h.2
    have htail : Lexes .adjacent [] (Policy.spelling ls ++ rest) (ls ++ rs) := by
      refine ih hstand ?_
      rw [ite_self]
      exact hrest
    have hcons : Lexes g [] _ _ := cons_append h htail
    rwa [String.ofList_nil, String.empty_append] at hcons

/-- Blanks at the end of a text belong to no lexeme. -/
theorem spelling {g : Gap} {ls : List Lexeme} {trailing : List Char}
    (h : standBefore g ls trailing.head? = true)
    (ht : (trailing.all fun c => c = ' ' || c = '\n') = true) :
    Lexes g [] (Policy.spelling ls ++ trailing) ls := by
  have hend (g' : Gap) : Lexes g' [] (trailing ++ []) [] := blanks ht (nil _ _)
  simp only [List.append_nil] at hend
  have hall := spelling_append h (hend _)
  rwa [List.append_nil] at hall

end Lexes

theorem lex_spelling {source : String} {ls : List Lexeme} {trailing : List Char}
    (hs : source.toList = spelling ls ++ trailing)
    (h : standBefore .newline ls trailing.head? = true)
    (ht : (trailing.all fun c => c = ' ' || c = '\n') = true) : lex source = some ls := by
  rw [lex, hs]
  exact Lexes.spelling h ht _ (Nat.lt_succ_self _)

/-- Lexemes stand where they do when the first part stands before what the rest begins with. -/
theorem standBefore_append {g : Gap} {a b : List Lexeme} {next : Option Char} (ha : a ≠ []) :
    standBefore g (a ++ b) next =
      (standBefore g a ((spelling b).head?.or next) && standBefore .adjacent b next) := by
  induction a generalizing g with
  | nil => exact absurd rfl ha
  | cons l a ih =>
    -- only the last lexeme of `a` is followed by what `b` begins with
    cases a with
    | nil => simp [standBefore]
    | cons l' a =>
      have hhead : (spelling ((l' :: a) ++ b)).head?.or next =
          (spelling (l' :: a)).head?.or ((spelling b).head?.or next) := by
        rw [spelling_append]
        cases spelling (l' :: a) <;> rfl
      rw [List.cons_append, standBefore, hhead, ih (List.cons_ne_nil _ _)]
      conv => rhs; rw [standBefore]
      simp only [Bool.and_assoc]

/-- Whether lexemes begin on a new line, if there are any, and may stand before another line. -/
def AreLines (ls : List Lexeme) : Prop :=
  standBefore .adjacent ls (some '\n') = true ∧ (spelling ls).head?.or (some '\n') = some '\n'

namespace AreLines

theorem nil : AreLines [] := ⟨rfl, rfl⟩

theorem append {a b : List Lexeme} (ha : AreLines a) (hb : AreLines b) : AreLines (a ++ b) := by
  by_cases hnil : a = []
  · rwa [hnil, List.nil_append]
  · refine ⟨?_, ?_⟩
    · rw [standBefore_append hnil, hb.2, ha.1, hb.1]
      rfl
    · rw [spelling_append, List.head?_append, Option.or_assoc, hb.2, ha.2]

theorem flatMap {α : Type} {line : α → List Lexeme} {xs : List α}
    (h : ∀ x ∈ xs, AreLines (line x)) : AreLines (xs.flatMap line) := by
  induction xs with
  | nil => exact nil
  | cons x xs ih =>
    rw [List.flatMap_cons]
    exact (h x List.mem_cons_self).append (ih fun y hy => h y (List.mem_cons_of_mem _ hy))

end AreLines

/-- The lexemes of a text that is a first line and others below it, with a line feed at its end. -/
theorem lex_lines {source : String} {first lines : List Lexeme} (hne : first ≠ [])
    (hs : source.toList = spelling (first ++ lines) ++ ['\n'])
    (hfirst : standBefore .newline first (some '\n') = true) (hlines : AreLines lines) :
    lex source = some (first ++ lines) := by
  refine lex_spelling hs ?_ rfl
  rw [standBefore_append hne, List.head?_cons, hlines.2, hfirst, hlines.1]
  rfl

/-- Texts that each end a line, in the place of the lexemes that each begin one. -/
theorem lineFeed_join {α : Type} {text : α → String} {line : α → List Lexeme}
    (h : ∀ x, '\n' :: (text x).toList = spelling (line x) ++ ['\n']) (xs : List α) :
    '\n' :: (String.join (xs.map text)).toList = spelling (xs.flatMap line) ++ ['\n'] := by
  induction xs with
  | nil => rfl
  | cons x xs ih =>
    have hx := congrArg (· ++ (String.join (xs.map text)).toList) (h x)
    simp only [List.cons_append, List.append_assoc, List.nil_append] at hx
    rw [List.map_cons, String.join_cons, String.toList_append, hx, ih, List.flatMap_cons,
      spelling_append, List.append_assoc]

end PolicySync.Policy
