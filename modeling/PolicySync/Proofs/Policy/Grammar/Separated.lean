import PolicySync.Proofs.Policy.Grammar.Literal

/-!
# Literals are read back

Scalars, arrays, sets and objects are read from their tokens, whatever gaps are between these. The
parts have a comma between two of them, and a last comma may stand alone.
-/

namespace PolicySync.Policy

variable {k : Keywords} {closing : Symbol} {rest : List Lexeme} {a b ts : List Token}
  {e key value : Expr}
  {es : List Expr} {fields : List (Expr × Expr)}

/-- Whether lexemes with some tokens are read as a term. -/
def ReadsTokens (k : Keywords) (ts : List Token) (e : Expr) : Prop :=
  ∀ ls : List Lexeme, ls.map Lexeme.token = ts → ReadsTerm k ls e

/-- Whether some tokens and a closing symbol are read as what `read` makes of the parts after the
first, each with a comma before it. -/
structure ReadsMore {α : Type} (read : Nat → List Lexeme → Option (α × List Lexeme))
    (closing : Symbol) (ts : List Token) (parts : α) : Prop where
  comma : (ts.head?.all fun t => t = .symbol .comma) = true
  reads : ∀ (ls rest : List Lexeme) (fuel : Nat),
    ls.map Lexeme.token = ts ++ [.symbol closing] → 10 * ls.length ≤ fuel →
      read fuel (ls ++ rest) = some (parts, rest)

abbrev ReadsMoreItems (k : Keywords) (closing : Symbol) (ts : List Token) (es : List Expr) : Prop :=
  ReadsMore (fun fuel => readMoreItems k fuel closing) closing ts es

abbrev ReadsMoreFields (k : Keywords) (ts : List Token) (fields : List (Expr × Expr)) : Prop :=
  ReadsMore (readMoreFields k) .braceClose ts fields

section

variable {α : Type} {read : Nat → List Lexeme → Option (α × List Lexeme)} {parts : α}
  {ls : List Lexeme}

/-- What comes after a part is a comma or the closing symbol. -/
private theorem ReadsMore.begins (h : ReadsMore read closing ts parts)
    (hls : ls.map Lexeme.token = ts ++ [.symbol closing]) :
    ∃ g before s tail, ls = ⟨g, before, .symbol s⟩ :: tail ∧ (s = .comma ∨ s = closing) := by
  cases ls with
  | nil => cases ts <;> cases hls
  | cons l tail =>
    obtain ⟨g, before, token⟩ := l
    cases ts with
    | nil =>
      cases (List.cons.inj hls).1
      exact ⟨g, before, closing, tail, rfl, .inr rfl⟩
    | cons t ts =>
      have ht : t = .symbol .comma := by simpa using h.comma
      cases (List.cons.inj hls).1.trans ht
      exact ⟨g, before, .comma, tail, rfl, .inl rfl⟩

/-- A term ends before the next part and before the closing symbol. -/
theorem ReadsMore.ends (h : ReadsMore read closing ts parts) (hclosing : closing.closes = true)
    (hls : ls.map Lexeme.token = ts ++ [.symbol closing]) : endsTerm (ls ++ rest) = true := by
  obtain ⟨g, before, s, tail, rfl, rfl | rfl⟩ := h.begins hls
  · rfl
  · cases s <;> first | rfl | cases hclosing

theorem ReadsMore.expect_colon (h : ReadsMore read closing ts parts)
    (hclosing : closing.closes = true) (hls : ls.map Lexeme.token = ts ++ [.symbol closing]) :
    expect .colon (ls ++ rest) = none := by
  obtain ⟨g, before, s, tail, rfl, rfl | rfl⟩ := h.begins hls
  · rfl
  · cases s <;> first | rfl | cases hclosing

end

private theorem eq_singleton {ls : List Lexeme} {t : Token} (h : ls.map Lexeme.token = [t]) :
    ∃ g before, ls = [⟨g, before, t⟩] := by
  obtain ⟨l, rfl, hl⟩ := List.map_eq_singleton_iff.mp h
  exact ⟨l.gap, l.before, by rw [← hl]⟩

private theorem eq_cons {ls : List Lexeme} {t : Token} (h : ls.map Lexeme.token = t :: ts) :
    ∃ g before tail, ls = ⟨g, before, t⟩ :: tail ∧ tail.map Lexeme.token = ts := by
  obtain ⟨l, tail, rfl, hl, htail⟩ := List.map_eq_cons_iff.mp h
  exact ⟨l.gap, l.before, tail, by rw [← hl], htail⟩

namespace ReadsTokens

theorem number (negative : Bool) (digits : String) :
    ReadsTokens k [.number negative digits] (.scalar (signed negative digits)) := by
  intro ls hls rest fuel hrest hfuel
  obtain ⟨g, before, rfl⟩ := eq_singleton hls
  obtain ⟨fuel, rfl⟩ : ∃ n, fuel = n + 2 := ⟨fuel - 2, by simp at hfuel; omega⟩
  exact readPath_ends hrest fuel false _

theorem word {w : String} (hw : w = "null" ∨ w = "true" ∨ w = "false") :
    ReadsTokens k [.name w] (.scalar w) := by
  intro ls hls rest fuel hrest hfuel
  obtain ⟨g, before, rfl⟩ := eq_singleton hls
  obtain ⟨fuel, rfl⟩ : ∃ n, fuel = n + 2 := ⟨fuel - 2, by simp at hfuel; omega⟩
  have hend := readPath_ends (k := k) hrest fuel false (.scalar w)
  rcases hw with rfl | rfl | rfl
  all_goals exact hend

theorem text (raw value : String) : ReadsTokens k [.text raw value] (.quoted raw value) := by
  intro ls hls
  obtain ⟨g, before, rfl⟩ := eq_singleton hls
  exact ReadsTerm.quoted g before raw value

theorem emptyArray :
    ReadsTokens k [.symbol .bracketOpen, .symbol .bracketClose] (.array []) := by
  intro ls hls rest fuel hrest hfuel
  obtain ⟨g, before, tail, rfl, htail⟩ := eq_cons hls
  obtain ⟨g', before', rfl⟩ := eq_singleton htail
  obtain ⟨fuel, rfl⟩ : ∃ n, fuel = n + 3 := ⟨fuel - 3, by simp at hfuel; omega⟩
  exact readPath_ends hrest (fuel + 1) false _

theorem emptyObject :
    ReadsTokens k [.symbol .braceOpen, .symbol .braceClose] (.object []) := by
  intro ls hls rest fuel hrest hfuel
  obtain ⟨g, before, tail, rfl, htail⟩ := eq_cons hls
  obtain ⟨g', before', rfl⟩ := eq_singleton htail
  obtain ⟨fuel, rfl⟩ : ∃ n, fuel = n + 3 := ⟨fuel - 3, by simp at hfuel; omega⟩
  exact readPath_ends hrest (fuel + 1) false _

theorem emptySet : ReadsTokens k [.symbol .setOpen, .symbol .parenClose] (.set []) := by
  intro ls hls rest fuel hrest hfuel
  obtain ⟨g, before, tail, rfl, htail⟩ := eq_cons hls
  obtain ⟨g', before', rfl⟩ := eq_singleton htail
  obtain ⟨fuel, rfl⟩ : ∃ n, fuel = n + 2 := ⟨fuel - 2, by simp at hfuel; omega⟩
  exact readPath_ends hrest fuel false _

end ReadsTokens

namespace ReadsMore

theorem noItems (hclosing : closing.closes = true) : ReadsMoreItems k closing [] [] where
  comma := rfl
  reads ls rest fuel hls hfuel := by
    obtain ⟨g, before, rfl⟩ := eq_singleton hls
    obtain ⟨fuel, rfl⟩ : ∃ n, fuel = n + 1 := ⟨fuel - 1, by simp at hfuel; omega⟩
    cases closing <;> first | rfl | cases hclosing

/-- A last comma before the closing symbol. -/
theorem lastItem : ReadsMoreItems k closing [.symbol .comma] [] where
  comma := rfl
  reads ls rest fuel hls hfuel := by
    obtain ⟨g, before, tail, rfl, htail⟩ := eq_cons hls
    obtain ⟨g', before', rfl⟩ := eq_singleton htail
    obtain ⟨fuel, rfl⟩ : ∃ n, fuel = n + 2 := ⟨fuel - 2, by simp at hfuel; omega⟩
    have hclose : expect closing ([⟨g', before', .symbol closing⟩] ++ rest) = some rest :=
      if_pos rfl
    change readItems k (fuel + 1) closing ([⟨g', before', .symbol closing⟩] ++ rest) = _
    unfold readItems
    rw [hclose]

theorem item (hclosing : closing.closes = true) (he : ReadsTokens k a e)
    (hmore : ReadsMoreItems k closing b es) :
    ReadsMoreItems k closing (.symbol .comma :: (a ++ b)) (e :: es) where
  comma := rfl
  reads ls rest fuel hls hfuel := by
    rw [List.cons_append, List.append_assoc] at hls
    obtain ⟨g, before, tail, rfl, htail⟩ := eq_cons hls
    obtain ⟨la, lb, rfl, ha, hb⟩ := List.map_eq_append_iff.mp htail
    have hterm := he la ha
    have hends : endsTerm (lb ++ rest) = true := hmore.ends hclosing hb
    rw [List.length_cons, List.length_append] at hfuel
    obtain ⟨fuel, rfl⟩ : ∃ n, fuel = n + 2 := ⟨fuel - 2, by omega⟩
    have hitems : readItems k (fuel + 1) closing (la ++ (lb ++ rest)) = some (e :: es, rest) := by
      unfold readItems
      rw [expect_closes_of_reads hterm hends hclosing, readExpr_of_reads hterm hends (by omega)]
      change (readMoreItems k fuel closing (lb ++ rest) >>= _) = _
      rw [hmore.reads lb rest fuel hb (by omega)]
      rfl
    rw [List.cons_append, List.append_assoc]
    exact hitems

theorem noFields : ReadsMoreFields k [] [] where
  comma := rfl
  reads ls rest fuel hls hfuel := by
    obtain ⟨g, before, rfl⟩ := eq_singleton hls
    obtain ⟨fuel, rfl⟩ : ∃ n, fuel = n + 1 := ⟨fuel - 1, by simp at hfuel; omega⟩
    rfl

/-- A last comma before the brace. -/
theorem lastField : ReadsMoreFields k [.symbol .comma] [] where
  comma := rfl
  reads ls rest fuel hls hfuel := by
    obtain ⟨g, before, tail, rfl, htail⟩ := eq_cons hls
    obtain ⟨g', before', rfl⟩ := eq_singleton htail
    obtain ⟨fuel, rfl⟩ : ∃ n, fuel = n + 1 := ⟨fuel - 1, by simp at hfuel; omega⟩
    rfl

theorem field (hkey : ReadsTokens k a key) (hvalue : ReadsTokens k b value)
    (hmore : ReadsMoreFields k ts fields) :
    ReadsMoreFields k (.symbol .comma :: (a ++ .symbol .colon :: (b ++ ts)))
      ((key, value) :: fields) where
  comma := rfl
  reads ls rest fuel hls hfuel := by
    rw [List.cons_append, List.append_assoc, List.cons_append, List.append_assoc] at hls
    obtain ⟨g, before, tail, rfl, htail⟩ := eq_cons hls
    obtain ⟨la, second, rfl, ha, hsecond⟩ := List.map_eq_append_iff.mp htail
    obtain ⟨g', before', third, rfl, hthird⟩ := eq_cons hsecond
    obtain ⟨lb, lmore, rfl, hb, hmore'⟩ := List.map_eq_append_iff.mp hthird
    have hkeyTerm := hkey la ha
    have hvalueTerm := hvalue lb hb
    have hends : endsTerm (lmore ++ rest) = true := hmore.ends rfl hmore'
    simp only [List.length_cons, List.length_append] at hfuel
    obtain ⟨fuel, rfl⟩ : ∃ n, fuel = n + 1 := ⟨fuel - 1, by omega⟩
    have htokens : (⟨g, before, .symbol .comma⟩ :: (la ++ ⟨g', before', .symbol .colon⟩ ::
        (lb ++ lmore))) ++ rest = ⟨g, before, .symbol .comma⟩ ::
          (la ++ ⟨g', before', .symbol .colon⟩ :: (lb ++ (lmore ++ rest))) := by
      simp
    have hcomma (tokens : List Lexeme) :
        expect .comma (⟨g, before, .symbol .comma⟩ :: tokens) = some tokens := rfl
    rw [htokens]
    unfold readMoreFields
    simp only [hcomma]
    rw [expect_closes_of_reads hkeyTerm rfl rfl]
    simp only [Option.bind_eq_bind]
    rw [readExpr_of_reads hkeyTerm rfl (by omega)]
    change ((readExpr k fuel (lb ++ (lmore ++ rest))).bind _) = _
    rw [readExpr_of_reads hvalueTerm hends (by omega)]
    change ((readMoreFields k fuel (lmore ++ rest)).bind _) = _
    rw [hmore.reads lmore rest fuel hmore' (by omega)]
    rfl

end ReadsMore

namespace ReadsTokens

/-- An array of at least one item. -/
theorem array (he : ReadsTokens k a e) (hmore : ReadsMoreItems k .bracketClose b es) :
    ReadsTokens k (.symbol .bracketOpen :: (a ++ (b ++ [.symbol .bracketClose])))
      (.array (e :: es)) := by
  intro ls hls rest fuel hrest hfuel
  obtain ⟨g, before, tail, rfl, htail⟩ := eq_cons hls
  obtain ⟨la, lb, rfl, ha, hb⟩ := List.map_eq_append_iff.mp htail
  have hterm := he la ha
  have hends : endsTerm (lb ++ rest) = true := hmore.ends rfl hb
  have hlength := one_le_length_of_reads hterm
  rw [List.length_cons, List.length_append] at hfuel
  obtain ⟨fuel, rfl⟩ : ∃ n, fuel = n + 4 := ⟨fuel - 4, by omega⟩
  -- the first item is read as a term, since a comprehension might still follow it
  have hbrackets : readBrackets k (fuel + 3) (la ++ (lb ++ rest)) =
      some (.array (e :: es), rest) := by
    unfold readBrackets
    rw [expect_closes_of_reads hterm hends rfl]
    simp only [Option.bind_eq_bind]
    rw [hterm _ _ hends (by omega)]
    simp only [Option.bind_some]
    rw [readComprehension_ends hends]
    simp only
    rw [finishExpr_ends hends]
    change (readMoreItems k (fuel + 2) .bracketClose (lb ++ rest) >>= _) = _
    rw [hmore.reads lb rest _ hb (by omega)]
    rfl
  rw [List.cons_append, List.append_assoc]
  change (readBrackets k (fuel + 3) _ >>= _) = _
  rw [hbrackets]
  exact readPath_ends hrest _ false _

/-- A set of at least one item. -/
theorem set (he : ReadsTokens k a e) (hmore : ReadsMoreItems k .braceClose b es) :
    ReadsTokens k (.symbol .braceOpen :: (a ++ (b ++ [.symbol .braceClose])))
      (.set (e :: es)) := by
  intro ls hls rest fuel hrest hfuel
  obtain ⟨g, before, tail, rfl, htail⟩ := eq_cons hls
  obtain ⟨la, lb, rfl, ha, hb⟩ := List.map_eq_append_iff.mp htail
  have hterm := he la ha
  have hends : endsTerm (lb ++ rest) = true := hmore.ends rfl hb
  have hcolon : expect .colon (lb ++ rest) = none := hmore.expect_colon rfl hb
  have hlength := one_le_length_of_reads hterm
  rw [List.length_cons, List.length_append] at hfuel
  obtain ⟨fuel, rfl⟩ : ∃ n, fuel = n + 4 := ⟨fuel - 4, by omega⟩
  have hbraces : readBraces k (fuel + 3) (la ++ (lb ++ rest)) = some (.set (e :: es), rest) := by
    unfold readBraces
    rw [expect_closes_of_reads hterm hends rfl]
    simp only [Option.bind_eq_bind]
    rw [hterm _ _ hends (by omega)]
    simp only [Option.bind_some]
    rw [readComprehension_ends hends]
    simp only
    rw [finishExpr_ends hends]
    simp only [Option.bind_some]
    rw [hcolon]
    change (readMoreItems k (fuel + 2) .braceClose (lb ++ rest) >>= _) = _
    rw [hmore.reads lb rest _ hb (by omega)]
    rfl
  rw [List.cons_append, List.append_assoc]
  change (readBraces k (fuel + 3) _ >>= _) = _
  rw [hbraces]
  exact readPath_ends hrest _ false _

/-- An object of at least one field. -/
theorem object (hkey : ReadsTokens k a key) (hvalue : ReadsTokens k b value)
    (hmore : ReadsMoreFields k ts fields) :
    ReadsTokens k (.symbol .braceOpen ::
        (a ++ .symbol .colon :: (b ++ (ts ++ [.symbol .braceClose]))))
      (.object ((key, value) :: fields)) := by
  intro ls hls rest fuel hrest hfuel
  obtain ⟨g, before, tail, rfl, htail⟩ := eq_cons hls
  obtain ⟨la, second, rfl, ha, hsecond⟩ := List.map_eq_append_iff.mp htail
  obtain ⟨g', before', third, rfl, hthird⟩ := eq_cons hsecond
  obtain ⟨lb, lmore, rfl, hb, hmore'⟩ := List.map_eq_append_iff.mp hthird
  have hkeyTerm := hkey la ha
  have hvalueTerm := hvalue lb hb
  have hends : endsTerm (lmore ++ rest) = true := hmore.ends rfl hmore'
  have hlength := one_le_length_of_reads hkeyTerm
  simp only [List.length_cons, List.length_append] at hfuel
  obtain ⟨fuel, rfl⟩ : ∃ n, fuel = n + 4 := ⟨fuel - 4, by omega⟩
  have htokens : (⟨g, before, .symbol .braceOpen⟩ :: (la ++ ⟨g', before', .symbol .colon⟩ ::
      (lb ++ lmore))) ++ rest = ⟨g, before, .symbol .braceOpen⟩ ::
        (la ++ ⟨g', before', .symbol .colon⟩ :: (lb ++ (lmore ++ rest))) := by
    simp
  -- the key and the value of the first field are read as terms, the others as expressions
  have hbraces : readBraces k (fuel + 3)
      (la ++ ⟨g', before', .symbol .colon⟩ :: (lb ++ (lmore ++ rest))) =
        some (.object ((key, value) :: fields), rest) := by
    unfold readBraces
    rw [expect_closes_of_reads hkeyTerm rfl rfl]
    simp only [Option.bind_eq_bind]
    rw [hkeyTerm _ _ rfl (by omega)]
    simp only [Option.bind_some]
    rw [readComprehension_ends rfl]
    simp only
    rw [finishExpr_ends rfl]
    change ((readTerm k (fuel + 2) (lb ++ (lmore ++ rest))).bind _) = _
    rw [hvalueTerm _ _ hends (by omega)]
    simp only [Option.bind_some]
    rw [readComprehension_ends hends]
    simp only
    rw [finishExpr_ends hends]
    change ((readMoreFields k (fuel + 2) (lmore ++ rest)).bind _) = _
    rw [hmore.reads lmore rest _ hmore' (by omega)]
    rfl
  rw [htokens]
  change (readBraces k (fuel + 3) _ >>= _) = _
  rw [hbraces]
  exact readPath_ends hrest _ false _

end ReadsTokens

/-! ## Parts that each have a comma after them -/

section

variable {α : Type} {xs : List α} {item left right : α → List Token} {value name : α → Expr}

private theorem readsMoreItems_listed (hclosing : closing.closes = true)
    (h : ∀ x ∈ xs, ReadsTokens k (item x) (value x)) :
    ReadsMoreItems k closing (.symbol .comma :: xs.flatMap fun x => item x ++ [.symbol .comma])
      (xs.map value) := by
  induction xs with
  | nil => exact .lastItem
  | cons x xs ih =>
    obtain ⟨hx, hxs⟩ := List.forall_mem_cons.mp h
    have hitems := (ih hxs).item hclosing hx
    rw [List.flatMap_cons, List.append_assoc]
    exact hitems

/-- A set of at least one item. -/
theorem ReadsTokens.listedSet {x : α} (hx : ReadsTokens k (item x) (value x))
    (h : ∀ y ∈ xs, ReadsTokens k (item y) (value y)) :
    ReadsTokens k (.symbol .braceOpen ::
        ((x :: xs).flatMap (fun y => item y ++ [.symbol .comma]) ++ [.symbol .braceClose]))
      (.set ((x :: xs).map value)) := by
  have hset := hx.set (readsMoreItems_listed rfl h)
  rw [List.flatMap_cons, List.append_assoc, List.append_assoc]
  exact hset

private theorem readsMoreFields_listed
    (h : ∀ x ∈ xs, ReadsTokens k (left x) (name x) ∧ ReadsTokens k (right x) (value x)) :
    ReadsMoreFields k
      (.symbol .comma ::
        xs.flatMap fun x => left x ++ .symbol .colon :: (right x ++ [.symbol .comma]))
      (xs.map fun x => (name x, value x)) := by
  induction xs with
  | nil => exact .lastField
  | cons x xs ih =>
    obtain ⟨⟨hname, hvalue⟩, hxs⟩ := List.forall_mem_cons.mp h
    have hfields := ReadsMore.field hname hvalue (ih hxs)
    simpa using hfields

theorem ReadsTokens.listedObject
    (h : ∀ x ∈ xs, ReadsTokens k (left x) (name x) ∧ ReadsTokens k (right x) (value x)) :
    ReadsTokens k (.symbol .braceOpen ::
        (xs.flatMap (fun x => left x ++ .symbol .colon :: (right x ++ [.symbol .comma])) ++
          [.symbol .braceClose]))
      (.object (xs.map fun x => (name x, value x))) := by
  cases xs with
  | nil => exact ReadsTokens.emptyObject
  | cons x xs =>
    obtain ⟨⟨hname, hvalue⟩, hxs⟩ := List.forall_mem_cons.mp h
    have hobject := hname.object hvalue (readsMoreFields_listed hxs)
    simpa using hobject

end

end PolicySync.Policy
