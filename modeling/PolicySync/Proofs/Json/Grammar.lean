import PolicySync.Json.Parser
import PolicySync.Proofs.Text.Decimal
import PolicySync.Proofs.Text.Quoted

/-!
# The grammar of JSON

What a JSON value may be written as, over any notion of blanks. Reading a text accepts exactly the
texts of the grammar whose arrays and objects do not nest too deep, and gives the value written with
its members sorted, the last of those with one key.
-/

namespace PolicySync.Json

open PolicySync.Text

/-- A text with blanks around it. -/
def Between (blank p : List Char → Prop) (cs : List Char) : Prop :=
  ∃ before text after, blank before ∧ p text ∧ blank after ∧ cs = before ++ (text ++ after)

/-- A text between double quotes, with any escapes. -/
def SpellsText (s : String) (cs : List Char) : Prop :=
  ∃ raw, Quoted.Spells s.toList raw ∧ cs = '"' :: (raw ++ ['"'])

/-- A number with any digits, fraction and exponent, as long as it is read. -/
def WrittenNumber (n : Number) (cs : List Char) : Prop :=
  ∃ (negative : Bool) (d : Decimal) (digits : List Char), d.Spells digits ∧
    numberOf? negative d = some n ∧ cs = if negative then '-' :: digits else digits

section

variable (blank : List Char → Prop)

mutual

/-- Whether a text shows a JSON value, its members in the order of the text, with blanks between any
two parts. -/
def Written : Json → List Char → Prop
  | .null, cs => cs = "null".toList
  | .bool b, cs => cs = (if b then "true" else "false").toList
  | .number n, cs => WrittenNumber n cs
  | .string s, cs => SpellsText s cs
  | .array [], cs => ∃ gap, blank gap ∧ cs = '[' :: (gap ++ [']'])
  | .array (item :: rest), cs =>
    ∃ first more, Between blank (Written item) first ∧ WrittenItems rest more ∧
      cs = '[' :: (first ++ (more ++ [']']))
  | .object [], cs => ∃ gap, blank gap ∧ cs = '\x7b' :: (gap ++ ['\x7d'])
  | .object ((key, value) :: rest), cs =>
    ∃ name shown more, Between blank (SpellsText key) name ∧ Between blank (Written value) shown ∧
      WrittenMembers rest more ∧ cs = '\x7b' :: (name ++ ':' :: (shown ++ (more ++ ['\x7d'])))

/-- The items of an array after the first. -/
def WrittenItems : List Json → List Char → Prop
  | [], cs => cs = []
  | item :: rest, cs =>
    ∃ shown more, Between blank (Written item) shown ∧ WrittenItems rest more ∧
      cs = ',' :: (shown ++ more)

/-- The members of an object after the first. -/
def WrittenMembers : List (String × Json) → List Char → Prop
  | [], cs => cs = []
  | (key, value) :: rest, cs =>
    ∃ name shown more, Between blank (SpellsText key) name ∧ Between blank (Written value) shown ∧
      WrittenMembers rest more ∧ cs = ',' :: (name ++ ':' :: (shown ++ more))

end

end

mutual

/-- The value with the members of all objects sorted by key, the last of those with one key. -/
def normal : Json → Json
  | .array items => .array (normalItems items)
  | .object members => ofMembers (normalMembers members)
  | .null => .null
  | .bool b => .bool b
  | .number n => .number n
  | .string s => .string s

def normalItems : List Json → List Json
  | [] => []
  | item :: rest => item.normal :: normalItems rest

def normalMembers : List (String × Json) → List (String × Json)
  | [] => []
  | (key, value) :: rest => (key, value.normal) :: normalMembers rest

end

mutual

/-- How deep arrays and objects nest. -/
def nesting : Json → Nat
  | .array items => nestingItems items + 1
  | .object members => nestingMembers members + 1
  | .null => 0
  | .bool _ => 0
  | .number _ => 0
  | .string _ => 0

def nestingItems : List Json → Nat
  | [] => 0
  | item :: rest => max item.nesting (nestingItems rest)

def nestingMembers : List (String × Json) → Nat
  | [] => 0
  | (_, value) :: rest => max value.nesting (nestingMembers rest)

end

/-- The white space of JSON. -/
def IsSpaces (cs : List Char) : Prop := cs.all isSpace = true

/-- Whether a text holds a JSON value. -/
def Shows (text : String) (w : Json) : Prop :=
  Between IsSpaces (Written IsSpaces w) text.toList

section

variable {cs before rest : List Char} {c : Char}

theorem skipSpace_append (h : IsSpaces before) (hc : isSpace c = false) :
    skipSpace (before ++ c :: rest) = c :: rest :=
  dropWhile_append_stop h (by simp [hc])

private theorem skipSpace_spaces (h : IsSpaces cs) : skipSpace cs = [] := by
  have hdrop : (cs ++ []).dropWhile isSpace = [] := dropWhile_append_stop h rfl
  rwa [List.append_nil] at hdrop

/-- What is skipped is white space. -/
theorem exists_spaces (cs : List Char) : ∃ before, IsSpaces before ∧ cs = before ++ skipSpace cs :=
  ⟨cs.takeWhile isSpace, List.all_takeWhile, List.takeWhile_append_dropWhile.symm⟩

private theorem isSpaces_append {a b : List Char} (ha : IsSpaces a) (hb : IsSpaces b) :
    IsSpaces (a ++ b) := by
  rw [IsSpaces, List.all_append, ha, hb]
  rfl

private theorem between_spaces {p : List Char → Prop} (h : IsSpaces before)
    (hp : Between IsSpaces p cs) : Between IsSpaces p (before ++ cs) := by
  obtain ⟨front, text, after, hfront, htext, hafter, rfl⟩ := hp
  exact ⟨before ++ front, text, after, isSpaces_append h hfront, htext, hafter, by simp⟩

end

/-! ## What is read is written -/

/-- What reading with some fuel finds stands in the text, and nests as deep as allowed at most. -/
structure Sound (fuel : Nat) : Prop where
  value : ∀ {depth : Nat} {cs rest : List Char} {v : Json},
    scanValue fuel depth cs = some (v, rest) → ∃ w before text, IsSpaces before ∧
      Written IsSpaces w text ∧ w.nesting ≤ depth ∧ w.normal = v ∧ cs = before ++ (text ++ rest)
  items : ∀ {depth : Nat} {cs rest : List Char} {vs : List Json},
    scanItems fuel depth cs = some (vs, rest) → ∃ w ws first more,
      Between IsSpaces (Written IsSpaces w) first ∧ WrittenItems IsSpaces ws more ∧
      nestingItems (w :: ws) ≤ depth ∧ normalItems (w :: ws) = vs ∧
      cs = first ++ (more ++ ']' :: rest)
  members : ∀ {depth : Nat} {cs rest : List Char} {vs : List (String × Json)},
    scanMembers fuel depth cs = some (vs, rest) → ∃ key w ws name shown more,
      Between IsSpaces (SpellsText key) name ∧ Between IsSpaces (Written IsSpaces w) shown ∧
      WrittenMembers IsSpaces ws more ∧ nestingMembers ((key, w) :: ws) ≤ depth ∧
      normalMembers ((key, w) :: ws) = vs ∧ cs = name ++ ':' :: (shown ++ (more ++ '\x7d' :: rest))

section

variable {fuel depth : Nat} {cs rest : List Char}

private theorem literal?_eq {word : List Char} {v w : Json}
    (h : literal? word v cs = some (w, rest)) : w = v ∧ cs = word ++ rest := by
  rw [literal?] at h
  split at h
  · next hword =>
    cases h
    obtain ⟨tail, rfl⟩ := List.isPrefixOf_iff_prefix.mp hword
    exact ⟨rfl, by rw [List.drop_left]⟩
  · cases h

private theorem array_sound {tail : List Char} {v : Json} (hsound : Sound fuel)
    (hcs : skipSpace cs = '[' :: tail) (h : scanValue (fuel + 1) depth cs = some (v, rest)) :
    ∃ w text, Written IsSpaces w text ∧ w.nesting ≤ depth ∧ w.normal = v ∧
      skipSpace cs = text ++ rest := by
  obtain ⟨gap, hgap, htail⟩ := exists_spaces tail
  unfold scanValue at h
  rw [hcs] at h ⊢
  cases depth with
  | zero => cases h
  | succ depth =>
    simp only at h
    split at h
    · next tail heq =>
      cases h
      rw [htail, heq]
      refine ⟨.array [], '[' :: (gap ++ [']']), ?_, ?_, rfl, by simp⟩
      · rw [Written]
        exact ⟨gap, hgap, rfl⟩
      · rw [nesting, nestingItems]
        exact Nat.le_add_left _ _
    · obtain ⟨⟨items, tail⟩, hitems, h⟩ := Option.bind_eq_some_iff.mp h
      cases h
      obtain ⟨w, ws, first, more, hfirst, hmore, hnesting, hnormal, heq⟩ := hsound.items hitems
      rw [htail, heq]
      refine ⟨.array (w :: ws), '[' :: (gap ++ first ++ (more ++ [']'])), ?_, ?_, ?_, by simp⟩
      · rw [Written]
        exact ⟨_, more, between_spaces hgap hfirst, hmore, rfl⟩
      · rw [nesting]
        exact Nat.add_le_add_right hnesting 1
      · rw [normal, hnormal]

private theorem object_sound {tail : List Char} {v : Json} (hsound : Sound fuel)
    (hcs : skipSpace cs = '\x7b' :: tail) (h : scanValue (fuel + 1) depth cs = some (v, rest)) :
    ∃ w text, Written IsSpaces w text ∧ w.nesting ≤ depth ∧ w.normal = v ∧
      skipSpace cs = text ++ rest := by
  obtain ⟨gap, hgap, htail⟩ := exists_spaces tail
  unfold scanValue at h
  rw [hcs] at h ⊢
  cases depth with
  | zero => cases h
  | succ depth =>
    simp only at h
    split at h
    · next tail heq =>
      cases h
      rw [htail, heq]
      refine ⟨.object [], '\x7b' :: (gap ++ ['\x7d']), ?_, ?_, rfl, by simp⟩
      · rw [Written]
        exact ⟨gap, hgap, rfl⟩
      · rw [nesting, nestingMembers]
        exact Nat.le_add_left _ _
    · obtain ⟨⟨members, tail⟩, hmembers, h⟩ := Option.bind_eq_some_iff.mp h
      cases h
      obtain ⟨key, w, ws, name, shown, more, hname, hshown, hmore, hnesting, hnormal, heq⟩ :=
        hsound.members hmembers
      rw [htail, heq]
      refine ⟨.object ((key, w) :: ws),
        '\x7b' :: (gap ++ name ++ ':' :: (shown ++ (more ++ ['\x7d']))), ?_, ?_, ?_, by simp⟩
      · rw [Written]
        exact ⟨_, shown, more, between_spaces hgap hname, hshown, hmore, rfl⟩
      · rw [nesting]
        exact Nat.add_le_add_right hnesting 1
      · rw [normal, hnormal]

private theorem value_sound {v : Json} (hsound : Sound fuel)
    (h : scanValue (fuel + 1) depth cs = some (v, rest)) :
    ∃ w text, Written IsSpaces w text ∧ w.nesting ≤ depth ∧ w.normal = v ∧
      skipSpace cs = text ++ rest := by
  have hvalue := h
  -- one case for each character that a value may begin with, and the numbers without a sign last
  unfold scanValue at h
  split at h
  · next tail hcs =>
    obtain ⟨⟨s, tail⟩, hscan, h⟩ := Option.bind_eq_some_iff.mp h
    cases h
    obtain ⟨raw, hraw, rfl⟩ := Quoted.spells_of_scan hscan
    refine ⟨.string (String.ofList s), '"' :: (raw ++ ['"']), ?_, Nat.zero_le _, rfl, by simp [hcs]⟩
    rw [Written]
    exact ⟨raw, by rwa [String.toList_ofList], rfl⟩
  · next tail hcs => exact array_sound hsound hcs hvalue
  · next tail hcs => exact object_sound hsound hcs hvalue
  · next tail hcs =>
    obtain ⟨rfl, rfl⟩ := literal?_eq h
    exact ⟨.null, "null".toList, by rw [Written], Nat.zero_le _, rfl, hcs⟩
  · next tail hcs =>
    obtain ⟨rfl, rfl⟩ := literal?_eq h
    exact ⟨.bool true, "true".toList, by rw [Written]; rfl, Nat.zero_le _, rfl, hcs⟩
  · next tail hcs =>
    obtain ⟨rfl, rfl⟩ := literal?_eq h
    exact ⟨.bool false, "false".toList, by rw [Written]; rfl, Nat.zero_le _, rfl, hcs⟩
  · next tail hcs =>
    obtain ⟨⟨d, tail⟩, hscan, h⟩ := Option.bind_eq_some_iff.mp h
    obtain ⟨n, hn, h⟩ := Option.bind_eq_some_iff.mp h
    cases h
    obtain ⟨digits, hdigits, rfl⟩ := Decimal.spells_of_scan hscan
    refine ⟨.number n, '-' :: digits, ?_, Nat.zero_le _, rfl, hcs⟩
    rw [Written]
    exact ⟨true, d, digits, hdigits, hn, rfl⟩
  · obtain ⟨⟨d, tail⟩, hscan, h⟩ := Option.bind_eq_some_iff.mp h
    obtain ⟨n, hn, h⟩ := Option.bind_eq_some_iff.mp h
    cases h
    obtain ⟨digits, hdigits, heq⟩ := Decimal.spells_of_scan hscan
    refine ⟨.number n, digits, ?_, Nat.zero_le _, rfl, heq⟩
    rw [Written]
    exact ⟨false, d, digits, hdigits, hn, rfl⟩

/-- The value at the front of a text, with the blanks on both its sides. -/
private theorem padded_sound {v : Json} (hsound : Sound fuel)
    (h : scanValue fuel depth cs = some (v, rest)) :
    ∃ w shown, Between IsSpaces (Written IsSpaces w) shown ∧ w.nesting ≤ depth ∧ w.normal = v ∧
      cs = shown ++ skipSpace rest := by
  obtain ⟨w, before, text, hbefore, htext, hnesting, hnormal, rfl⟩ := hsound.value h
  obtain ⟨after, hafter, hrest⟩ := exists_spaces rest
  refine ⟨w, _, ⟨before, text, after, hbefore, htext, hafter, rfl⟩, hnesting, hnormal, ?_⟩
  rw [List.append_assoc, List.append_assoc, ← hrest]

private theorem items_sound {vs : List Json} (hsound : Sound fuel)
    (h : scanItems (fuel + 1) depth cs = some (vs, rest)) :
    ∃ w ws first more, Between IsSpaces (Written IsSpaces w) first ∧
      WrittenItems IsSpaces ws more ∧ nestingItems (w :: ws) ≤ depth ∧
      normalItems (w :: ws) = vs ∧ cs = first ++ (more ++ ']' :: rest) := by
  rw [scanItems] at h
  obtain ⟨⟨v, tail⟩, hvalue, hend⟩ := Option.bind_eq_some_iff.mp h
  obtain ⟨w, shown, hshown, hnesting, rfl, rfl⟩ := padded_sound hsound hvalue
  simp only at hend
  split at hend
  · next tail heq =>
    obtain ⟨⟨items, tail⟩, hitems, hend⟩ := Option.bind_eq_some_iff.mp hend
    cases hend
    obtain ⟨w', ws, first, more, hfirst, hmore, hrest, rfl, rfl⟩ := hsound.items hitems
    refine ⟨w, w' :: ws, shown, ',' :: (first ++ more), hshown, ?_, ?_, ?_, by simp [heq]⟩
    · rw [WrittenItems]
      exact ⟨first, more, hfirst, hmore, rfl⟩
    · rw [nestingItems]
      exact Nat.max_le.mpr ⟨hnesting, hrest⟩
    · rw [normalItems]
  · next tail heq =>
    cases hend
    refine ⟨w, [], shown, [], hshown, by rw [WrittenItems], ?_, ?_, by simp [heq]⟩
    · rw [nestingItems, nestingItems]
      exact Nat.max_le.mpr ⟨hnesting, Nat.zero_le _⟩
    · rw [normalItems, normalItems]
  · cases hend

private theorem members_sound {vs : List (String × Json)} (hsound : Sound fuel)
    (h : scanMembers (fuel + 1) depth cs = some (vs, rest)) :
    ∃ key w ws name shown more, Between IsSpaces (SpellsText key) name ∧
      Between IsSpaces (Written IsSpaces w) shown ∧ WrittenMembers IsSpaces ws more ∧
      nestingMembers ((key, w) :: ws) ≤ depth ∧ normalMembers ((key, w) :: ws) = vs ∧
      cs = name ++ ':' :: (shown ++ (more ++ '\x7d' :: rest)) := by
  rw [scanMembers] at h
  obtain ⟨before, hbefore, hcs⟩ := exists_spaces cs
  split at h
  · next tail hquote =>
    obtain ⟨⟨key, tail⟩, hkey, hnamed⟩ := Option.bind_eq_some_iff.mp h
    obtain ⟨raw, hraw, rfl⟩ := Quoted.spells_of_scan hkey
    simp only at hnamed
    obtain ⟨after, hafter, htail⟩ := exists_spaces tail
    split at hnamed
    · next shownTail hcolon =>
      obtain ⟨⟨v, tail'⟩, hvalue, hend⟩ := Option.bind_eq_some_iff.mp hnamed
      obtain ⟨w, shown, hshown, hnesting, rfl, rfl⟩ := padded_sound hsound hvalue
      have hname : Between IsSpaces (SpellsText (String.ofList key))
          (before ++ ('"' :: (raw ++ ['"']) ++ after)) :=
        ⟨before, _, after, hbefore, ⟨raw, by rwa [String.toList_ofList], rfl⟩, hafter, rfl⟩
      rw [hcs, hquote, htail, hcolon]
      simp only at hend
      split at hend
      · next rest' heq =>
        obtain ⟨⟨members, tail⟩, hmembers, hend⟩ := Option.bind_eq_some_iff.mp hend
        cases hend
        obtain ⟨key', w', ws, name, shown', more, hname', hshown', hmore, hrest, rfl, rfl⟩ :=
          hsound.members hmembers
        refine ⟨_, w, (key', w') :: ws, _, shown, ',' :: (name ++ ':' :: (shown' ++ more)), hname,
          hshown, ?_, ?_, ?_, by simp [heq]⟩
        · rw [WrittenMembers]
          exact ⟨name, shown', more, hname', hshown', hmore, rfl⟩
        · rw [nestingMembers]
          exact Nat.max_le.mpr ⟨hnesting, hrest⟩
        · rw [normalMembers]
      · next rest' heq =>
        cases hend
        refine ⟨_, w, [], _, shown, [], hname, hshown, by rw [WrittenMembers], ?_, ?_,
          by simp [heq]⟩
        · rw [nestingMembers, nestingMembers]
          exact Nat.max_le.mpr ⟨hnesting, Nat.zero_le _⟩
        · rw [normalMembers, normalMembers]
      · cases hend
    · cases hnamed
  · cases h

end

theorem sound (fuel : Nat) : Sound fuel := by
  -- a value is read with what its parts are read with, so the three readers go by one induction
  induction fuel with
  | zero =>
    constructor
    · intro depth cs rest v h
      cases h
    · intro depth cs rest vs h
      cases h
    · intro depth cs rest vs h
      cases h
  | succ fuel ih =>
    constructor
    · intro depth cs rest v h
      obtain ⟨before, hbefore, hcs⟩ := exists_spaces cs
      obtain ⟨w, text, htext, hnesting, hnormal, heq⟩ := value_sound ih h
      exact ⟨w, before, text, hbefore, htext, hnesting, hnormal, hcs.trans (by rw [heq])⟩
    · intro depth cs rest vs h
      exact items_sound ih h
    · intro depth cs rest vs h
      exact members_sound ih h

/-! ## What is written is read -/

/-- Whether a value is read from a text, up to its end, at some depth of nesting. -/
structure Reads (depth : Nat) (text : List Char) (v : Json) : Prop where
  head : ∃ c cs, text = c :: cs ∧ isSpace c = false ∧ c ≠ ']'
  reads : ∀ {fuel : Nat} {rest : List Char}, 2 * text.length ≤ fuel →
    Decimal.endsNumber rest = true → scanValue fuel depth (text ++ rest) = some (v, rest)

/-- Whether a text ends an array after an item, with some items more. -/
inductive ItemsEnd (depth : Nat) : List Char → List Json → Prop
  | last : ItemsEnd depth [] []
  | more {tail : List Char} {vs : List Json}
      (h : ∀ {fuel : Nat} {rest : List Char}, 2 * tail.length + 1 ≤ fuel →
        scanItems fuel depth (tail ++ ']' :: rest) = some (vs, rest)) :
      ItemsEnd depth (',' :: tail) vs

/-- Whether a text ends an object after a member, with some members more. -/
inductive MembersEnd (depth : Nat) : List Char → List (String × Json) → Prop
  | last : MembersEnd depth [] []
  | more {tail : List Char} {vs : List (String × Json)}
      (h : ∀ {fuel : Nat} {rest : List Char}, 2 * tail.length + 1 ≤ fuel →
        scanMembers fuel depth (tail ++ '\x7d' :: rest) = some (vs, rest)) :
      MembersEnd depth (',' :: tail) vs

section

variable {depth fuel : Nat} {before text after first more rest : List Char} {v : Json}

theorem skipSpace_cons {c : Char} (h : isSpace c = false) (rest : List Char) :
    skipSpace (c :: rest) = c :: rest := by
  have hnone : IsSpaces [] := rfl
  exact skipSpace_append hnone h

private theorem scanValue_skip {c : Char} {cs : List Char} (h : IsSpaces before)
    (hc : isSpace c = false) :
    scanValue fuel depth (before ++ c :: cs) = scanValue fuel depth (c :: cs) := by
  cases fuel with
  | zero => rfl
  | succ fuel => rw [scanValue, scanValue, skipSpace_append h hc, skipSpace_cons hc]

private theorem endsNumber_spaces (h : IsSpaces before) (hrest : Decimal.endsNumber rest = true) :
    Decimal.endsNumber (before ++ rest) = true := by
  cases before with
  | nil => exact hrest
  | cons c cs =>
    have hc : isSpace c = true := by
      rw [IsSpaces, List.all_cons, Bool.and_eq_true] at h
      exact h.1
    simp only [isSpace, Bool.or_eq_true, decide_eq_true_eq] at hc
    rcases hc with ((rfl | rfl) | rfl) | rfl <;> rfl

/-- A value is read with the blanks on both its sides, up to what ends a number. -/
private theorem Reads.between (h : Reads depth text v) (hbefore : IsSpaces before)
    (hafter : IsSpaces after) (hrest : Decimal.endsNumber rest = true)
    (hfuel : 2 * text.length ≤ fuel) :
    scanValue fuel depth (before ++ (text ++ (after ++ rest))) = some (v, after ++ rest) := by
  obtain ⟨c, cs, rfl, hc, -⟩ := h.head
  rw [List.cons_append, scanValue_skip hbefore hc, ← List.cons_append]
  exact h.reads hfuel (endsNumber_spaces hafter hrest)

private theorem scanItems_between {vs : List Json}
    (hfirst : Between IsSpaces (Reads depth · v) first) (hmore : ItemsEnd depth more vs)
    (hfuel : 2 * (first ++ more).length + 1 ≤ fuel) :
    scanItems fuel depth (first ++ (more ++ ']' :: rest)) = some (v :: vs, rest) := by
  obtain ⟨before, text, after, hbefore, htext, hafter, rfl⟩ := hfirst
  simp only [List.length_append] at hfuel
  obtain ⟨fuel, rfl⟩ : ∃ n, fuel = n + 1 := ⟨fuel - 1, by omega⟩
  have hends : Decimal.endsNumber (more ++ ']' :: rest) = true := by
    cases hmore <;> rfl
  have hvalue : scanValue fuel depth (before ++ (text ++ (after ++ (more ++ ']' :: rest)))) = _ :=
    htext.between hbefore hafter hends (by omega)
  rw [List.append_assoc, List.append_assoc, scanItems, hvalue]
  cases hmore with
  | last => simp [skipSpace_append hafter (c := ']') rfl]
  | @more tail _ h =>
    rw [List.length_cons] at hfuel
    have htail := @h fuel rest (by omega)
    simp [skipSpace_append hafter (c := ',') rfl, htail]

private theorem scanMembers_between {key : String} {name shown : List Char}
    {vs : List (String × Json)} (hname : Between IsSpaces (SpellsText key) name)
    (hshown : Between IsSpaces (Reads depth · v) shown) (hmore : MembersEnd depth more vs)
    (hfuel : 2 * (name ++ ':' :: (shown ++ more)).length + 1 ≤ fuel) :
    scanMembers fuel depth (name ++ ':' :: (shown ++ (more ++ '\x7d' :: rest))) =
      some ((key, v) :: vs, rest) := by
  obtain ⟨lead, _, gap, hlead, ⟨raw, hraw, rfl⟩, hgap, rfl⟩ := hname
  obtain ⟨before, text, after, hbefore, htext, hafter, rfl⟩ := hshown
  simp only [List.length_append, List.length_cons] at hfuel
  obtain ⟨fuel, rfl⟩ : ∃ n, fuel = n + 1 := ⟨fuel - 1, by omega⟩
  have hends : Decimal.endsNumber (more ++ '\x7d' :: rest) = true := by
    cases hmore <;> rfl
  have hvalue : scanValue fuel depth
      (before ++ (text ++ (after ++ (more ++ '\x7d' :: rest)))) = _ :=
    htext.between hbefore hafter hends (by omega)
  have hkey (tail : List Char) : Quoted.scan (raw ++ '"' :: (gap ++ ':' :: tail)) =
      some (key.toList, gap ++ ':' :: tail) := Quoted.scan_spells hraw _
  rw [scanMembers]
  simp only [List.append_assoc, List.cons_append, List.nil_append]
  rw [skipSpace_append hlead (c := '"') rfl]
  simp only [hkey, Option.bind_eq_bind, Option.bind_some, skipSpace_append hgap (c := ':') rfl]
  simp only [hvalue, Option.bind_some, String.ofList_toList]
  cases hmore with
  | last => simp [skipSpace_append hafter (c := '\x7d') rfl]
  | @more tail _ h =>
    rw [List.length_cons] at hfuel
    have htail := @h fuel rest (by omega)
    simp [skipSpace_append hafter (c := ',') rfl, htail]

/-- A text that begins with a character of its own takes at least one unit of fuel. -/
private theorem Reads.of_step {c : Char} {cs : List Char} (hhead : isSpace c = false ∧ c ≠ ']')
    (h : ∀ {fuel : Nat} {rest : List Char}, 2 * cs.length < fuel + 1 →
      Decimal.endsNumber rest = true →
      scanValue (fuel + 1) depth (c :: (cs ++ rest)) = some (v, rest)) :
    Reads depth (c :: cs) v := by
  refine ⟨⟨c, cs, rfl, hhead⟩, fun {fuel rest} hfuel hrest => ?_⟩
  rw [List.length_cons] at hfuel
  obtain ⟨fuel, rfl⟩ : ∃ n, fuel = n + 1 := ⟨fuel - 1, by omega⟩
  exact h (by omega) hrest

private theorem reads_string {s : String} (h : SpellsText s text) :
    Reads depth text (.string s) := by
  obtain ⟨raw, hraw, rfl⟩ := h
  refine .of_step (by decide) fun {fuel rest} _ _ => ?_
  have hscan : Quoted.scan (raw ++ '"' :: rest) = some (s.toList, rest) :=
    Quoted.scan_spells hraw rest
  rw [scanValue, skipSpace_cons rfl]
  simp [hscan]

private theorem reads_number {n : Number} (h : WrittenNumber n text) :
    Reads depth text (.number n) := by
  obtain ⟨negative, d, digits, hdigits, hn, rfl⟩ := h
  obtain ⟨c, cs, hcs, hc⟩ := hdigits.eq_cons
  have hspace : isSpace c = false :=
    Decimal.of_isDigit (P := fun c => isSpace c = false) (by decide) hc
  cases negative with
  | true =>
    refine .of_step (by decide) fun {fuel rest} _ hrest => ?_
    rw [scanValue, skipSpace_cons rfl]
    simp [Decimal.scan_spells hdigits hrest, hn]
  | false =>
    have hbracket : c ≠ ']' := by
      rintro rfl
      cases hc
    subst hcs
    refine .of_step ⟨hspace, hbracket⟩ fun {fuel rest} _ hrest => ?_
    have hscan := Decimal.scan_spells hdigits hrest
    rw [List.cons_append] at hscan
    unfold scanValue
    rw [skipSpace_cons hspace]
    -- a digit begins no other value
    split
    · next heq => cases heq; cases hc
    · next heq => cases heq; cases hc
    · next heq => cases heq; cases hc
    · next heq => cases heq; cases hc
    · next heq => cases heq; cases hc
    · next heq => cases heq; cases hc
    · next heq => cases heq; cases hc
    · simp [hscan, hn]

private theorem reads_emptyArray (h : IsSpaces before) :
    Reads (depth + 1) ('[' :: (before ++ [']'])) (.array []) := by
  refine .of_step (by decide) fun {fuel rest} _ _ => ?_
  rw [List.append_assoc, scanValue, skipSpace_cons rfl]
  simp [skipSpace_append h (c := ']') rfl]

private theorem reads_emptyObject (h : IsSpaces before) :
    Reads (depth + 1) ('\x7b' :: (before ++ ['\x7d'])) (.object []) := by
  refine .of_step (by decide) fun {fuel rest} _ _ => ?_
  rw [List.append_assoc, scanValue, skipSpace_cons rfl]
  simp [skipSpace_append h (c := '\x7d') rfl]

private theorem reads_array {vs : List Json} (hfirst : Between IsSpaces (Reads depth · v) first)
    (hmore : ItemsEnd depth more vs) :
    Reads (depth + 1) ('[' :: (first ++ (more ++ [']']))) (.array (v :: vs)) := by
  refine .of_step (by decide) fun {fuel rest} hfuel _ => ?_
  obtain ⟨before, text, after, hbefore, htext, hafter, rfl⟩ := hfirst
  obtain ⟨c, cs, rfl, hc, hbracket⟩ := htext.head
  simp only [List.length_append, List.length_cons, List.length_nil] at hfuel
  -- the blanks after the bracket are skipped before the first item is read
  have hitems : scanItems fuel depth (([] ++ (c :: cs ++ after)) ++ (more ++ ']' :: rest)) = _ :=
    scanItems_between ⟨[], _, after, rfl, htext, hafter, rfl⟩ hmore (by
      simp only [List.length_append, List.length_cons, List.length_nil]
      omega)
  simp only [List.cons_append, List.append_assoc, List.nil_append] at hitems ⊢
  rw [scanValue, skipSpace_cons rfl]
  simp only [skipSpace_append hbefore hc]
  split
  · next heq => exact absurd (List.cons.inj heq).1 hbracket
  · simp [hitems]

private theorem reads_object {key : String} {name shown : List Char} {vs : List (String × Json)}
    (hname : Between IsSpaces (SpellsText key) name)
    (hshown : Between IsSpaces (Reads depth · v) shown) (hmore : MembersEnd depth more vs) :
    Reads (depth + 1) ('\x7b' :: (name ++ ':' :: (shown ++ (more ++ ['\x7d']))))
      (ofMembers ((key, v) :: vs)) := by
  refine .of_step (by decide) fun {fuel rest} hfuel _ => ?_
  obtain ⟨before, _, after, hbefore, ⟨raw, hraw, rfl⟩, hafter, rfl⟩ := hname
  simp only [List.length_append, List.length_cons, List.length_nil] at hfuel
  -- the blanks after the brace are skipped before the first key is read
  have hname : Between IsSpaces (SpellsText key) ('"' :: (raw ++ ['"']) ++ after) :=
    ⟨[], _, after, rfl, ⟨raw, hraw, rfl⟩, hafter, rfl⟩
  have hmembers : scanMembers fuel depth
      ('"' :: (raw ++ ['"']) ++ after ++ ':' :: (shown ++ (more ++ '\x7d' :: rest))) = _ :=
    scanMembers_between hname hshown hmore (by
      simp only [List.length_append, List.length_cons, List.length_nil]
      omega)
  simp only [List.cons_append, List.append_assoc, List.nil_append] at hmembers ⊢
  rw [scanValue, skipSpace_cons rfl]
  simp only [skipSpace_append hbefore (c := '"') rfl]
  simp [hmembers]

end

theorem Between.imp {blank p q : List Char → Prop} {cs : List Char}
    (himp : ∀ {cs}, p cs → q cs) (h : Between blank p cs) : Between blank q cs := by
  obtain ⟨before, text, after, hbefore, htext, hafter, rfl⟩ := h
  exact ⟨before, text, after, hbefore, himp htext, hafter, rfl⟩

mutual

/-- A value is read as it is written, its members in order, when it does not nest too deep. -/
theorem reads_written : ∀ (w : Json) {depth : Nat} {text : List Char}, Written IsSpaces w text →
    w.nesting ≤ depth → Reads depth text w.normal
  | .null, depth, text, h, _ => by
    rw [Written] at h
    rw [h, normal]
    exact .of_step (by decide) fun _ _ => rfl
  | .bool b, depth, text, h, _ => by
    rw [Written] at h
    rw [h, normal]
    cases b with
    | true => exact .of_step (by decide) fun _ _ => rfl
    | false => exact .of_step (by decide) fun _ _ => rfl
  | .number n, depth, text, h, _ => by
    rw [Written] at h
    rw [normal]
    exact reads_number h
  | .string s, depth, text, h, _ => by
    rw [Written] at h
    rw [normal]
    exact reads_string h
  | .array [], depth, text, h, hdepth => by
    rw [Written] at h
    rw [nesting] at hdepth
    obtain ⟨gap, hgap, rfl⟩ := h
    obtain ⟨depth, rfl⟩ : ∃ n, depth = n + 1 := ⟨depth - 1, by omega⟩
    rw [normal, normalItems]
    exact reads_emptyArray hgap
  | .array (item :: rest), depth, text, h, hdepth => by
    rw [Written] at h
    rw [nesting, nestingItems] at hdepth
    obtain ⟨first, more, hfirst, hmore, rfl⟩ := h
    obtain ⟨depth, rfl⟩ : ∃ n, depth = n + 1 := ⟨depth - 1, by omega⟩
    rw [normal, normalItems]
    exact reads_array (hfirst.imp fun h => reads_written item h (by omega))
      (itemsEnd_written rest hmore (by omega))
  | .object [], depth, text, h, hdepth => by
    rw [Written] at h
    rw [nesting] at hdepth
    obtain ⟨gap, hgap, rfl⟩ := h
    obtain ⟨depth, rfl⟩ : ∃ n, depth = n + 1 := ⟨depth - 1, by omega⟩
    rw [normal, normalMembers]
    exact reads_emptyObject hgap
  | .object ((key, value) :: rest), depth, text, h, hdepth => by
    rw [Written] at h
    rw [nesting, nestingMembers] at hdepth
    obtain ⟨name, shown, more, hname, hshown, hmore, rfl⟩ := h
    obtain ⟨depth, rfl⟩ : ∃ n, depth = n + 1 := ⟨depth - 1, by omega⟩
    rw [normal, normalMembers]
    exact reads_object hname (hshown.imp fun h => reads_written value h (by omega))
      (membersEnd_written rest hmore (by omega))

theorem itemsEnd_written : ∀ (ws : List Json) {depth : Nat} {more : List Char},
    WrittenItems IsSpaces ws more → nestingItems ws ≤ depth →
    ItemsEnd depth more (normalItems ws)
  | [], depth, more, h, _ => by
    rw [WrittenItems] at h
    rw [h, normalItems]
    exact .last
  | item :: rest, depth, more, h, hdepth => by
    rw [WrittenItems] at h
    rw [nestingItems] at hdepth
    obtain ⟨shown, more, hshown, hmore, rfl⟩ := h
    have hitem := hshown.imp fun h => reads_written item h (show item.nesting ≤ depth by omega)
    have hrest := itemsEnd_written rest hmore (show nestingItems rest ≤ depth by omega)
    rw [normalItems]
    refine .more fun {fuel tail} hfuel => ?_
    rw [List.append_assoc]
    exact scanItems_between hitem hrest hfuel

theorem membersEnd_written : ∀ (ws : List (String × Json)) {depth : Nat} {more : List Char},
    WrittenMembers IsSpaces ws more → nestingMembers ws ≤ depth →
    MembersEnd depth more (normalMembers ws)
  | [], depth, more, h, _ => by
    rw [WrittenMembers] at h
    rw [h, normalMembers]
    exact .last
  | (key, value) :: rest, depth, more, h, hdepth => by
    rw [WrittenMembers] at h
    rw [nestingMembers] at hdepth
    obtain ⟨name, shown, more, hname, hshown, hmore, rfl⟩ := h
    have hvalue := hshown.imp fun h => reads_written value h (show value.nesting ≤ depth by omega)
    have hrest := membersEnd_written rest hmore (show nestingMembers rest ≤ depth by omega)
    rw [normalMembers]
    refine .more fun {fuel tail} hfuel => ?_
    rw [List.append_assoc, List.cons_append, List.append_assoc]
    exact scanMembers_between hname hvalue hrest hfuel

end

/-- A text is read exactly when it holds a value that does not nest too deep, as that value in its
normal form. -/
theorem parseWithin?_iff {depth : Nat} {text : String} {j : Json} :
    parseWithin? depth text = some j ↔ ∃ w, Shows text w ∧ w.nesting ≤ depth ∧ w.normal = j := by
  constructor
  · intro h
    obtain ⟨⟨v, rest⟩, hscan, h⟩ := Option.bind_eq_some_iff.mp h
    obtain ⟨w, before, shown, hbefore, hshown, hnesting, hnormal, htext⟩ := (sound _).value hscan
    simp only at h
    split at h
    · next hempty =>
      cases h
      obtain ⟨after, hafter, hrest⟩ := exists_spaces rest
      rw [List.isEmpty_iff.mp hempty, List.append_nil] at hrest
      subst hrest
      exact ⟨w, ⟨before, shown, rest, hbefore, hshown, hafter, htext⟩, hnesting, hnormal⟩
    · cases h
  · rintro ⟨w, ⟨before, shown, after, hbefore, hshown, hafter, htext⟩, hnesting, rfl⟩
    have hreads := reads_written w hshown hnesting
    have hscan : scanValue (2 * text.toList.length + 2) depth
        (before ++ (shown ++ (after ++ []))) = _ :=
      hreads.between hbefore hafter rfl (by rw [htext]; simp; omega)
    rw [List.append_nil, ← htext] at hscan
    rw [parseWithin?]
    simp only [Option.bind_eq_bind, hscan, Option.bind_some, skipSpace_spaces hafter]
    rfl

theorem parse?_iff {text : String} {j : Json} :
    parse? text = some j ↔ ∃ w, Shows text w ∧ w.nesting ≤ maxNesting ∧ w.normal = j :=
  parseWithin?_iff

end PolicySync.Json
