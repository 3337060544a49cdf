import PolicySync.Proofs.Json.ReadBack
import PolicySync.Proofs.Policy.Token.Layout

/-!
# Texts of JSON values with whole numbers

What a JSON value may be written as when its numbers are integers of 64 bits: blanks between any two
parts, any escapes in texts, and integers in their digits. These are the texts of the grammar of
JSON with the blanks of a policy.
-/

namespace PolicySync.Json

open PolicySync.Policy PolicySync.Text

/-- A text with blanks around it. -/
def Padded (p : List Char → Prop) (cs : List Char) : Prop :=
  ∃ before text after, IsBlank before ∧ p text ∧ IsBlank after ∧ cs = before ++ (text ++ after)

mutual

/-- Whether a text shows a JSON value, with any blanks inside. Its numbers are integers of 64
bits. -/
def Spells : Json → List Char → Prop
  | .null, cs => cs = "null".toList
  | .bool b, cs => cs = (if b then "true" else "false").toList
  | .number (.int n), cs => fits64 n = true ∧ cs = (toString n).toList
  | .number (.real _), _ => False
  | .string s, cs => SpellsText s cs
  | .array [], cs => ∃ blank, IsBlank blank ∧ cs = '[' :: (blank ++ [']'])
  | .array (item :: rest), cs =>
    ∃ first more, Padded (Spells item) first ∧ SpellsItems rest more ∧
      cs = '[' :: (first ++ (more ++ [']']))
  | .object [], cs => ∃ blank, IsBlank blank ∧ cs = '\x7b' :: (blank ++ ['\x7d'])
  | .object ((key, value) :: rest), cs =>
    ∃ name shown more, Padded (SpellsText key) name ∧ Padded (Spells value) shown ∧
      SpellsMembers rest more ∧ cs = '\x7b' :: (name ++ ':' :: (shown ++ (more ++ ['\x7d'])))

/-- The items of an array after the first. -/
def SpellsItems : List Json → List Char → Prop
  | [], cs => cs = []
  | item :: rest, cs =>
    ∃ shown more, Padded (Spells item) shown ∧ SpellsItems rest more ∧ cs = ',' :: (shown ++ more)

/-- The members of an object after the first. -/
def SpellsMembers : List (String × Json) → List Char → Prop
  | [], cs => cs = []
  | (key, value) :: rest, cs =>
    ∃ name shown more, Padded (SpellsText key) name ∧ Padded (Spells value) shown ∧
      SpellsMembers rest more ∧ cs = ',' :: (name ++ ':' :: (shown ++ more))

end

private theorem padded_iff {a : Prop} {p q : List Char → Prop} {cs : List Char}
    (h : ∀ {cs}, p cs ↔ a ∧ q cs) : Padded p cs ↔ a ∧ Between IsBlank q cs := by
  constructor
  · rintro ⟨before, text, after, hbefore, htext, hafter, rfl⟩
    exact ⟨(h.mp htext).1, before, text, after, hbefore, (h.mp htext).2, hafter, rfl⟩
  · rintro ⟨ha, before, text, after, hbefore, htext, hafter, rfl⟩
    exact ⟨before, text, after, hbefore, h.mpr ⟨ha, htext⟩, hafter, rfl⟩

mutual

theorem spells_iff : ∀ {j : Json} {cs : List Char},
    j.Spells cs ↔ j.isWhole = true ∧ Written IsBlank j cs
  | .null, cs => by simp [Spells, Written, isWhole]
  | .bool b, cs => by simp [Spells, Written, isWhole]
  | .number (.int n), cs => by
    rw [Spells, Written, isWhole, writtenNumber_int]
    simp
  | .number (.real q), cs => by simp [Spells, isWhole]
  | .string s, cs => by simp [Spells, Written, isWhole]
  | .array [], cs => by simp [Spells, Written, isWhole, allWhole]
  | .array (item :: rest), cs => by
    rw [Spells, Written, isWhole, allWhole, Bool.and_eq_true]
    constructor
    · rintro ⟨first, more, hfirst, hmore, rfl⟩
      obtain ⟨hitem, hfirst⟩ := (padded_iff spells_iff).mp hfirst
      obtain ⟨hrest, hmore⟩ := spellsItems_iff.mp hmore
      exact ⟨⟨hitem, hrest⟩, first, more, hfirst, hmore, rfl⟩
    · rintro ⟨⟨hitem, hrest⟩, first, more, hfirst, hmore, rfl⟩
      exact ⟨first, more, (padded_iff spells_iff).mpr ⟨hitem, hfirst⟩,
        spellsItems_iff.mpr ⟨hrest, hmore⟩, rfl⟩
  | .object [], cs => by simp [Spells, Written, isWhole, allWholeMembers]
  | .object ((key, value) :: rest), cs => by
    rw [Spells, Written, isWhole, allWholeMembers, Bool.and_eq_true]
    constructor
    · rintro ⟨name, shown, more, hname, hshown, hmore, rfl⟩
      obtain ⟨hvalue, hshown⟩ := (padded_iff spells_iff).mp hshown
      obtain ⟨hrest, hmore⟩ := spellsMembers_iff.mp hmore
      exact ⟨⟨hvalue, hrest⟩, name, shown, more, hname, hshown, hmore, rfl⟩
    · rintro ⟨⟨hvalue, hrest⟩, name, shown, more, hname, hshown, hmore, rfl⟩
      exact ⟨name, shown, more, hname, (padded_iff spells_iff).mpr ⟨hvalue, hshown⟩,
        spellsMembers_iff.mpr ⟨hrest, hmore⟩, rfl⟩

theorem spellsItems_iff : ∀ {items : List Json} {cs : List Char},
    SpellsItems items cs ↔ allWhole items = true ∧ WrittenItems IsBlank items cs
  | [], cs => by simp [SpellsItems, WrittenItems, allWhole]
  | item :: rest, cs => by
    rw [SpellsItems, WrittenItems, allWhole, Bool.and_eq_true]
    constructor
    · rintro ⟨shown, more, hshown, hmore, rfl⟩
      obtain ⟨hitem, hshown⟩ := (padded_iff spells_iff).mp hshown
      obtain ⟨hrest, hmore⟩ := spellsItems_iff.mp hmore
      exact ⟨⟨hitem, hrest⟩, shown, more, hshown, hmore, rfl⟩
    · rintro ⟨⟨hitem, hrest⟩, shown, more, hshown, hmore, rfl⟩
      exact ⟨shown, more, (padded_iff spells_iff).mpr ⟨hitem, hshown⟩,
        spellsItems_iff.mpr ⟨hrest, hmore⟩, rfl⟩

theorem spellsMembers_iff : ∀ {members : List (String × Json)} {cs : List Char},
    SpellsMembers members cs ↔
      allWholeMembers members = true ∧ WrittenMembers IsBlank members cs
  | [], cs => by simp [SpellsMembers, WrittenMembers, allWholeMembers]
  | (key, value) :: rest, cs => by
    rw [SpellsMembers, WrittenMembers, allWholeMembers, Bool.and_eq_true]
    constructor
    · rintro ⟨name, shown, more, hname, hshown, hmore, rfl⟩
      obtain ⟨hvalue, hshown⟩ := (padded_iff spells_iff).mp hshown
      obtain ⟨hrest, hmore⟩ := spellsMembers_iff.mp hmore
      exact ⟨⟨hvalue, hrest⟩, name, shown, more, hname, hshown, hmore, rfl⟩
    · rintro ⟨⟨hvalue, hrest⟩, name, shown, more, hname, hshown, hmore, rfl⟩
      exact ⟨name, shown, more, hname, (padded_iff spells_iff).mpr ⟨hvalue, hshown⟩,
        spellsMembers_iff.mpr ⟨hrest, hmore⟩, rfl⟩

end

/-- The compact text of a value shows that value. -/
theorem spells_text (j : Json) (h : j.isWhole = true) : j.Spells j.text.toList :=
  spells_iff.mpr ⟨h, written_text .nil j h⟩

end PolicySync.Json
