import PolicySync.Json.Field
import PolicySync.Json.Printer
import PolicySync.Proofs.Data.SortedMap
import PolicySync.Proofs.Json.Grammar
import PolicySync.Proofs.Text.Double

/-!
# Written JSON is read back

The compact text of a value whose numbers are whole is one of its texts. The value is read back from
it when its members are sorted and it does not nest too deep.
-/

namespace PolicySync.Json

open PolicySync.Text

mutual

/-- Whether all numbers in a value are integers of 64 bits. -/
def isWhole : Json → Bool
  | .number (.int n) => fits64 n
  | .number (.real _) => false
  | .array items => allWhole items
  | .object members => allWholeMembers members
  | _ => true

def allWhole : List Json → Bool
  | [] => true
  | item :: rest => item.isWhole && allWhole rest

def allWholeMembers : List (String × Json) → Bool
  | [] => true
  | (_, value) :: rest => value.isWhole && allWholeMembers rest

end

/-- The items after the first, as they are written without blanks. -/
private def moreItemsText (items : List Json) : String :=
  String.join (items.map fun item => "," ++ item.text)

private def moreMembersText (members : List (String × Json)) : String :=
  String.join (members.map fun m => "," ++ (Quoted.quote m.1 ++ ":" ++ m.2.text))

private theorem itemsText_cons (item : Json) (rest : List Json) :
    itemsText (item :: rest) = item.text ++ moreItemsText rest := by
  induction rest generalizing item with
  | nil => simp [itemsText, moreItemsText]
  | cons next rest ih =>
    rw [itemsText, ih]
    · simp [moreItemsText, String.append_assoc]
    · simp

private theorem membersText_cons (m : String × Json) (rest : List (String × Json)) :
    membersText (m :: rest) = Quoted.quote m.1 ++ ":" ++ m.2.text ++ moreMembersText rest := by
  induction rest generalizing m with
  | nil => simp [membersText, moreMembersText]
  | cons next rest ih =>
    rw [membersText, ih]
    · simp [moreMembersText, String.append_assoc]
    · simp

private theorem spellsText_quote (s : String) : SpellsText s (Quoted.quote s).toList :=
  ⟨_, Quoted.spells_encodeChars _, by simp [Quoted.quote]⟩

/-- An integer is written as the digits of its absolute value, a negative one after a minus sign. -/
theorem toList_int (n : Int) :
    (toString n).toList =
      if n < 0 then '-' :: Nat.toDigits 10 n.natAbs else Nat.toDigits 10 n.natAbs := by
  have hdigits (m : Nat) : (toString m).toList = Nat.toDigits 10 m := by
    rw [Nat.toString_eq_ofList_toDigits, String.toList_ofList]
  rw [Int.toString_eq_repr, Int.repr_eq_if]
  by_cases hn : 0 ≤ n
  · have habs : n.toNat = n.natAbs := by omega
    have hneg : ¬ n < 0 := by omega
    rw [if_pos hn, if_neg hneg, habs]
    exact hdigits _
  · have habs : (-n).toNat = n.natAbs := by omega
    have hneg : n < 0 := by omega
    rw [if_neg hn, if_pos hneg, habs, String.toList_append]
    exact congrArg ('-' :: ·) (hdigits _)

/-- The digits of an integer of 64 bits are read as that integer. -/
theorem numberOf?_int {n : Int} (hn : fits64 n = true) :
    numberOf? (n < 0) (.ofNat n.natAbs) = some (.int n) := by
  have hbound : n.natAbs < 2 ^ 64 := by
    simp only [fits64, Bool.and_eq_true, decide_eq_true_eq] at hn
    have hmin : minInteger = -9223372036854775808 := rfl
    have hmax : integerBound = 18446744073709551616 := rfl
    omega
  have hsign : (if n < 0 then -(n.natAbs : Int) else n.natAbs) = n := by
    split <;> omega
  have hzero : (decide (n < 0) && decide (n = 0)) = false := by
    by_cases h : n = 0 <;> simp [h]
  have hread : n.natAbs < 2 ^ 1022 :=
    hbound.trans_le (pow_le_pow_right₀ one_le_two (by decide))
  rw [numberOf?, Decimal.value?_ofNat hread]
  simp only [Option.bind_eq_bind, Option.bind_some, Decimal.mantissa_ofNat, decide_eq_true_eq,
    hsign, hn, hzero]
  rfl

private theorem numberOf?_eq_int {negative : Bool} {d : Decimal} {n : Int}
    (h : numberOf? negative d = some (.int n)) :
    d.isReal = false ∧ n = (if negative then -(d.mantissa : Int) else d.mantissa) ∧
      fits64 n = true ∧ (negative = true → n ≠ 0) := by
  obtain ⟨v, -, h⟩ := Option.bind_eq_some_iff.mp h
  generalize hm : (if negative then -(d.mantissa : Int) else d.mantissa) = m at h
  simp only at h
  split at h
  · next hint =>
    cases h
    simp only [Bool.and_eq_true, Bool.not_eq_true', Bool.and_eq_false_iff,
      decide_eq_false_iff_not] at hint
    obtain ⟨⟨hreal, hfits⟩, hzero⟩ := hint
    refine ⟨hreal, rfl, hfits, fun hnegative => ?_⟩
    rw [hnegative] at hzero
    exact hzero.resolve_left (by decide)
  · cases h

/-- An integer of 64 bits is written in its digits and in no other way. -/
theorem writtenNumber_int {n : Int} {cs : List Char} :
    WrittenNumber (.int n) cs ↔ fits64 n = true ∧ cs = (toString n).toList := by
  rw [toList_int]
  constructor
  · rintro ⟨negative, d, digits, hdigits, hn, rfl⟩
    obtain ⟨hreal, hvalue, hfits, hzero⟩ := numberOf?_eq_int hn
    refine ⟨hfits, ?_⟩
    rw [hdigits.eq_toDigits hreal]
    cases negative with
    | false =>
      rw [if_neg Bool.false_ne_true] at hvalue ⊢
      have hnonneg : ¬ n < 0 := by omega
      have habs : n.natAbs = d.mantissa := by omega
      rw [if_neg hnonneg, habs]
    | true =>
      rw [if_pos rfl] at hvalue ⊢
      have hneg : n < 0 := by
        have hne := hzero rfl
        omega
      have habs : n.natAbs = d.mantissa := by omega
      rw [if_pos hneg, habs]
  · rintro ⟨hfits, rfl⟩
    refine ⟨n < 0, _, _, Decimal.spells_ofNat n.natAbs, numberOf?_int hfits, ?_⟩
    simp only [decide_eq_true_eq]

section

variable {blank : List Char → Prop}

theorem Between.bare {p : List Char → Prop} {cs : List Char} (hnil : blank []) (h : p cs) :
    Between blank p cs :=
  ⟨[], cs, [], hnil, h, hnil, by simp⟩

mutual

/-- The compact text of a value shows that value, with no blanks at all. -/
theorem written_text (hnil : blank []) :
    ∀ j : Json, j.isWhole = true → Written blank j j.text.toList
  | .null, _ => by rw [Written, text]
  | .bool b, _ => by rw [Written, text]
  | .number (.int n), h => by
    rw [isWhole] at h
    rw [Written, text, Number.text]
    exact writtenNumber_int.mpr ⟨h, rfl⟩
  | .number (.real q), h => by
    rw [isWhole] at h
    cases h
  | .string s, _ => by
    rw [Written, text]
    exact spellsText_quote s
  | .array [], _ => by
    rw [Written, text, itemsText]
    exact ⟨[], hnil, rfl⟩
  | .array (item :: rest), h => by
    rw [isWhole, allWhole, Bool.and_eq_true] at h
    have hfirst := written_text hnil item h.1
    have hmore := written_moreItems hnil rest h.2
    rw [Written, text, itemsText_cons]
    exact ⟨_, _, .bare hnil hfirst, hmore, by simp⟩
  | .object [], _ => by
    rw [Written, text, membersText]
    exact ⟨[], hnil, rfl⟩
  | .object ((key, value) :: rest), h => by
    rw [isWhole, allWholeMembers, Bool.and_eq_true] at h
    have hfirst := written_text hnil value h.1
    have hmore := written_moreMembers hnil rest h.2
    rw [Written, text, membersText_cons]
    exact ⟨_, _, _, .bare hnil (spellsText_quote key), .bare hnil hfirst, hmore, by simp⟩

private theorem written_moreItems (hnil : blank []) : ∀ items : List Json,
    allWhole items = true → WrittenItems blank items (moreItemsText items).toList
  | [], _ => by rw [WrittenItems]; rfl
  | item :: rest, h => by
    rw [allWhole, Bool.and_eq_true] at h
    have hfirst := written_text hnil item h.1
    have hmore := written_moreItems hnil rest h.2
    rw [WrittenItems]
    exact ⟨_, _, .bare hnil hfirst, hmore, by simp [moreItemsText]⟩

private theorem written_moreMembers (hnil : blank []) : ∀ members : List (String × Json),
    allWholeMembers members = true → WrittenMembers blank members (moreMembersText members).toList
  | [], _ => by rw [WrittenMembers]; rfl
  | (key, value) :: rest, h => by
    rw [allWholeMembers, Bool.and_eq_true] at h
    have hfirst := written_text hnil value h.1
    have hmore := written_moreMembers hnil rest h.2
    rw [WrittenMembers]
    exact ⟨_, _, _, .bare hnil (spellsText_quote key), .bare hnil hfirst, hmore,
      by simp [moreMembersText]⟩

end

end

/-- Whether a value is read back from its compact text, when it may nest some levels deep. -/
structure ReadsBack (depth : Nat) (value : Json) : Prop where
  whole : value.isWhole = true
  normal : value.normal = value
  nesting : value.nesting ≤ depth

theorem parse?_text {value : Json} (h : ReadsBack maxNesting value) :
    parse? value.text = some value := by
  have hnil : IsSpaces [] := rfl
  exact parse?_iff.mpr ⟨value, .bare hnil (written_text hnil value h.whole), h.nesting, h.normal⟩

section

variable {depth : Nat} {members : List (String × Json)}

theorem readsBack_string (depth : Nat) (s : String) : ReadsBack depth (.string s) :=
  ⟨rfl, rfl, Nat.zero_le _⟩

private theorem allWholeMembers_of_readsBack (h : ∀ m ∈ members, ReadsBack depth m.2) :
    allWholeMembers members = true := by
  induction members with
  | nil => rfl
  | cons m rest ih =>
    obtain ⟨hm, hrest⟩ := List.forall_mem_cons.mp h
    rw [allWholeMembers, hm.whole, ih hrest]
    rfl

private theorem normalMembers_of_readsBack (h : ∀ m ∈ members, ReadsBack depth m.2) :
    normalMembers members = members := by
  induction members with
  | nil => rfl
  | cons m rest ih =>
    obtain ⟨hm, hrest⟩ := List.forall_mem_cons.mp h
    rw [normalMembers, hm.normal, ih hrest]

private theorem nestingMembers_of_readsBack (h : ∀ m ∈ members, ReadsBack depth m.2) :
    nestingMembers members ≤ depth := by
  induction members with
  | nil => exact Nat.zero_le _
  | cons m rest ih =>
    obtain ⟨hm, hrest⟩ := List.forall_mem_cons.mp h
    rw [nestingMembers]
    exact Nat.max_le.mpr ⟨hm.nesting, ih hrest⟩

/-- An object takes one level of nesting more than its members. -/
theorem readsBack_object (hsorted : members.Pairwise fun a b => a.1 < b.1)
    (h : ∀ m ∈ members, ReadsBack depth m.2) : ReadsBack (depth + 1) (.object members) where
  whole := by
    rw [isWhole]
    exact allWholeMembers_of_readsBack h
  normal := by
    rw [Json.normal, normalMembers_of_readsBack h, ofMembers, SortedMap.entries_ofList hsorted]
  nesting := by
    rw [Json.nesting]
    exact Nat.add_le_add_right (nestingMembers_of_readsBack h) 1

theorem readsBack_ofTexts (depth : Nat) (m : SortedMap String) :
    ReadsBack (depth + 1) (ofTexts m) := by
  refine readsBack_object ?_ ?_
  · rw [List.pairwise_map]
    exact m.sorted
  · intro e he
    obtain ⟨entry, -, rfl⟩ := List.mem_map.mp he
    exact readsBack_string depth entry.2

theorem readsBack_singleton {value : Json} (key : String) (h : ReadsBack depth value) :
    ReadsBack (depth + 1) (.object [(key, value)]) :=
  readsBack_object (List.pairwise_singleton _ _) (by simpa using h)

end

/-- A map of texts is found in the object that it is written as. -/
theorem texts?_ofTexts (m : SortedMap String) : (ofTexts m).texts? = some m := by
  have hmembers : ∀ entries : List (String × String),
      readMembers string? (entries.map fun e => (e.1, .string e.2)) = some entries := by
    intro entries
    induction entries with
    | nil => rfl
    | cons e rest ih => simp [readMembers, string?, ih]
  simp [texts?, map?, ofTexts, hmembers]

end PolicySync.Json
