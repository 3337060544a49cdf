import PolicySync.Proofs.Policy.Evaluation
import PolicySync.Proofs.Policy.LiteralText
import PolicySync.Proofs.Text.Double

/-!
# JSON in policy texts

A JSON text is a literal of the policy language, in both dialects: whatever its layout, its escapes,
its numbers and its depth, it is read as an inert expression that has the value the text shows.
-/

namespace PolicySync.Json

open PolicySync.Policy PolicySync.Text

mutual

/-- What a JSON value is in the policy language. -/
def value : Json → Value
  | .null => .null
  | .bool b => .bool b
  | .number (.int n) => .number n
  | .number (.real q) => .number q
  | .string s => .string s
  | .array items => .array (valuesOf items)
  | .object members => .objectOf (fieldsOf members)

def valuesOf : List Json → List Value
  | [] => []
  | item :: rest => item.value :: valuesOf rest

def fieldsOf : List (String × Json) → List (Value × Value)
  | [] => []
  | (key, j) :: rest => (.string key, j.value) :: fieldsOf rest

end

theorem fieldsOf_eq (members : List (String × Json)) :
    fieldsOf members = members.map fun m => (.string m.1, m.2.value) := by
  induction members with
  | nil => rfl
  | cons m rest ih => rw [fieldsOf, ih]; rfl

/-- Only a text is a text in the policy language. -/
theorem value_eq_string {j : Json} {s : String} : j.value = .string s ↔ j = .string s := by
  cases j with
  | string t => simp [value]
  | number n => cases n <;> simp [value]
  | object members => simp [value, Value.objectOf]
  | _ => simp [value]

/-- What the policy language makes of an expression that is written as JSON. -/
structure IsLiteral (e : Expr) (v : Value) : Prop where
  inert : e.Inert
  evaluates : Evaluates e v
  ofExpr_string : ∀ s, Term.ofExpr e = .string s ↔ v = .string s
  ofExpr_ne_set : ∀ items, Term.ofExpr e ≠ .set items

section

variable {v : Value} {es : List Expr} {vs : List Value} {fields : List (Expr × Expr)}
  {fs : List (Value × Value)}

namespace IsLiteral

theorem quoted (raw s : String) : IsLiteral (.quoted raw s) (.string s) := by
  refine ⟨.quoted raw s, .quoted raw s, fun t => ?_, fun items h => by cases h⟩
  simp [Term.ofExpr]

private theorem scalarValue?_ne_string {text s : String} :
    scalarValue? text ≠ some (.string s) := by
  unfold scalarValue?
  split
  · simp
  · simp
  · simp
  · split <;> simp [Option.bind_eq_bind, Option.bind_eq_some_iff]

theorem scalar {text : String} (hv : scalarValue? text = some v) :
    IsLiteral (.scalar text) v := by
  refine ⟨.scalar text, .scalar hv, fun s => ?_, fun items h => by cases h⟩
  have hne : v ≠ .string s := by
    rintro rfl
    exact scalarValue?_ne_string hv
  simp [Term.ofExpr, hne]

theorem array (h : List.Forall₂ IsLiteral es vs) : IsLiteral (.array es) (.array vs) := by
  have hinert := forall_left h fun _ _ h => h.inert
  have hvalues := h.imp fun _ _ h => h.evaluates
  exact ⟨.array hinert, .array hvalues, fun s => by simp [Term.ofExpr], fun items h => by cases h⟩

theorem object (h : List.Forall₂ (FieldOf IsLiteral IsLiteral) fields fs) :
    IsLiteral (.object fields) (.objectOf fs) := by
  have hinert : ∀ f ∈ fields, f.1.Inert ∧ f.2.Inert :=
    forall_left h fun _ _ h => ⟨h.1.inert, h.2.inert⟩
  have hvalues : List.Forall₂ Evaluates.Field fields fs :=
    h.imp fun _ _ h => ⟨h.1.evaluates, h.2.evaluates⟩
  refine ⟨.object hinert, .fields hvalues, fun s => ?_, fun items h => by cases h⟩
  simp [Term.ofExpr, Value.objectOf]

end IsLiteral

end

/-! ## Numbers -/

section

variable {text : String} {digits : List Char} {d : Decimal} {q : Rat}

private theorem scalarValue?_digits (htext : text.toList = digits) (h : d.Spells digits)
    (hq : d.value? = some q) : scalarValue? text = some (.number q) := by
  have hscan : Decimal.scan (digits ++ []) = _ := Decimal.scan_spells h rfl
  rw [List.append_nil] at hscan
  obtain ⟨c, cs, rfl, hc⟩ := h.eq_cons
  unfold scalarValue?
  split
  · cases htext; cases hc
  · cases htext; cases hc
  · cases htext; cases hc
  · rw [htext]
    split
    · next heq => cases heq; cases hc
    · rw [hscan]
      change (d.value?.bind _) = _
      rw [hq]
      rfl

private theorem scalarValue?_minus (htext : text.toList = '-' :: digits) (h : d.Spells digits)
    (hq : d.value? = some q) : scalarValue? text = some (.number (-q)) := by
  have hscan : Decimal.scan (digits ++ []) = _ := Decimal.scan_spells h rfl
  rw [List.append_nil] at hscan
  unfold scalarValue?
  split
  · cases htext
  · cases htext
  · cases htext
  · rw [htext]
    change ((Decimal.scan digits).bind _) = _
    rw [hscan]
    change (d.value?.bind _) = _
    rw [hq]
    rfl

private theorem scalarValue?_signed (negative : Bool) (h : d.Spells digits)
    (hq : d.value? = some q) :
    scalarValue? (signed negative (String.ofList digits)) =
      some (.number (if negative then -q else q)) := by
  have htext := toList_signed negative digits
  cases negative with
  | false => exact scalarValue?_digits htext h hq
  | true => exact scalarValue?_minus htext h hq

private theorem value_numberOf? {n : Number} {negative : Bool} (h : d.Spells digits)
    (hn : numberOf? negative d = some n) :
    ∃ q, d.value? = some q ∧ (number n).value = .number (if negative then -q else q) := by
  obtain ⟨q, hq, hn⟩ := Option.bind_eq_some_iff.mp hn
  refine ⟨q, hq, ?_⟩
  generalize hm : (if negative then -(d.mantissa : Int) else d.mantissa) = m at hn
  simp only at hn
  split at hn
  · next hint =>
    cases hn
    have hreal : d.isReal = false := by
      rw [Bool.and_eq_true, Bool.and_eq_true] at hint
      simpa using hint.1.1
    rw [h.value?_eq_mantissa hreal hq, ← hm]
    cases negative with
    | false => exact congrArg Value.number (Rat.intCast_natCast _)
    | true =>
      refine congrArg Value.number ?_
      rw [if_pos rfl, if_pos rfl, Rat.intCast_neg, Rat.intCast_natCast]
  · cases hn
    rfl

end

section

variable {k : Keywords} {cs : List Char}

private theorem denotes_number {n : Number} (h : WrittenNumber n cs) :
    Denotes k IsLiteral cs (Json.number n).value := by
  obtain ⟨negative, d, digits, hdigits, hn, rfl⟩ := h
  obtain ⟨q, hq, hvalue⟩ := value_numberOf? hdigits hn
  have hscalar := scalarValue?_signed negative hdigits hq
  rw [← hvalue] at hscalar
  exact Denotes.number negative hdigits hq (.scalar hscalar)

theorem SpellsText.denotes {s : String} (h : SpellsText s cs) :
    Denotes k IsLiteral cs (.string s) :=
  Denotes.text h fun raw => .quoted raw s

end

mutual

/-- A JSON text is a literal with the value that the text shows. -/
theorem denotes {k : Keywords} : ∀ (j : Json) {cs : List Char}, Written IsBlank j cs →
    Denotes k IsLiteral cs j.value
  | .null, cs, h => by
    rw [Written] at h
    rw [h]
    exact Denotes.word (.inl rfl) (.scalar rfl)
  | .bool b, cs, h => by
    rw [Written] at h
    rw [h]
    cases b with
    | true => exact Denotes.word (.inr (.inl rfl)) (.scalar rfl)
    | false => exact Denotes.word (.inr (.inr rfl)) (.scalar rfl)
  | .number n, cs, h => by
    rw [Written] at h
    exact denotes_number h
  | .string s, cs, h => by
    rw [Written] at h
    exact h.denotes
  | .array [], cs, h => by
    rw [Written] at h
    obtain ⟨gap, hgap, rfl⟩ := h
    exact Denotes.emptyArray hgap (.array .nil)
  | .array (item :: rest), cs, h => by
    rw [Written] at h
    obtain ⟨first, more, hfirst, hmore, rfl⟩ := h
    have hitems : DenotesItems k .bracketClose IsLiteral (more ++ []) _ :=
      denotesItems rfl rest hmore (.nil rfl)
    rw [List.append_nil] at hitems
    exact Denotes.array (.padded (hfirst.imp (denotes item))) hitems fun es hes => .array hes
  | .object [], cs, h => by
    rw [Written] at h
    obtain ⟨gap, hgap, rfl⟩ := h
    exact Denotes.emptyObject hgap (.object .nil)
  | .object ((key, value) :: rest), cs, h => by
    rw [Written] at h
    obtain ⟨name, shown, more, hname, hshown, hmore, rfl⟩ := h
    exact Denotes.object (.padded (hname.imp SpellsText.denotes))
      (.padded (hshown.imp (denotes value))) (denotesMembers rest hmore) fun fields hfields =>
        .object hfields

/-- The items after the first, and a last comma if one may follow them. -/
theorem denotesItems {k : Keywords} {closing : Symbol} {trail : List Char}
    (hclosing : closing.closes = true) : ∀ (items : List Json) {cs : List Char},
    WrittenItems IsBlank items cs → DenotesItems k closing IsLiteral trail [] →
      DenotesItems k closing IsLiteral (cs ++ trail) (valuesOf items)
  | [], cs, h, htrail => by
    rw [WrittenItems] at h
    rw [h]
    exact htrail
  | item :: rest, cs, h, htrail => by
    rw [WrittenItems] at h
    obtain ⟨shown, more, hshown, hmore, rfl⟩ := h
    have hrest := denotesItems hclosing rest hmore htrail
    rw [List.cons_append, List.append_assoc]
    exact .cons hclosing (.padded (hshown.imp (denotes item))) hrest

theorem denotesMembers {k : Keywords} : ∀ (members : List (String × Json)) {cs : List Char},
    WrittenMembers IsBlank members cs →
      DenotesFields k IsLiteral IsLiteral cs (fieldsOf members)
  | [], cs, h => by
    rw [WrittenMembers] at h
    rw [h]
    exact .nil
  | (key, value) :: rest, cs, h => by
    rw [WrittenMembers] at h
    obtain ⟨name, shown, more, hname, hshown, hmore, rfl⟩ := h
    exact .cons (.padded (hname.imp SpellsText.denotes))
      (.padded (hshown.imp (denotes value))) (denotesMembers rest hmore)

end

end PolicySync.Json
