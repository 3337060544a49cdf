import PolicySync.Proofs.Policy.JsonLiteral
import PolicySync.Proofs.Selectors.Rule

/-!
# Groups with entries of any shape

The groups of a selectors rule may hold any JSON and any sets of JSON. The entries of a group whose
key is a text and whose value is a set are its selector, with the texts of each set; all other
entries and members are left out.
-/

namespace PolicySync.Selectors

open PolicySync.Json (Between Written WrittenItems IsLiteral)
open PolicySync.Policy PolicySync.Text

/-- What a key of a group stands for: a JSON value, or a set of JSON values. -/
inductive Content where
  | json (value : Json)
  | set (members : List Json)

namespace Content

/-- The texts in a set, in its order and with its duplicates. A JSON value is no set. -/
def texts? : Content → Option (List String)
  | .json _ => none
  | .set members => some (members.filterMap Json.string?)

/-- What may stand after the last part of a set or an object: nothing, or a comma alone. -/
inductive IsTrail : List Char → Prop
  | nothing : IsTrail []
  | comma {gap : List Char} (h : IsBlank gap) : IsTrail (',' :: gap)

/-- Whether a text shows a content. The empty set has a name, because empty braces are an object. -/
inductive Spells : Content → List Char → Prop
  | json {j : Json} {cs : List Char} (h : Written IsBlank j cs) : Spells (.json j) cs
  | emptySet : Spells (.set []) "set()".toList
  | set {x : Json} {xs : List Json} {first more trail : List Char}
      (hfirst : Between IsBlank (Written IsBlank x) first) (hmore : WrittenItems IsBlank xs more)
      (htrail : IsTrail trail) :
      Spells (.set (x :: xs)) ('\x7b' :: (first ++ (more ++ trail ++ ['\x7d'])))

/-- The entries of a group after the first. -/
inductive SpellsEntries : List (Json × Content) → List Char → Prop
  | last {trail : List Char} (h : IsTrail trail) : SpellsEntries [] trail
  | cons {key : Json} {content : Content} {rest : List (Json × Content)}
      {name shown more : List Char} (hname : Between IsBlank (Written IsBlank key) name)
      (hshown : Between IsBlank content.Spells shown) (hmore : SpellsEntries rest more) :
      SpellsEntries ((key, content) :: rest) (',' :: (name ++ ':' :: (shown ++ more)))

/-- Whether a text shows a group, its entries in the order of the text. -/
inductive SpellsGroup : List (Json × Content) → List Char → Prop
  | empty {gap : List Char} (h : IsBlank gap) : SpellsGroup [] ('\x7b' :: (gap ++ ['\x7d']))
  | entries {key : Json} {content : Content} {rest : List (Json × Content)}
      {name shown more : List Char} (hname : Between IsBlank (Written IsBlank key) name)
      (hshown : Between IsBlank content.Spells shown) (hmore : SpellsEntries rest more) :
      SpellsGroup ((key, content) :: rest)
        ('\x7b' :: (name ++ ':' :: (shown ++ (more ++ ['\x7d']))))

/-- The entry of a selector, for a key that is a text and a set. -/
def kept? (entry : Json × Content) : Option (String × List String) :=
  entry.1.string?.bind fun key => entry.2.texts?.map fun texts => (key, texts)

/-! ## Groups as literals -/

def textOfTerm? : Term → Option String
  | .string s => some s
  | _ => none

/-- The texts in a term that is a set. -/
def textsOfTerm? : Term → Option (List String)
  | .set items => some (items.filterMap textOfTerm?)
  | _ => none

/-- What the language makes of an expression that is written as a key. -/
def IsKey (e : Expr) (j : Json) : Prop := IsLiteral e j.value

/-- What the language makes of an expression that is written as a content. -/
structure IsWrittenAs (e : Expr) (c : Content) : Prop where
  inert : e.Inert
  texts : textsOfTerm? (Term.ofExpr e) = c.texts?

/-- What the language makes of an expression that is written as a group. -/
def IsGroup (e : Expr) (entries : List (Json × Content)) : Prop :=
  ∃ fields, e = .object fields ∧ List.Forall₂ (FieldOf IsKey IsWrittenAs) fields entries

section

variable {k : Keywords} {cs trail : List Char} {e : Expr} {j : Json}
  {entries : List (Json × Content)}

private theorem textOfTerm?_of_isLiteral (h : IsLiteral e j.value) :
    textOfTerm? (Term.ofExpr e) = j.string? := by
  apply Option.ext
  intro s
  have hterm : textOfTerm? (Term.ofExpr e) = some s ↔ Term.ofExpr e = .string s := by
    cases Term.ofExpr e <;> simp [textOfTerm?]
  have hjson : j.string? = some s ↔ j = .string s := by
    cases j <;> simp [Json.string?]
  rw [hterm, h.ofExpr_string, Json.value_eq_string, hjson]

private theorem filterMap_termsOfExprs {es : List Expr} {members : List Json}
    (h : List.Forall₂ IsLiteral es (Json.valuesOf members)) :
    (termsOfExprs es).filterMap textOfTerm? = members.filterMap Json.string? := by
  induction members generalizing es with
  | nil =>
    cases h
    rfl
  | cons member rest ih =>
    cases h with
    | cons hfirst hrest =>
      rw [termsOfExprs, List.filterMap_cons, List.filterMap_cons, ih hrest,
        textOfTerm?_of_isLiteral hfirst]

private theorem isWrittenAs_json (h : IsLiteral e j.value) : IsWrittenAs e (.json j) := by
  refine ⟨h.inert, ?_⟩
  have hne := h.ofExpr_ne_set
  cases hterm : Term.ofExpr e with
  | set items => exact absurd hterm (hne items)
  | _ => rfl

private theorem denotes_key (h : Written IsBlank j cs) : Denotes k IsKey cs j :=
  (Json.denotes j h).imp fun _ he => he

private theorem denotes_trail {R : Expr → Value → Prop} (h : IsTrail trail) :
    DenotesItems k .braceClose R trail [] := by
  cases h with
  | nothing => exact .nil rfl
  | comma hgap => exact .last hgap

theorem Spells.denotes {c : Content} (h : c.Spells cs) : Denotes k IsWrittenAs cs c := by
  cases h with
  | json h => exact (Json.denotes _ h).imp fun e he => isWrittenAs_json he
  | emptySet => exact Denotes.emptySet ⟨.set (List.forall_mem_nil _), rfl⟩
  | @set x xs first more trail hfirst hmore htrail =>
    have hfirst := Denotes.padded (hfirst.imp (Json.denotes (k := k) x))
    have hitems := Json.denotesItems rfl xs hmore (denotes_trail (k := k) htrail)
    -- of the terms in the set, those of its texts alone are texts
    refine hfirst.set hitems fun es hes => ⟨.set (forall_left hes fun _ _ he => he.inert), ?_⟩
    have htexts : _ = (x :: xs).filterMap Json.string? := filterMap_termsOfExprs hes
    exact congrArg some htexts

private theorem SpellsEntries.denotes (h : SpellsEntries entries cs) :
    DenotesFields k IsKey IsWrittenAs cs entries := by
  induction h with
  | last htrail =>
    cases htrail with
    | nothing => exact .nil
    | comma hgap => exact .last hgap
  | cons hname hshown _ ih =>
    exact .cons (.padded (hname.imp denotes_key)) (.padded (hshown.imp Spells.denotes)) ih

theorem SpellsGroup.denotes (h : SpellsGroup entries cs) : Denotes k IsGroup cs entries := by
  cases h with
  | empty hgap => exact Denotes.emptyObject hgap ⟨[], rfl, .nil⟩
  | entries hname hshown hmore =>
    have hname := Denotes.padded (hname.imp (denotes_key (k := k)))
    have hshown := Denotes.padded (hshown.imp (Spells.denotes (k := k)))
    exact hname.object hshown hmore.denotes fun fields hfields => ⟨fields, rfl, hfields⟩

end

/-! ## Groups as selectors -/

section

variable {fields : List (Expr × Expr)} {entries : List (Json × Content)}

private theorem ofFields_eq (fields : List (Term × Term)) :
    Selector.ofFields fields = .ofList (fields.filterMap fun f =>
      (textOfTerm? f.1).bind fun key => (textsOfTerm? f.2).map fun texts => (key, texts)) := by
  refine congrArg SortedMap.ofList (List.filterMap_congr fun f _ => ?_)
  obtain ⟨key, value⟩ := f
  cases key with
  | string key => cases value <;> rfl
  | _ => rfl

/-- The selector in a group has the entries of the group that are kept. -/
theorem ofFields_group (h : List.Forall₂ (FieldOf IsKey IsWrittenAs) fields entries) :
    Selector.ofFields (fieldsOfExprs fields) = .ofList (entries.filterMap kept?) := by
  rw [ofFields_eq]
  congr 1
  induction h with
  | nil => rfl
  | cons hfield _ ih =>
    rw [fieldsOfExprs, List.filterMap_cons, List.filterMap_cons, ih, kept?,
      textOfTerm?_of_isLiteral hfield.1, hfield.2.texts]

theorem inert_group (h : List.Forall₂ (FieldOf IsKey IsWrittenAs) fields entries) :
    (Expr.object fields).Inert :=
  .object (forall_left h fun _ _ hfield => ⟨hfield.1.inert, hfield.2.inert⟩)

private theorem kept?_eq_some {entry : Json × Content} {key : String} {values : List String} :
    kept? entry = some (key, values) ↔
      ∃ members, entry = (.string key, .set members) ∧ values = members.filterMap Json.string? := by
  obtain ⟨j, c⟩ := entry
  cases j with
  | string s =>
    cases c with
    | json j => simp [kept?, texts?, Json.string?]
    | set members =>
      simp only [kept?, texts?, Json.string?, Option.bind_some, Option.map_some, Option.some.injEq,
        Prod.mk.injEq, Json.string.injEq, set.injEq]
      constructor
      · rintro ⟨rfl, rfl⟩
        exact ⟨members, ⟨rfl, rfl⟩, rfl⟩
      · rintro ⟨_, ⟨rfl, rfl⟩, rfl⟩
        exact ⟨rfl, rfl⟩
  | _ => simp [kept?, Json.string?]

/-- The entries that are kept have different keys when all entries have. -/
private theorem nodup_kept (hkeys : (entries.map (·.1)).Nodup) :
    ((entries.filterMap kept?).map (·.1)).Nodup := by
  have hpairs : entries.Pairwise fun a b => a.1 ≠ b.1 := List.pairwise_map.mp hkeys
  refine List.pairwise_map.mpr (hpairs.filterMap kept? fun a b hne x hx y hy heq => ?_)
  obtain ⟨_, rfl, -⟩ := kept?_eq_some.mp hx
  obtain ⟨_, rfl, -⟩ := kept?_eq_some.mp hy
  exact hne (congrArg Json.string heq)

/-- Of a group with different keys, a selector has the sets under texts. -/
theorem get?_ofList_kept (hkeys : (entries.map (·.1)).Nodup) (key : String)
    (values : List String) :
    (SortedMap.ofList (entries.filterMap kept?)).get? key = some values ↔
      ∃ members, (.string key, .set members) ∈ entries ∧
        values = members.filterMap Json.string? := by
  rw [SortedMap.get?_eq_some, SortedMap.mem_entries_ofList (nodup_kept hkeys), List.mem_filterMap]
  constructor
  · rintro ⟨entry, hmem, hentry⟩
    obtain ⟨members, rfl, hvalues⟩ := kept?_eq_some.mp hentry
    exact ⟨members, hmem, hvalues⟩
  · rintro ⟨members, hmem, hvalues⟩
    exact ⟨_, hmem, kept?_eq_some.mpr ⟨members, rfl, hvalues⟩⟩

end

end Content

end PolicySync.Selectors
