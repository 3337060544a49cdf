import PolicySync.Proofs.Json.Grammar
import PolicySync.Proofs.Policy.Grammar.Separated
import PolicySync.Proofs.Policy.Token.Layout

/-!
# Texts of literals

A text is a literal when it is read as one term, whatever stands around it. What the term has to do
with the value that the text shows is left open: a literal is built from the literals of its parts
for every relation between expressions and values.
-/

namespace PolicySync.Policy

open PolicySync.Json (Between)

/-- Whether a text is a literal whose expression is related to a value. No literal begins with an
equals sign, so that each may stand after a colon. -/
structure Denotes {α : Type} (k : Keywords) (R : Expr → α → Prop) (cs : List Char) (x : α) :
    Prop where
  head : (cs.head?.any fun c => c ≠ '=') = true
  reads : ∃ ts e, IsTextOf cs ts ∧ ReadsTokens k ts e ∧ R e x

/-- Whether a text is the rest of an array or a set after an item, up to its closing symbol. -/
structure DenotesItems {α : Type} (k : Keywords) (closing : Symbol) (R : Expr → α → Prop)
    (cs : List Char) (xs : List α) : Prop where
  ends : endsWord cs = true
  reads : ∃ ts es, IsTextOf cs ts ∧ ReadsMoreItems k closing ts es ∧ List.Forall₂ R es xs

/-- Relates the key and the value of a field. -/
def FieldOf {α β : Type} (R : Expr → α → Prop) (S : Expr → β → Prop) (f : Expr × Expr) (x : α × β) :
    Prop :=
  R f.1 x.1 ∧ S f.2 x.2

/-- Whether a text is the rest of an object after a field, up to its brace. -/
structure DenotesFields {α β : Type} (k : Keywords) (R : Expr → α → Prop) (S : Expr → β → Prop)
    (cs : List Char) (xs : List (α × β)) : Prop where
  ends : endsWord cs = true
  reads : ∃ ts fields, IsTextOf cs ts ∧ ReadsMoreFields k ts fields ∧
    List.Forall₂ (FieldOf R S) fields xs

/-- What related elements have, all elements of a list with relatives have. -/
theorem forall_left {α β : Type} {R : α → β → Prop} {p : α → Prop} {xs : List α}
    {ys : List β} (h : List.Forall₂ R xs ys) (hp : ∀ x y, R x y → p x) : ∀ x ∈ xs, p x := by
  induction h with
  | nil => simp
  | cons hxy _ ih => exact List.forall_mem_cons.mpr ⟨hp _ _ hxy, ih⟩

section

variable {α β γ : Type} {k : Keywords} {closing : Symbol} {R : Expr → α → Prop}
  {S : Expr → β → Prop} {T : Expr → γ → Prop} {cs gap first more name shown : List Char} {x : α}
  {y : β} {z : γ} {xs : List α} {fs : List (α × β)}

theorem Denotes.imp {y : β} (h : Denotes k R cs x) (hS : ∀ e, R e x → S e y) :
    Denotes k S cs y := by
  obtain ⟨ts, e, hts, hreads, he⟩ := h.reads
  exact ⟨h.head, ts, e, hts, hreads, hS e he⟩

/-- Blanks around a literal make no difference. -/
theorem Denotes.padded (h : Between IsBlank (Denotes k R · x) cs) : Denotes k R cs x := by
  obtain ⟨before, text, after, hbefore, htext, hafter, rfl⟩ := h
  obtain ⟨ts, e, hts, he⟩ := htext.reads
  refine ⟨?_, ts, e, hts.padded hbefore hafter, he⟩
  -- the text begins with a blank, or as the literal itself
  cases hbefore with
  | nil =>
    have hhead := htext.head
    cases text with
    | nil => cases hhead
    | cons c cs => exact hhead
  | _ => rfl

private theorem isTextOf_closing {s : Symbol} (hs : s ∈ [.bracketClose, .braceClose])
    (hgap : IsBlank gap) : IsTextOf (gap ++ s.text.toList) [.symbol s] := by
  have hmem : s ∈ [.bracketOpen, .bracketClose, .braceOpen, .braceClose, .parenClose, .comma] := by
    simp only [List.mem_cons, List.not_mem_nil, or_false] at hs ⊢
    rcases hs with rfl | rfl <;> simp
  have htext := (IsTextOf.symbol hmem .nil).padded hgap .nil
  rwa [List.append_nil, List.append_nil] at htext

private theorem isTextOf_colon {ts : List Token} (hshown : Denotes k R shown x)
    (h : IsTextOf (shown ++ cs) ts) : IsTextOf (':' :: (shown ++ cs)) (.symbol .colon :: ts) := by
  have hhead := hshown.head
  cases shown with
  | nil => cases hhead
  | cons c shown => exact IsTextOf.colon (by simpa using hhead) h

/-! ## The parts after the first -/

namespace DenotesItems

theorem nil (hclosing : closing.closes = true) : DenotesItems k closing R [] [] :=
  ⟨rfl, _, _, .nil, .noItems hclosing, .nil⟩

/-- A last comma stands alone. -/
theorem last (hgap : IsBlank gap) : DenotesItems k closing R (',' :: gap) [] := by
  have htext : IsTextOf (',' :: gap) [.symbol .comma] :=
    IsTextOf.symbol (s := .comma) (by decide) (.blank hgap)
  exact ⟨rfl, _, _, htext, .lastItem, .nil⟩

theorem cons (hclosing : closing.closes = true) (hfirst : Denotes k R first x)
    (hmore : DenotesItems k closing R more xs) :
    DenotesItems k closing R (',' :: (first ++ more)) (x :: xs) := by
  obtain ⟨ts, e, hts, hreads, he⟩ := hfirst.reads
  obtain ⟨us, es, hus, hitems, hes⟩ := hmore.reads
  have htext : IsTextOf (',' :: (first ++ more)) _ :=
    IsTextOf.symbol (s := .comma) (by decide) (hts.append hmore.ends hus)
  exact ⟨rfl, _, _, htext, hitems.item hclosing hreads, .cons he hes⟩

end DenotesItems

namespace DenotesFields

theorem nil : DenotesFields k R S [] [] := ⟨rfl, _, _, .nil, .noFields, .nil⟩

/-- A last comma stands alone. -/
theorem last (hgap : IsBlank gap) : DenotesFields k R S (',' :: gap) [] := by
  have htext : IsTextOf (',' :: gap) [.symbol .comma] :=
    IsTextOf.symbol (s := .comma) (by decide) (.blank hgap)
  exact ⟨rfl, _, _, htext, .lastField, .nil⟩

theorem cons (hname : Denotes k R name x) (hshown : Denotes k S shown y)
    (hmore : DenotesFields k R S more fs) :
    DenotesFields k R S (',' :: (name ++ ':' :: (shown ++ more))) ((x, y) :: fs) := by
  obtain ⟨ts, key, hts, hkey, hx⟩ := hname.reads
  obtain ⟨us, value, hus, hvalue, hy⟩ := hshown.reads
  obtain ⟨rs, fields, hrs, hfields, hfs⟩ := hmore.reads
  have hcolon : IsTextOf (':' :: (shown ++ more)) _ :=
    isTextOf_colon hshown (hus.append hmore.ends hrs)
  have htext : IsTextOf (',' :: (name ++ ':' :: (shown ++ more))) _ :=
    IsTextOf.symbol (s := .comma) (by decide) (hts.append rfl hcolon)
  exact ⟨rfl, _, _, htext, .field hkey hvalue hfields, .cons ⟨hx, hy⟩ hfs⟩

end DenotesFields

/-! ## Literals -/

namespace Denotes

theorem text {s : String} (h : Json.SpellsText s cs) (hR : ∀ raw, R (.quoted raw s) x) :
    Denotes k R cs x := by
  obtain ⟨raw, hraw, rfl⟩ := h
  exact ⟨rfl, _, _, IsTextOf.text hraw, ReadsTokens.text _ s, hR _⟩

theorem word {w : String} (hw : w = "null" ∨ w = "true" ∨ w = "false") (hR : R (.scalar w) x) :
    Denotes k R w.toList x := by
  have hword : isWord w = true := by
    rcases hw with rfl | rfl | rfl <;> decide
  have hhead : (w.toList.head?.any fun c => c ≠ '=') = true := by
    rcases hw with rfl | rfl | rfl <;> decide
  exact ⟨hhead, _, _, IsTextOf.word hword, ReadsTokens.word hw, hR⟩

theorem number {d : Text.Decimal} {digits : List Char} {q : Rat} (negative : Bool)
    (h : d.Spells digits) (hq : d.value? = some q)
    (hR : R (.scalar (signed negative (String.ofList digits))) x) :
    Denotes k R (signedChars negative digits) x := by
  refine ⟨?_, _, _, IsTextOf.number negative h hq, ReadsTokens.number _ _, hR⟩
  obtain ⟨c, cs, rfl, hc⟩ := h.eq_cons
  cases negative with
  | true => rfl
  | false =>
    have hne : c ≠ '=' := by
      rintro rfl
      cases hc
    simp [signedChars, hne]

theorem emptyArray (hgap : IsBlank gap) (hR : R (.array []) x) :
    Denotes k R ('[' :: (gap ++ [']'])) x := by
  have hclose := isTextOf_closing (s := .bracketClose) (by decide) hgap
  have htext : IsTextOf ('[' :: (gap ++ [']'])) [.symbol .bracketOpen, .symbol .bracketClose] :=
    IsTextOf.symbol (by decide) hclose
  exact ⟨rfl, _, _, htext, .emptyArray, hR⟩

theorem emptyObject (hgap : IsBlank gap) (hR : R (.object []) x) :
    Denotes k R ('\x7b' :: (gap ++ ['\x7d'])) x := by
  have hclose := isTextOf_closing (s := .braceClose) (by decide) hgap
  have htext : IsTextOf ('\x7b' :: (gap ++ ['\x7d'])) [.symbol .braceOpen, .symbol .braceClose] :=
    IsTextOf.symbol (by decide) hclose
  exact ⟨rfl, _, _, htext, .emptyObject, hR⟩

theorem emptySet (hR : R (.set []) x) : Denotes k R "set()".toList x :=
  ⟨rfl, _, _, IsTextOf.emptySet, .emptySet, hR⟩

theorem array (hfirst : Denotes k R first x) (hmore : DenotesItems k .bracketClose R more xs)
    (hS : ∀ es, List.Forall₂ R es (x :: xs) → S (.array es) y) :
    Denotes k S ('[' :: (first ++ (more ++ [']']))) y := by
  obtain ⟨ts, e, hts, hreads, he⟩ := hfirst.reads
  obtain ⟨us, es, hus, hitems, hes⟩ := hmore.reads
  have hclose : IsTextOf [']'] [.symbol .bracketClose] := isTextOf_closing (by decide) .nil
  have hrest := hts.append (endsWord_append hmore.ends rfl) (hus.append rfl hclose)
  have htext : IsTextOf ('[' :: (first ++ (more ++ [']']))) _ :=
    IsTextOf.symbol (s := .bracketOpen) (by decide) hrest
  exact ⟨rfl, _, _, htext, hreads.array hitems, hS _ (.cons he hes)⟩

theorem set (hfirst : Denotes k R first x) (hmore : DenotesItems k .braceClose R more xs)
    (hS : ∀ es, List.Forall₂ R es (x :: xs) → S (.set es) y) :
    Denotes k S ('\x7b' :: (first ++ (more ++ ['\x7d']))) y := by
  obtain ⟨ts, e, hts, hreads, he⟩ := hfirst.reads
  obtain ⟨us, es, hus, hitems, hes⟩ := hmore.reads
  have hclose : IsTextOf ['\x7d'] [.symbol .braceClose] := isTextOf_closing (by decide) .nil
  have hrest := hts.append (endsWord_append hmore.ends rfl) (hus.append rfl hclose)
  have htext : IsTextOf ('\x7b' :: (first ++ (more ++ ['\x7d']))) _ :=
    IsTextOf.symbol (s := .braceOpen) (by decide) hrest
  exact ⟨rfl, _, _, htext, hreads.set hitems, hS _ (.cons he hes)⟩

theorem object (hname : Denotes k R name x) (hshown : Denotes k S shown y)
    (hmore : DenotesFields k R S more fs)
    (hT : ∀ fields, List.Forall₂ (FieldOf R S) fields ((x, y) :: fs) → T (.object fields) z) :
    Denotes k T ('\x7b' :: (name ++ ':' :: (shown ++ (more ++ ['\x7d'])))) z := by
  obtain ⟨ts, key, hts, hkey, hx⟩ := hname.reads
  obtain ⟨us, value, hus, hvalue, hy⟩ := hshown.reads
  obtain ⟨rs, fields, hrs, hfields, hfs⟩ := hmore.reads
  have hclose : IsTextOf ['\x7d'] [.symbol .braceClose] := isTextOf_closing (by decide) .nil
  have hend := hus.append (endsWord_append hmore.ends rfl) (hrs.append rfl hclose)
  have hcolon : IsTextOf (':' :: (shown ++ (more ++ ['\x7d']))) _ := isTextOf_colon hshown hend
  have htext : IsTextOf ('\x7b' :: (name ++ ':' :: (shown ++ (more ++ ['\x7d'])))) _ :=
    IsTextOf.symbol (s := .braceOpen) (by decide) (hts.append rfl hcolon)
  exact ⟨rfl, _, _, htext, hkey.object hvalue hfields, hT _ (.cons ⟨hx, hy⟩ hfs)⟩

end Denotes

end

end PolicySync.Policy
