import PolicySync.Policy.Arrangement
import PolicySync.Policy.Call
import PolicySync.Policy.Local
import PolicySync.Policy.Loop
import PolicySync.Policy.Term.OfTree

/-!
# Inert expressions

An expression is inert when it calls nothing, names nothing and holds neither a body nor a look-up:
every pass over a module leaves it as it is. Scalars and quoted texts are inert, and so are the
arrays, the sets and the objects of inert expressions.
-/

namespace PolicySync.Policy

/-- What the passes over a module make of an inert expression. -/
structure Expr.Inert (e : Expr) : Prop where
  calls : (Term.ofExpr e).calls = []
  rename : ∀ scope names, (Term.ofExpr e).rename scope names = (Term.ofExpr e, names)
  arrange : ∀ arity visible, e.arrange? arity visible = some e
  split : ∀ runs n, Loop.split runs n e = ⟨e, []⟩

section

variable {items : List Expr} {fields : List (Expr × Expr)}

private theorem callsOfTerms_inert (h : ∀ e ∈ items, e.Inert) :
    callsOfTerms (termsOfExprs items) = [] := by
  induction items with
  | nil => rfl
  | cons e rest ih =>
    rw [termsOfExprs, callsOfTerms, (h e List.mem_cons_self).calls,
      ih fun x hx => h x (List.mem_cons_of_mem _ hx)]
    rfl

private theorem renameTerms_inert (h : ∀ e ∈ items, e.Inert) (scope : Scope) (names : Locals) :
    renameTerms scope (termsOfExprs items) names = (termsOfExprs items, names) := by
  induction items with
  | nil => rfl
  | cons e rest ih =>
    have hrest := ih fun x hx => h x (List.mem_cons_of_mem _ hx)
    simp only [termsOfExprs, renameTerms, (h e List.mem_cons_self).rename, hrest]

private theorem arrangeExprs?_inert (h : ∀ e ∈ items, e.Inert) (arity : Arity)
    (visible : List String) : arrangeExprs? arity visible items = some items := by
  induction items with
  | nil => rfl
  | cons e rest ih =>
    rw [arrangeExprs?, (h e List.mem_cons_self).arrange,
      ih fun x hx => h x (List.mem_cons_of_mem _ hx)]
    rfl

private theorem splitAll_inert (h : ∀ e ∈ items, e.Inert) (runs : Loop.Runs) (n : Nat) :
    Loop.splitAll runs n items = ⟨items, []⟩ := by
  induction items with
  | nil => rfl
  | cons e rest ih =>
    have hrest := ih fun x hx => h x (List.mem_cons_of_mem _ hx)
    simp [Loop.splitAll, (h e List.mem_cons_self).split, hrest]

private theorem callsOfFields_inert (h : ∀ f ∈ fields, f.1.Inert ∧ f.2.Inert) :
    callsOfFields (fieldsOfExprs fields) = [] := by
  induction fields with
  | nil => rfl
  | cons f rest ih =>
    obtain ⟨hkey, hvalue⟩ := h f List.mem_cons_self
    rw [fieldsOfExprs, callsOfFields, hkey.calls, hvalue.calls,
      ih fun x hx => h x (List.mem_cons_of_mem _ hx)]
    rfl

private theorem renameFields_inert (h : ∀ f ∈ fields, f.1.Inert ∧ f.2.Inert) (scope : Scope)
    (names : Locals) :
    renameFields scope (fieldsOfExprs fields) names = (fieldsOfExprs fields, names) := by
  induction fields with
  | nil => rfl
  | cons f rest ih =>
    obtain ⟨hkey, hvalue⟩ := h f List.mem_cons_self
    have hrest := ih fun x hx => h x (List.mem_cons_of_mem _ hx)
    simp only [fieldsOfExprs, renameFields, hkey.rename, hvalue.rename, hrest]

private theorem arrangeFields?_inert (h : ∀ f ∈ fields, f.1.Inert ∧ f.2.Inert) (arity : Arity)
    (visible : List String) : arrangeFields? arity visible fields = some fields := by
  induction fields with
  | nil => rfl
  | cons f rest ih =>
    obtain ⟨hkey, hvalue⟩ := h f List.mem_cons_self
    rw [arrangeFields?, hkey.arrange, hvalue.arrange,
      ih fun x hx => h x (List.mem_cons_of_mem _ hx)]
    rfl

private theorem splitFields_inert (h : ∀ f ∈ fields, f.1.Inert ∧ f.2.Inert) (runs : Loop.Runs)
    (n : Nat) : Loop.splitFields runs n fields = ⟨fields, []⟩ := by
  induction fields with
  | nil => rfl
  | cons f rest ih =>
    obtain ⟨hkey, hvalue⟩ := h f List.mem_cons_self
    have hrest := ih fun x hx => h x (List.mem_cons_of_mem _ hx)
    simp [Loop.splitFields, hkey.split, hvalue.split, hrest]

end

namespace Expr.Inert

theorem quoted (raw value : String) : (Expr.quoted raw value).Inert :=
  ⟨rfl, fun _ _ => rfl, fun _ _ => rfl, fun _ _ => rfl⟩

theorem scalar (text : String) : (Expr.scalar text).Inert :=
  ⟨rfl, fun _ _ => rfl, fun _ _ => rfl, fun _ _ => rfl⟩

theorem array {items : List Expr} (h : ∀ e ∈ items, e.Inert) : (Expr.array items).Inert where
  calls := callsOfTerms_inert h
  rename scope names := by simp only [Term.ofExpr, Term.rename, renameTerms_inert h]
  arrange arity visible := by rw [Expr.arrange?, arrangeExprs?_inert h]; rfl
  split runs n := by rw [Loop.split, splitAll_inert h]

theorem set {items : List Expr} (h : ∀ e ∈ items, e.Inert) : (Expr.set items).Inert where
  calls := callsOfTerms_inert h
  rename scope names := by simp only [Term.ofExpr, Term.rename, renameTerms_inert h]
  arrange arity visible := by rw [Expr.arrange?, arrangeExprs?_inert h]; rfl
  split runs n := by rw [Loop.split, splitAll_inert h]

theorem object {fields : List (Expr × Expr)} (h : ∀ f ∈ fields, f.1.Inert ∧ f.2.Inert) :
    (Expr.object fields).Inert where
  calls := callsOfFields_inert h
  rename scope names := by simp only [Term.ofExpr, Term.rename, renameFields_inert h]
  arrange arity visible := by rw [Expr.arrange?, arrangeFields?_inert h]; rfl
  split runs n := by rw [Loop.split, splitFields_inert h]

end Expr.Inert

end PolicySync.Policy
