import PolicySync.Policy.Term

/-!
# Induction over terms

Terms hold bodies and bodies hold terms. What is to be shown of both is given case by case, and then
holds of all of them.
-/

namespace PolicySync.Policy

/-- The cases of an induction over terms, clauses and what clauses hold. -/
structure TermInduction (P : Term → Prop) (Q : Clause → Prop) (R : Payload → Prop) : Prop where
  scalar : ∀ text, P (.scalar text)
  string : ∀ value, P (.string value)
  var : ∀ name, P (.var name)
  ref : ∀ parts, (∀ t ∈ parts, P t) → P (.ref parts)
  call : ∀ slots, (∀ t ∈ slots, P t) → P (.call slots)
  array : ∀ items, (∀ t ∈ items, P t) → P (.array items)
  set : ∀ items, (∀ t ∈ items, P t) → P (.set items)
  object : ∀ fields, (∀ e ∈ fields, P e.1 ∧ P e.2) → P (.object fields)
  arrayCompr : ∀ head body, P head → (∀ c ∈ body, Q c) → P (.arrayCompr head body)
  setCompr : ∀ head body, P head → (∀ c ∈ body, Q c) → P (.setCompr head body)
  objectCompr : ∀ key value body, P key → P value → (∀ c ∈ body, Q c) →
    P (.objectCompr key value body)
  clause : ∀ negated payload modifiers, R payload → (∀ e ∈ modifiers, P e.1 ∧ P e.2) →
    Q (.mk negated payload modifiers)
  single : ∀ t, P t → R (.single t)
  invoke : ∀ slots, (∀ t ∈ slots, P t) → R (.call slots)
  declare : ∀ vars domain, (∀ t ∈ vars, P t) → (∀ t ∈ domain, P t) → R (.declare vars domain)
  every : ∀ key value domain body, (∀ t ∈ key, P t) → P value → P domain → (∀ c ∈ body, Q c) →
    R (.every key value domain body)

namespace TermInduction

variable {P : Term → Prop} {Q : Clause → Prop} {R : Payload → Prop}

mutual

theorem term (h : TermInduction P Q R) : ∀ t, P t
  | .scalar text => h.scalar text
  | .string value => h.string value
  | .var name => h.var name
  | .ref parts => h.ref parts (h.terms parts)
  | .call slots => h.call slots (h.terms slots)
  | .array items => h.array items (h.terms items)
  | .set items => h.set items (h.terms items)
  | .object fields => h.object fields (h.pairs fields)
  | .arrayCompr head body => h.arrayCompr head body (h.term head) (h.body body)
  | .setCompr head body => h.setCompr head body (h.term head) (h.body body)
  | .objectCompr key value body =>
    h.objectCompr key value body (h.term key) (h.term value) (h.body body)

theorem terms (h : TermInduction P Q R) : ∀ ts : List Term, ∀ t ∈ ts, P t
  | [] => List.forall_mem_nil _
  | t :: rest => List.forall_mem_cons.mpr ⟨h.term t, h.terms rest⟩

theorem pairs (h : TermInduction P Q R) : ∀ es : List (Term × Term), ∀ e ∈ es, P e.1 ∧ P e.2
  | [] => List.forall_mem_nil _
  | (key, value) :: rest =>
    List.forall_mem_cons.mpr ⟨⟨h.term key, h.term value⟩, h.pairs rest⟩

theorem body (h : TermInduction P Q R) : ∀ body : List Clause, ∀ c ∈ body, Q c
  | [] => List.forall_mem_nil _
  | .mk negated p modifiers :: rest =>
    List.forall_mem_cons.mpr
      ⟨h.clause negated p modifiers (h.payload p) (h.pairs modifiers), h.body rest⟩

theorem payload (h : TermInduction P Q R) : ∀ p, R p
  | .single t => h.single t (h.term t)
  | .call slots => h.invoke slots (h.terms slots)
  | .declare vars none => h.declare vars none (h.terms vars) nofun
  | .declare vars (some domain) =>
    h.declare vars (some domain) (h.terms vars) fun _ hd => Option.some.inj hd ▸ h.term domain
  | .every none value domain body =>
    h.every none value domain body nofun (h.term value) (h.term domain) (h.body body)
  | .every (some key) value domain body =>
    h.every (some key) value domain body (fun _ hk => Option.some.inj hk ▸ h.term key)
      (h.term value) (h.term domain) (h.body body)

end

end TermInduction

end PolicySync.Policy
