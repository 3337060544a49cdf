import PolicySync.Proofs.Policy.Callee
import PolicySync.Proofs.Policy.Occurrence

/-!
# Everywhere in a view

What holds of all terms of a module, whatever they stand in, and of all that its clauses hold. It
holds of every call that is found in the module, and other names for variables do not change it when
they do not change it in one place.
-/

namespace PolicySync.Policy

mutual

/-- Whether one thing holds of a term and of all terms in it, and another of all that the clauses
in it hold. -/
def Term.Everywhere (p : Term → Prop) (q : Payload → Prop) : Term → Prop
  | .scalar text => p (.scalar text)
  | .string value => p (.string value)
  | .var name => p (.var name)
  | .ref parts => p (.ref parts) ∧ EverywhereInTerms p q parts
  | .call slots => p (.call slots) ∧ EverywhereInTerms p q slots
  | .array items => p (.array items) ∧ EverywhereInTerms p q items
  | .set items => p (.set items) ∧ EverywhereInTerms p q items
  | .object fields => p (.object fields) ∧ EverywhereInFields p q fields
  | .arrayCompr head body =>
    p (.arrayCompr head body) ∧ head.Everywhere p q ∧ EverywhereInBody p q body
  | .setCompr head body =>
    p (.setCompr head body) ∧ head.Everywhere p q ∧ EverywhereInBody p q body
  | .objectCompr key value body =>
    p (.objectCompr key value body) ∧ key.Everywhere p q ∧ value.Everywhere p q ∧
      EverywhereInBody p q body

def EverywhereInTerms (p : Term → Prop) (q : Payload → Prop) : List Term → Prop
  | [] => True
  | t :: rest => t.Everywhere p q ∧ EverywhereInTerms p q rest

def EverywhereInFields (p : Term → Prop) (q : Payload → Prop) : List (Term × Term) → Prop
  | [] => True
  | (key, value) :: rest =>
    (key.Everywhere p q ∧ value.Everywhere p q) ∧ EverywhereInFields p q rest

def EverywhereInBody (p : Term → Prop) (q : Payload → Prop) : List Clause → Prop
  | [] => True
  | c :: rest => c.Everywhere p q ∧ EverywhereInBody p q rest

def Clause.Everywhere (p : Term → Prop) (q : Payload → Prop) : Clause → Prop
  | .mk _ payload modifiers => payload.Everywhere p q ∧ EverywhereInFields p q modifiers

def Payload.Everywhere (p : Term → Prop) (q : Payload → Prop) : Payload → Prop
  | .single t => q (.single t) ∧ t.Everywhere p q
  | .call slots => q (.call slots) ∧ EverywhereInTerms p q slots
  | .declare vars none => q (.declare vars none) ∧ EverywhereInTerms p q vars
  | .declare vars (some domain) =>
    q (.declare vars (some domain)) ∧ EverywhereInTerms p q vars ∧ domain.Everywhere p q
  | .every none value domain body =>
    q (.every none value domain body) ∧ value.Everywhere p q ∧ domain.Everywhere p q ∧
      EverywhereInBody p q body
  | .every (some key) value domain body =>
    q (.every (some key) value domain body) ∧ key.Everywhere p q ∧ value.Everywhere p q ∧
      domain.Everywhere p q ∧ EverywhereInBody p q body

end

def Rule.Everywhere (p : Term → Prop) (q : Payload → Prop) (r : Rule) : Prop :=
  EverywhereInTerms p q r.terms ∧ ∀ body ∈ r.bodies, EverywhereInBody p q body

def Module.Everywhere (p : Term → Prop) (q : Payload → Prop) (m : Module) : Prop :=
  (Term.ref m.package).Everywhere p q ∧ (∀ i ∈ m.imports, (Term.ref i.path).Everywhere p q) ∧
    ∀ r ∈ m.rules, r.Everywhere p q

section

variable {p : Term → Prop} {q : Payload → Prop}

theorem everywhereInTerms_iff {ts : List Term} :
    EverywhereInTerms p q ts ↔ ∀ t ∈ ts, t.Everywhere p q := by
  induction ts with
  | nil => simp [EverywhereInTerms]
  | cons t rest ih => rw [EverywhereInTerms, ih, List.forall_mem_cons]

theorem everywhereInTerms_append {ts us : List Term} :
    EverywhereInTerms p q (ts ++ us) ↔ EverywhereInTerms p q ts ∧ EverywhereInTerms p q us := by
  rw [everywhereInTerms_iff, everywhereInTerms_iff, everywhereInTerms_iff, List.forall_mem_append]

/-! ## Calls -/

/-- What is known everywhere is known of a call and in its slots. -/
def HasCall (p : Term → Prop) (q : Payload → Prop) (slots : List Term) : Prop :=
  (p (.call slots) ∨ q (.call slots)) ∧ EverywhereInTerms p q slots

mutual

theorem Term.hasCall : ∀ t : Term, t.Everywhere p q → ∀ slots ∈ t.calls, HasCall p q slots
  | .scalar _, _ => List.forall_mem_nil _
  | .string _, _ => List.forall_mem_nil _
  | .var _, _ => List.forall_mem_nil _
  | .ref parts, h => hasCall_callsOfTerms parts h.2
  | .call slots, h =>
    List.forall_mem_cons.mpr ⟨⟨.inl h.1, h.2⟩, hasCall_callsOfTerms slots h.2⟩
  | .array items, h => hasCall_callsOfTerms items h.2
  | .set items, h => hasCall_callsOfTerms items h.2
  | .object fields, h => hasCall_callsOfFields fields h.2
  | .arrayCompr head body, h =>
    List.forall_mem_append.mpr ⟨head.hasCall h.2.1, hasCall_callsOfBody body h.2.2⟩
  | .setCompr head body, h =>
    List.forall_mem_append.mpr ⟨head.hasCall h.2.1, hasCall_callsOfBody body h.2.2⟩
  | .objectCompr key value body, h =>
    List.forall_mem_append.mpr
      ⟨List.forall_mem_append.mpr ⟨key.hasCall h.2.1, value.hasCall h.2.2.1⟩,
        hasCall_callsOfBody body h.2.2.2⟩

theorem hasCall_callsOfTerms : ∀ ts : List Term, EverywhereInTerms p q ts →
    ∀ slots ∈ callsOfTerms ts, HasCall p q slots
  | [], _ => List.forall_mem_nil _
  | t :: rest, h => List.forall_mem_append.mpr ⟨t.hasCall h.1, hasCall_callsOfTerms rest h.2⟩

theorem hasCall_callsOfFields : ∀ es : List (Term × Term), EverywhereInFields p q es →
    ∀ slots ∈ callsOfFields es, HasCall p q slots
  | [], _ => List.forall_mem_nil _
  | (key, value) :: rest, h =>
    List.forall_mem_append.mpr
      ⟨List.forall_mem_append.mpr ⟨key.hasCall h.1.1, value.hasCall h.1.2⟩,
        hasCall_callsOfFields rest h.2⟩

theorem hasCall_callsOfModifiers : ∀ es : List (Term × Term), EverywhereInFields p q es →
    ∀ slots ∈ callsOfModifiers es, HasCall p q slots
  | [], _ => List.forall_mem_nil _
  | (_, value) :: rest, h =>
    List.forall_mem_append.mpr ⟨value.hasCall h.1.2, hasCall_callsOfModifiers rest h.2⟩

theorem hasCall_callsOfBody : ∀ body : List Clause, EverywhereInBody p q body →
    ∀ slots ∈ callsOfBody body, HasCall p q slots
  | [], _ => List.forall_mem_nil _
  | c :: rest, h => List.forall_mem_append.mpr ⟨c.hasCall h.1, hasCall_callsOfBody rest h.2⟩

theorem Clause.hasCall : ∀ c : Clause, c.Everywhere p q → ∀ slots ∈ c.calls, HasCall p q slots
  | .mk _ payload modifiers, h =>
    List.forall_mem_append.mpr ⟨payload.hasCall h.1, hasCall_callsOfModifiers modifiers h.2⟩

theorem Payload.hasCall : ∀ c : Payload, c.Everywhere p q → ∀ slots ∈ c.calls, HasCall p q slots
  | .single t, h => t.hasCall h.2
  | .call slots, h =>
    List.forall_mem_cons.mpr ⟨⟨.inr h.1, h.2⟩, hasCall_callsOfTerms slots h.2⟩
  | .declare vars none, h => hasCall_callsOfTerms vars h.2
  | .declare vars (some domain), h =>
    List.forall_mem_append.mpr ⟨hasCall_callsOfTerms vars h.2.1, domain.hasCall h.2.2⟩
  | .every none value domain body, h =>
    List.forall_mem_append.mpr
      ⟨List.forall_mem_append.mpr ⟨value.hasCall h.2.1, domain.hasCall h.2.2.1⟩,
        hasCall_callsOfBody body h.2.2.2⟩
  | .every (some key) value domain body, h =>
    List.forall_mem_append.mpr
      ⟨List.forall_mem_append.mpr
        ⟨List.forall_mem_append.mpr ⟨key.hasCall h.2.1, value.hasCall h.2.2.1⟩,
          domain.hasCall h.2.2.2.1⟩,
        hasCall_callsOfBody body h.2.2.2.2⟩

end

theorem Rule.hasCall {r : Rule} (h : r.Everywhere p q) :
    ∀ slots ∈ r.calls, HasCall p q slots :=
  List.forall_mem_append.mpr
    ⟨hasCall_callsOfTerms r.terms h.1,
      List.forall_mem_flatMap.mpr fun body hbody => hasCall_callsOfBody body (h.2 body hbody)⟩

/-! ## Other names -/

/-- Whether the names of variables make no difference. -/
structure IgnoresNames (p : Term → Prop) (q : Payload → Prop) : Prop where
  term : ∀ f t, p (t.mapVars f) ↔ p t
  payload : ∀ f c, q (c.mapVars f) ↔ q c

section

variable {f : String → String}

mutual

theorem Term.everywhere_mapVars (h : IgnoresNames p q) :
    ∀ t : Term, (t.mapVars f).Everywhere p q ↔ t.Everywhere p q
  | .scalar text => h.term f (.scalar text)
  | .string value => h.term f (.string value)
  | .var name => h.term f (.var name)
  | .ref parts => and_congr (h.term f (.ref parts)) (everywhereInTerms_mapTerms h parts)
  | .call slots => and_congr (h.term f (.call slots)) (everywhereInTerms_mapTerms h slots)
  | .array items => and_congr (h.term f (.array items)) (everywhereInTerms_mapTerms h items)
  | .set items => and_congr (h.term f (.set items)) (everywhereInTerms_mapTerms h items)
  | .object fields => and_congr (h.term f (.object fields)) (everywhereInFields_mapFields h fields)
  | .arrayCompr head body =>
    and_congr (h.term f (.arrayCompr head body))
      (and_congr (head.everywhere_mapVars h) (everywhereInBody_mapBody h body))
  | .setCompr head body =>
    and_congr (h.term f (.setCompr head body))
      (and_congr (head.everywhere_mapVars h) (everywhereInBody_mapBody h body))
  | .objectCompr key value body =>
    and_congr (h.term f (.objectCompr key value body))
      (and_congr (key.everywhere_mapVars h)
        (and_congr (value.everywhere_mapVars h) (everywhereInBody_mapBody h body)))

theorem everywhereInTerms_mapTerms (h : IgnoresNames p q) :
    ∀ ts : List Term, EverywhereInTerms p q (mapTerms f ts) ↔ EverywhereInTerms p q ts
  | [] => Iff.rfl
  | t :: rest => and_congr (t.everywhere_mapVars h) (everywhereInTerms_mapTerms h rest)

theorem everywhereInFields_mapFields (h : IgnoresNames p q) :
    ∀ es : List (Term × Term), EverywhereInFields p q (mapFields f es) ↔ EverywhereInFields p q es
  | [] => Iff.rfl
  | (key, value) :: rest =>
    and_congr (and_congr (key.everywhere_mapVars h) (value.everywhere_mapVars h))
      (everywhereInFields_mapFields h rest)

theorem everywhereInBody_mapBody (h : IgnoresNames p q) :
    ∀ body : List Clause, EverywhereInBody p q (mapBody f body) ↔ EverywhereInBody p q body
  | [] => Iff.rfl
  | c :: rest => and_congr (c.everywhere_mapVars h) (everywhereInBody_mapBody h rest)

theorem Clause.everywhere_mapVars (h : IgnoresNames p q) :
    ∀ c : Clause, (c.mapVars f).Everywhere p q ↔ c.Everywhere p q
  | .mk _ payload modifiers =>
    and_congr (payload.everywhere_mapVars h) (everywhereInFields_mapFields h modifiers)

theorem Payload.everywhere_mapVars (h : IgnoresNames p q) :
    ∀ c : Payload, (c.mapVars f).Everywhere p q ↔ c.Everywhere p q
  | .single t => and_congr (h.payload f (.single t)) (t.everywhere_mapVars h)
  | .call slots => and_congr (h.payload f (.call slots)) (everywhereInTerms_mapTerms h slots)
  | .declare vars none =>
    and_congr (h.payload f (.declare vars none)) (everywhereInTerms_mapTerms h vars)
  | .declare vars (some domain) =>
    and_congr (h.payload f (.declare vars (some domain)))
      (and_congr (everywhereInTerms_mapTerms h vars) (domain.everywhere_mapVars h))
  | .every none value domain body =>
    and_congr (h.payload f (.every none value domain body))
      (and_congr (value.everywhere_mapVars h)
        (and_congr (domain.everywhere_mapVars h) (everywhereInBody_mapBody h body)))
  | .every (some key) value domain body =>
    and_congr (h.payload f (.every (some key) value domain body))
      (and_congr (key.everywhere_mapVars h)
        (and_congr (value.everywhere_mapVars h)
          (and_congr (domain.everywhere_mapVars h) (everywhereInBody_mapBody h body))))

end

theorem Rule.everywhere_mapVars (h : IgnoresNames p q) (r : Rule) :
    (r.mapVars f).Everywhere p q ↔ r.Everywhere p q := by
  have hterms : (r.mapVars f).terms = mapTerms f r.terms := by
    simp [Rule.terms, Rule.mapVars, mapTerms_eq_map, Option.toList_map]
  refine and_congr ?_ ?_
  · rw [hterms, everywhereInTerms_mapTerms h]
  · simp only [Rule.mapVars, List.forall_mem_map, everywhereInBody_mapBody h]

theorem Module.everywhere_mapVars (h : IgnoresNames p q) (m : Module) :
    (m.mapVars f).Everywhere p q ↔ m.Everywhere p q := by
  refine and_congr (Term.everywhere_mapVars h (.ref m.package)) (and_congr ?_ ?_)
  · simp only [Module.mapVars, List.forall_mem_map]
    exact forall₂_congr fun i _ => Term.everywhere_mapVars h (.ref i.path)
  · simp only [Module.mapVars, List.forall_mem_map, Rule.everywhere_mapVars h]

end

end

end PolicySync.Policy
