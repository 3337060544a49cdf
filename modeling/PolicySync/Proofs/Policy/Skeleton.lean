import Mathlib.Logic.Basic
import PolicySync.Proofs.Policy.Occurrence

/-!
# What renaming leaves alone

Renaming changes the names of variables and nothing else. Without names, what is renamed and what
comes out are the same.
-/

namespace PolicySync.Policy

/-- One name for all variables. -/
def nameless (_ : String) : String := ""

mutual

theorem Term.rename_nameless : ∀ (t : Term) (scope : Scope) (names : Locals),
    (t.rename scope names).1.mapVars nameless = t.mapVars nameless
  | .scalar _, _, _ => rfl
  | .string _, _, _ => rfl
  | .var _, _, _ => rfl
  | .ref parts, scope, names => congrArg Term.ref (renameTerms_nameless parts scope names)
  | .call slots, scope, names => congrArg Term.call (renameTerms_nameless slots scope names)
  | .array items, scope, names => congrArg Term.array (renameTerms_nameless items scope names)
  | .set items, scope, names => congrArg Term.set (renameTerms_nameless items scope names)
  | .object fields, scope, names => congrArg Term.object (renameFields_nameless fields scope names)
  | .arrayCompr head body, scope, names =>
    congrArg₂ Term.arrayCompr (head.rename_nameless _ _) (renameBody_nameless body scope names)
  | .setCompr head body, scope, names =>
    congrArg₂ Term.setCompr (head.rename_nameless _ _) (renameBody_nameless body scope names)
  | .objectCompr key value body, scope, names => by
    simp only [Term.mapVars, Term.rename, key.rename_nameless, value.rename_nameless,
      renameBody_nameless body]

theorem renameTerms_nameless : ∀ (ts : List Term) (scope : Scope) (names : Locals),
    mapTerms nameless (renameTerms scope ts names).1 = mapTerms nameless ts
  | [], _, _ => rfl
  | t :: rest, scope, names =>
    congrArg₂ List.cons (t.rename_nameless scope names) (renameTerms_nameless rest scope _)

theorem renameFields_nameless : ∀ (es : List (Term × Term)) (scope : Scope) (names : Locals),
    mapFields nameless (renameFields scope es names).1 = mapFields nameless es
  | [], _, _ => rfl
  | (key, value) :: rest, scope, names =>
    congrArg₂ List.cons
      (congrArg₂ Prod.mk (key.rename_nameless scope names) (value.rename_nameless scope _))
      (renameFields_nameless rest scope _)

theorem renameModifiers_nameless : ∀ (es : List (Term × Term)) (scope : Scope) (names : Locals),
    mapFields nameless (renameModifiers scope es names).1 = mapFields nameless es
  | [], _, _ => rfl
  | (_, value) :: rest, scope, names =>
    congrArg₂ List.cons (congrArg (Prod.mk _) (value.rename_nameless scope names))
      (renameModifiers_nameless rest scope _)

theorem Term.declare_nameless : ∀ (t : Term) (scope : Scope) (names : Locals),
    (t.declare scope names).1.mapVars nameless = t.mapVars nameless
  | .var name, scope, names => by
    rw [Term.declare]
    split <;> rfl
  | .array items, scope, names => congrArg Term.array (declareTerms_nameless items scope names)
  | .scalar _, _, _ => rfl
  | .string _, _, _ => rfl
  | .ref parts, scope, names => congrArg Term.ref (renameTerms_nameless parts scope names)
  | .call slots, scope, names => congrArg Term.call (renameTerms_nameless slots scope names)
  | .set items, scope, names => congrArg Term.set (renameTerms_nameless items scope names)
  | .object fields, scope, names => congrArg Term.object (renameFields_nameless fields scope names)
  | .arrayCompr head body, scope, names =>
    congrArg₂ Term.arrayCompr (head.rename_nameless _ _) (renameBody_nameless body scope names)
  | .setCompr head body, scope, names =>
    congrArg₂ Term.setCompr (head.rename_nameless _ _) (renameBody_nameless body scope names)
  | .objectCompr key value body, scope, names => by
    simp only [Term.mapVars, Term.declare, key.rename_nameless, value.rename_nameless,
      renameBody_nameless body]

theorem declareTerms_nameless : ∀ (ts : List Term) (scope : Scope) (names : Locals),
    mapTerms nameless (declareTerms scope ts names).1 = mapTerms nameless ts
  | [], _, _ => rfl
  | t :: rest, scope, names =>
    congrArg₂ List.cons (t.declare_nameless scope names) (declareTerms_nameless rest _ _)

theorem renameBody_nameless : ∀ (body : List Clause) (scope : Scope) (names : Locals),
    mapBody nameless (renameBody scope body names).1 = mapBody nameless body
  | [], _, _ => rfl
  | c :: rest, scope, names =>
    congrArg₂ List.cons (c.rename_nameless scope names) (renameBody_nameless rest _ _)

theorem Clause.rename_nameless : ∀ (c : Clause) (scope : Scope) (names : Locals),
    (c.rename scope names).1.mapVars nameless = c.mapVars nameless
  | .mk negated payload modifiers, scope, names =>
    congrArg₂ (Clause.mk negated) (payload.rename_nameless scope names)
      (renameModifiers_nameless modifiers _ _)

theorem Payload.rename_nameless : ∀ (p : Payload) (scope : Scope) (names : Locals),
    (p.rename scope names).1.mapVars nameless = p.mapVars nameless
  | .single t, scope, names => congrArg Payload.single (t.rename_nameless scope names)
  | .call slots, scope, names => by
    by_cases h : ∃ lhs rhs, slots = [.ref [.var "assign"], lhs, rhs]
    · obtain ⟨lhs, rhs, rfl⟩ := h
      simp only [Payload.rename, Payload.mapVars, mapTerms, lhs.declare_nameless,
        rhs.rename_nameless]
    · have hplain : IsPlainCall slots := fun lhs rhs heq => h ⟨lhs, rhs, heq⟩
      rw [Payload.rename_call hplain, Payload.mapVars, renameTerms_nameless slots, Payload.mapVars]
  | .declare vars none, scope, names =>
    congrArg (Payload.declare · none) (declareTerms_nameless vars scope names)
  | .declare vars (some domain), scope, names => by
    simp only [Payload.rename, Payload.mapVars, domain.rename_nameless, declareTerms_nameless vars]
  | .every none value domain body, scope, names => by
    simp only [Payload.rename, Payload.mapVars, value.declare_nameless, domain.rename_nameless,
      renameBody_nameless body]
  | .every (some key) value domain body, scope, names => by
    simp only [Payload.rename, Payload.mapVars, key.declare_nameless, value.declare_nameless,
      domain.rename_nameless, renameBody_nameless body]

end

theorem renameTerm?_nameless (o : Option Term) (scope : Scope) (names : Locals) :
    (renameTerm? scope o names).1.map (Term.mapVars nameless) =
      o.map (Term.mapVars nameless) := by
  cases o with
  | none => rfl
  | some t => exact congrArg some (t.rename_nameless scope names)

theorem renameBodies_nameless (bodies : List Body) (names : Locals) :
    (renameBodies bodies names).1.map (mapBody nameless) = bodies.map (mapBody nameless) := by
  induction bodies generalizing names with
  | nil => rfl
  | cons body rest ih => exact congrArg₂ List.cons (renameBody_nameless body [] names) (ih _)

theorem Rule.rename_nameless (r : Rule) (names : Locals) :
    (r.rename names).1.mapVars nameless = r.mapVars nameless := by
  unfold Rule.rename
  split
  next => rfl
  next body rest hbodies =>
    simp only [Rule.mapVars, renameTerm?_nameless, List.map_cons, renameBody_nameless,
      renameBodies_nameless, hbodies]

theorem Module.rename_nameless (m : Module) (names : Locals) :
    (m.rename names).1.mapVars nameless = m.mapVars nameless := by
  have hrules : ∀ (rules : List Rule) (names : Locals),
      (renameRules rules names).1.map (Rule.mapVars nameless) =
        rules.map (Rule.mapVars nameless) := by
    intro rules
    induction rules with
    | nil => exact fun _ => rfl
    | cons r rest ih => exact fun names => congrArg₂ List.cons (r.rename_nameless names) (ih _)
  simp only [Module.rename, Module.mapVars, hrules]

/-- Every renamed module is one of the modules before, but for the names of variables. -/
theorem exists_of_mem_renameModules {entries : List (String × Module)} {names : Locals}
    {e : String × Module} (h : e ∈ (renameModules entries names).1) :
    ∃ e₀ ∈ entries, e.2.mapVars nameless = e₀.2.mapVars nameless := by
  induction entries generalizing names with
  | nil => cases h
  | cons first rest ih =>
    rcases List.mem_cons.mp h with rfl | h
    · exact ⟨first, List.mem_cons_self, first.2.rename_nameless names⟩
    · obtain ⟨e₀, he₀, hskeleton⟩ := ih h
      exact ⟨e₀, List.mem_cons_of_mem _ he₀, hskeleton⟩

end PolicySync.Policy
