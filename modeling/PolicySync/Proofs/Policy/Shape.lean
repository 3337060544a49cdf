import PolicySync.Proofs.Policy.Compile
import PolicySync.Proofs.Policy.Everywhere
import PolicySync.Proofs.Policy.Reference
import PolicySync.Proofs.Policy.Skeleton

/-!
# The shape of views

In a view every call has an operator, references are flat, and a call at the level of a clause is
kept as a call. Trees are viewed that way, and renaming leaves it so.
-/

namespace PolicySync.Policy

/-- References have a head that is no reference, and calls have an operator. -/
def Term.HasShape : Term → Prop
  | .ref [] => False
  | .ref (.ref _ :: _) => False
  | .call [] => False
  | _ => True

/-- What stands alone in a clause is no call, and calls have an operator. -/
def Payload.HasShape : Payload → Prop
  | .single (.call _) => False
  | .call [] => False
  | _ => True

theorem ignoresNames_hasShape : IgnoresNames Term.HasShape Payload.HasShape where
  term f t := by
    cases t with
    | ref parts =>
      rcases parts with _ | ⟨head, rest⟩
      · exact Iff.rfl
      · cases head <;> exact Iff.rfl
    | call slots => cases slots <;> exact Iff.rfl
    | _ => exact Iff.rfl
  payload f c := by
    cases c with
    | single t => cases t <;> exact Iff.rfl
    | call slots => cases slots <;> exact Iff.rfl
    | declare vars domain => cases domain <;> exact Iff.rfl
    | every key value domain body => cases key <;> exact Iff.rfl

abbrev Term.IsWellShaped (t : Term) : Prop := t.Everywhere Term.HasShape Payload.HasShape

abbrev AreWellShaped (ts : List Term) : Prop :=
  EverywhereInTerms Term.HasShape Payload.HasShape ts

/-! ## Building terms -/

theorem Term.isWellShaped_withSegment {t segment : Term} (ht : t.IsWellShaped)
    (hsegment : segment.IsWellShaped) : (t.withSegment segment).IsWellShaped := by
  have hlast : AreWellShaped [segment] := ⟨hsegment, trivial⟩
  cases t with
  | ref parts =>
    obtain ⟨hshape, hparts⟩ := ht
    refine ⟨?_, everywhereInTerms_append.mpr ⟨hparts, hlast⟩⟩
    -- what is appended to the end of a reference does not change its head
    rcases parts with _ | ⟨head, rest⟩
    · exact hshape.elim
    · cases head <;> exact hshape
  | _ => exact ⟨trivial, ht, hlast⟩

theorem areWellShaped_map {α : Type} (f : α → Term) (h : ∀ a, (f a).IsWellShaped) (l : List α) :
    AreWellShaped (l.map f) :=
  everywhereInTerms_iff.mpr (List.forall_mem_map.mpr fun a _ => h a)

theorem Term.isWellShaped_refOfPath (path : SegmentPath) :
    (Term.ref (refOfPath path)).IsWellShaped :=
  ⟨trivial, trivial, areWellShaped_map .string (fun _ => trivial) path.rest⟩

theorem Term.isWellShaped_operator (name : String) : (Term.operator name).IsWellShaped := by
  unfold Term.operator
  split
  · exact ⟨trivial, trivial, trivial⟩
  next parts _ =>
    let segment (part : List Char) : Term := .string (String.ofList part)
    exact ⟨trivial, trivial, areWellShaped_map segment (fun _ => trivial) parts⟩

theorem isWellShaped_callTerm {function : Term} {args : List Term}
    (hfunction : function.IsWellShaped) (hargs : AreWellShaped args) :
    (callTerm function args).IsWellShaped := by
  fun_cases callTerm function args with
  | case1 => exact ⟨trivial, trivial⟩
  | case2 => exact ⟨trivial, hfunction, hargs⟩

theorem isWellShaped_targetTerm (path : SegmentPath) : (targetTerm path).IsWellShaped := by
  unfold targetTerm
  split
  · trivial
  · exact Term.isWellShaped_refOfPath path

/-- A call that is to stand alone becomes a call of the clause. -/
theorem Payload.everywhere_ofTerm {t : Term} (h : t.IsWellShaped) :
    (Payload.ofTerm t).Everywhere Term.HasShape Payload.HasShape := by
  cases t with
  | call slots =>
    obtain ⟨hshape, hslots⟩ := h
    refine ⟨?_, hslots⟩
    cases slots with
    | nil => exact hshape
    | cons => trivial
  | _ => exact ⟨trivial, h⟩

/-! ## Views of trees -/

mutual

theorem Term.isWellShaped_ofExpr : ∀ e : Expr, (Term.ofExpr e).IsWellShaped
  | .scalar _ => trivial
  | .quoted _ _ => trivial
  | .verbatim _ => trivial
  | .var _ => trivial
  | .array items => ⟨trivial, areWellShaped_ofExprs items⟩
  | .set items => ⟨trivial, areWellShaped_ofExprs items⟩
  | .object fields => ⟨trivial, fieldsOfExprs_everywhere fields⟩
  | .arrayCompr head body =>
    ⟨trivial, Term.isWellShaped_ofExpr head, clausesOfStmts_everywhere body⟩
  | .setCompr head body =>
    ⟨trivial, Term.isWellShaped_ofExpr head, clausesOfStmts_everywhere body⟩
  | .objectCompr key value body =>
    ⟨trivial, Term.isWellShaped_ofExpr key, Term.isWellShaped_ofExpr value,
      clausesOfStmts_everywhere body⟩
  | .call function args =>
    isWellShaped_callTerm (Term.isWellShaped_ofExpr function) (areWellShaped_ofExprs args)
  | .neg operand =>
    ⟨trivial, Term.isWellShaped_operator _, Term.isWellShaped_ofExpr operand, trivial⟩
  | .dot base _ => Term.isWellShaped_withSegment (Term.isWellShaped_ofExpr base) trivial
  | .index base key =>
    Term.isWellShaped_withSegment (Term.isWellShaped_ofExpr base) (Term.isWellShaped_ofExpr key)
  | .binary op lhs rhs =>
    ⟨trivial, Term.isWellShaped_operator op.name, Term.isWellShaped_ofExpr lhs,
      Term.isWellShaped_ofExpr rhs, trivial⟩
  | .member none value collection =>
    ⟨trivial, Term.isWellShaped_operator _, Term.isWellShaped_ofExpr value,
      Term.isWellShaped_ofExpr collection, trivial⟩
  | .member (some key) value collection =>
    ⟨trivial, Term.isWellShaped_operator _, Term.isWellShaped_ofExpr key,
      Term.isWellShaped_ofExpr value, Term.isWellShaped_ofExpr collection, trivial⟩
  | .assign op lhs rhs =>
    ⟨trivial, Term.isWellShaped_operator op.name, Term.isWellShaped_ofExpr lhs,
      Term.isWellShaped_ofExpr rhs, trivial⟩

theorem areWellShaped_ofExprs : ∀ es : List Expr, AreWellShaped (termsOfExprs es)
  | [] => trivial
  | e :: rest => ⟨Term.isWellShaped_ofExpr e, areWellShaped_ofExprs rest⟩

theorem fieldsOfExprs_everywhere : ∀ fields : List (Expr × Expr),
    EverywhereInFields Term.HasShape Payload.HasShape (fieldsOfExprs fields)
  | [] => trivial
  | (key, value) :: rest =>
    ⟨⟨Term.isWellShaped_ofExpr key, Term.isWellShaped_ofExpr value⟩, fieldsOfExprs_everywhere rest⟩

theorem modifiersOfExprs_everywhere : ∀ modifiers : List (SegmentPath × Expr),
    EverywhereInFields Term.HasShape Payload.HasShape (modifiersOfExprs modifiers)
  | [] => trivial
  | (target, value) :: rest =>
    ⟨⟨isWellShaped_targetTerm target, Term.isWellShaped_ofExpr value⟩,
      modifiersOfExprs_everywhere rest⟩

theorem clausesOfStmts_everywhere : ∀ body : List Stmt,
    EverywhereInBody Term.HasShape Payload.HasShape (clausesOfStmts body)
  | [] => trivial
  | s :: rest => ⟨Clause.everywhere_ofStmt s, clausesOfStmts_everywhere rest⟩

theorem Clause.everywhere_ofStmt : ∀ s : Stmt,
    (Clause.ofStmt s).Everywhere Term.HasShape Payload.HasShape
  | .mk (.expr _ e) mods =>
    ⟨Payload.everywhere_ofTerm (Term.isWellShaped_ofExpr e), modifiersOfExprs_everywhere mods⟩
  | .mk (.someVars names) mods =>
    ⟨⟨trivial, areWellShaped_map .var (fun _ => trivial) names⟩, modifiersOfExprs_everywhere mods⟩
  | .mk (.someIn none value collection) mods =>
    ⟨⟨trivial, ⟨Term.isWellShaped_ofExpr value, trivial⟩, Term.isWellShaped_ofExpr collection⟩,
      modifiersOfExprs_everywhere mods⟩
  | .mk (.someIn (some key) value collection) mods =>
    ⟨⟨trivial, ⟨Term.isWellShaped_ofExpr key, Term.isWellShaped_ofExpr value, trivial⟩,
      Term.isWellShaped_ofExpr collection⟩, modifiersOfExprs_everywhere mods⟩
  | .mk (.every none _ domain body) mods =>
    ⟨⟨trivial, trivial, Term.isWellShaped_ofExpr domain, clausesOfStmts_everywhere body⟩,
      modifiersOfExprs_everywhere mods⟩
  | .mk (.every (some _) _ domain body) mods =>
    ⟨⟨trivial, trivial, trivial, Term.isWellShaped_ofExpr domain, clausesOfStmts_everywhere body⟩,
      modifiersOfExprs_everywhere mods⟩

end

theorem Rule.everywhere_ofDecl (d : RuleDecl) :
    (Rule.ofDecl d).Everywhere Term.HasShape Payload.HasShape := by
  refine ⟨?_, ?_⟩
  · rw [Rule.terms_ofDecl]
    exact areWellShaped_map Term.ofExpr Term.isWellShaped_ofExpr d.exprs
  · rw [Rule.bodies_ofDecl]
    exact List.forall_mem_map.mpr fun b _ => clausesOfStmts_everywhere b.query

theorem Module.everywhere_ofTree (m : ModuleTree) :
    (Module.ofTree m).Everywhere Term.HasShape Payload.HasShape :=
  ⟨Term.isWellShaped_refOfPath m.package,
    List.forall_mem_map.mpr fun i _ => Term.isWellShaped_refOfPath i.path,
    List.forall_mem_map.mpr fun d _ => Rule.everywhere_ofDecl d⟩

theorem Term.ref_ne_nil {parts : List Term} (h : (Term.ref parts).IsWellShaped) : parts ≠ [] := by
  rintro rfl
  exact h.1

theorem refSegments?_ne_nil (parts : List Term) : refSegments? parts ≠ some [] := by
  rcases parts with _ | ⟨head, rest⟩
  · exact nofun
  cases head with
  | var name =>
    rw [refSegments?_var]
    cases rest.mapM Term.key? <;> exact nofun
  | _ => exact nofun

/-! ## Compiled fragments -/

/-- Whether the shape is right everywhere in a module. -/
structure Module.IsWellShaped (m : Module) : Prop where
  everywhere : m.Everywhere Term.HasShape Payload.HasShape
  package : m.package ≠ []
  imports : ∀ i ∈ m.imports, i.path ≠ []
  /-- Every call that is checked has an operator, and the operator's path a first segment. -/
  calls : ∀ r ∈ m.rules, ∀ slots ∈ r.calls, ∃ operator operands, slots = operator :: operands ∧
    ∀ parts, operator = .ref parts → parts ≠ [] ∧ refSegments? parts ≠ some []

theorem Module.isWellShaped_of_everywhere {m : Module}
    (h : m.Everywhere Term.HasShape Payload.HasShape) : m.IsWellShaped where
  everywhere := h
  package := Term.ref_ne_nil h.1
  imports i hi := Term.ref_ne_nil (h.2.1 i hi)
  calls r hr slots hslots := by
    obtain ⟨hshape, hterms⟩ := Rule.hasCall (h.2.2 r hr) slots hslots
    cases slots with
    | nil => exact (hshape.elim id id).elim
    | cons operator operands =>
      refine ⟨operator, operands, rfl, ?_⟩
      rintro parts rfl
      exact ⟨Term.ref_ne_nil hterms.1, refSegments?_ne_nil parts⟩

/-- Fragments that compile have views of the right shape, before renaming and after it. -/
theorem compile_isWellShaped {fragments : List (String × String)} {c : Compiled}
    (hcompile : compile fragments = .ok c) :
    ∃ trees, readFragments fragments = .ok trees ∧
      (∀ e ∈ (lowerFragments trees).entries, e.2.IsWellShaped) ∧
      ∀ e ∈ c.modules.entries, e.2.IsWellShaped := by
  cases hread : readFragments fragments with
  | error e =>
    rw [compile_of_unread hread] at hcompile
    cases hcompile
  | ok trees =>
    have hview : ∀ e ∈ (lowerFragments trees).entries,
        e.2.Everywhere Term.HasShape Payload.HasShape := by
      intro e he
      obtain ⟨t, -, rfl⟩ := List.mem_map.mp (SortedMap.mem_of_mem_ofList he)
      exact Module.everywhere_ofTree t.2
    refine ⟨trees, rfl, fun e he => Module.isWellShaped_of_everywhere (hview e he), ?_⟩
    intro e he
    rw [entries_of_compile hread hcompile] at he
    obtain ⟨e₀, he₀, hskeleton⟩ := exists_of_mem_renameModules he
    have hskeletons : (e₀.2.mapVars nameless).Everywhere Term.HasShape Payload.HasShape :=
      (Module.everywhere_mapVars ignoresNames_hasShape e₀.2).mpr (hview e₀ he₀)
    rw [← hskeleton] at hskeletons
    exact Module.isWellShaped_of_everywhere
      ((Module.everywhere_mapVars ignoresNames_hasShape e.2).mp hskeletons)

/-- Chains of fields and keys, a call in a call, and calls that stand alone. -/
theorem compile_isWellShaped_nested :
    let fragments : List (String × String) :=
      [("lib.rego", "package lib\n\nf(x) = x \x7b\n\ttrue\n\x7d\n"),
        ("a.rego", "package a[\"b\"]\n\nimport data.lib\n\np[x] \x7b\n\t" ++
          "x := lib.f(-input.a[input.b].c).d\n\tnot set()[count([y | some y; input[y]])]\n\t" ++
          "lib.f(x) with input.a as x + 1\n\x7d\n")]
    ∃ trees c, readFragments fragments = .ok trees ∧ compile fragments = .ok c ∧
      (∀ e ∈ (lowerFragments trees).entries, e.2.IsWellShaped) ∧
      ∀ e ∈ c.modules.entries, e.2.IsWellShaped := by
  intro fragments
  have hread : ∃ trees, readFragments fragments = .ok trees ∧
      undefinedCall? (lowerFragments trees) = none :=
    exists_readFragments (by decide +kernel)
  obtain ⟨trees, hread, hcalls⟩ := hread
  have hcompile := compile_of_read hread hcalls rfl
  obtain ⟨trees', hread', hshapes⟩ := compile_isWellShaped hcompile
  cases hread.symm.trans hread'
  exact ⟨trees, _, hread, hcompile, hshapes⟩

end PolicySync.Policy
