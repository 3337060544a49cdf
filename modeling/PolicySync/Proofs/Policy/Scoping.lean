import Mathlib.Data.List.Forall2
import PolicySync.Proofs.Policy.Renaming
import PolicySync.Proofs.Policy.Use

/-!
# Renaming respects scopes

The scope that renaming carries holds, latest first, the names of all declarations that a place
sees. A look-up in it finds the nearest declaration, so each use gets the name of that, and keeps
its own where no declaration of its name is seen.
-/

namespace PolicySync.Policy

/-- Whether the names in force in a scope are those that declarations got: of the declarations seen
from a place in a view, and of the same ones as they are named in what it is renamed to. -/
inductive Scope.Shows : Scope → Seen → Seen → Prop
  | start : Shows [] .nothing .nothing
  | enter {scope : Scope} {seen seen' : Seen} (h : Shows scope seen seen') :
      Shows scope seen.enter seen'.enter
  | declare {scope : Scope} {seen seen' : Seen} {name : String} (n : Nat) (hname : name ≠ "_")
      (h : Shows scope seen seen') :
      Shows ((name, localName n) :: scope) (seen.declare [name]) (seen'.declare [localName n])

/-- Whether a use is renamed to another as scopes demand. -/
structure Use.RenamedTo (u u' : Use) : Prop where
  /-- Declarations at the same places are seen, each under a new name. -/
  declared : List.Forall₂ (List.Forall₂ fun _ new => ¬ IsSourceName new) u.seen.bodies
    u'.seen.bodies
  fixed : u'.fixed = u.fixed
  kept : u.fixed = true → u'.name = u.name
  /-- It gets another name exactly when a declaration of its name is seen. -/
  renamed : u.fixed = false → (u'.name ≠ u.name ↔ ∃ i j, u.seen.declared? i j = some u.name)
  /-- The name is the one that the nearest such declaration got. -/
  nearest : u.fixed = false → (∃ i j, u.seen.declared? i j = some u.name) →
    ∃ i j, u.seen.IsNearest u.name i j ∧ u'.seen.declared? i j = some u'.name

/-- Whether the uses in something are renamed one by one to those in something else. -/
abbrev RenamesUses (us us' : List Use) : Prop := List.Forall₂ Use.RenamedTo us us'

namespace Seen

variable {seen : Seen} {names : List String} {name other : String} {i j : Nat}

/-- Later declarations leave the earlier ones at their places. -/
theorem declared?_declare_of_eq (h : seen.declared? i j = some name) :
    (seen.declare names).declared? i j = some name := by
  cases i with
  | zero =>
    have hlt : j < seen.here.length := (List.getElem?_eq_some_iff.mp h).1
    rw [declared?_declare_zero, List.getElem?_append_left hlt]
    exact h
  | succ i => exact h

/-- The declaration of another name is found under that name only. -/
theorem declared?_declare_of_ne (hne : other ≠ name) :
    (seen.declare [other]).declared? i j = some name ↔ seen.declared? i j = some name := by
  refine ⟨fun h => ?_, declared?_declare_of_eq⟩
  cases i with
  | zero =>
    rw [declared?_declare_zero, List.getElem?_append] at h
    split at h
    · exact h
    · have hlast : name = other := by
        simpa using List.mem_of_getElem? h
      exact absurd hlast.symm hne
  | succ i => exact h

end Seen

namespace Seen.IsNearest

variable {seen : Seen} {name other : String} {i j : Nat}

theorem enter (h : seen.IsNearest name i j) : seen.enter.IsNearest name (i + 1) j where
  found := h.found
  latest := h.latest
  innermost g hg k := by
    cases g with
    | zero => simp
    | succ g => exact h.innermost g (by omega) k

theorem declare_of_ne (hne : other ≠ name) (h : seen.IsNearest name i j) :
    (seen.declare [other]).IsNearest name i j where
  found := (Seen.declared?_declare_of_ne hne).mpr h.found
  latest k hk hfound := h.latest k hk ((Seen.declared?_declare_of_ne hne).mp hfound)
  innermost g hg k hfound := h.innermost g hg k ((Seen.declared?_declare_of_ne hne).mp hfound)

theorem declare_self (seen : Seen) (name : String) :
    (seen.declare [name]).IsNearest name 0 seen.here.length where
  found := by simp
  latest k hk := by
    have hend : (seen.here ++ [name])[k]? = none := by
      rw [List.getElem?_eq_none_iff, List.length_append, List.length_singleton]
      exact hk
    simp [hend]
  innermost g hg := absurd hg (Nat.not_lt_zero g)

end Seen.IsNearest

namespace Scope.Shows

variable {scope : Scope} {seen seen' : Seen}

theorem declared (h : scope.Shows seen seen') :
    List.Forall₂ (List.Forall₂ fun _ new => ¬ IsSourceName new) seen.bodies seen'.bodies := by
  induction h with
  | start => exact .cons .nil .nil
  | enter h ih => exact .cons .nil ih
  | @declare scope seen seen' name n hname h ih =>
    obtain ⟨hhere, haround⟩ := List.forall₂_cons.mp ih
    have hnew : List.Forall₂ (fun _ new => ¬ IsSourceName new) [name] [localName n] :=
      .cons (fun hsource => hsource n rfl) .nil
    exact .cons (List.rel_append hhere hnew) haround

/-- What is found for a name is the name that its nearest declaration got, and the name itself when
no declaration of it is seen. -/
theorem find (h : scope.Shows seen seen') (name : String) :
    (scope.find name = name ∧ ∀ i j, seen.declared? i j ≠ some name) ∨
      (¬ IsSourceName (scope.find name) ∧ ∃ i j, seen.IsNearest name i j ∧
        seen'.declared? i j = some (scope.find name)) := by
  induction h with
  | start => exact .inl ⟨rfl, by simp⟩
  | enter h ih =>
    rcases ih with ⟨hfind, hnone⟩ | ⟨hnew, i, j, hnear, hgiven⟩
    · refine .inl ⟨hfind, fun i j => ?_⟩
      cases i with
      | zero => simp
      | succ i => exact hnone i j
    · exact .inr ⟨hnew, i + 1, j, hnear.enter, hgiven⟩
  | @declare scope seen seen' other n hother h ih =>
    by_cases hname : other = name
    · subst hname
      have hfind : Scope.find ((other, localName n) :: scope) other = localName n := by
        rw [Scope.find, lookupEntry, if_pos rfl, Option.getD_some]
      have hlength : seen.here.length = seen'.here.length :=
        (List.forall₂_cons.mp h.declared).1.length_eq
      rw [hfind]
      refine .inr ⟨fun hsource => hsource n rfl, 0, seen.here.length, .declare_self seen other, ?_⟩
      simp [hlength]
    · have hfind : Scope.find ((other, localName n) :: scope) name = scope.find name := by
        rw [Scope.find, lookupEntry, if_neg hname, Scope.find]
      rw [hfind]
      rcases ih with ⟨hfree, hnone⟩ | ⟨hnew, i, j, hnear, hgiven⟩
      · refine .inl ⟨hfree, fun i j hfound => ?_⟩
        exact hnone i j ((Seen.declared?_declare_of_ne hname).mp hfound)
      · exact .inr ⟨hnew, i, j, hnear.declare_of_ne hname, Seen.declared?_declare_of_eq hgiven⟩

theorem find_blank (h : scope.Shows seen seen') : scope.find "_" = "_" := by
  induction h with
  | start => rfl
  | enter h ih => exact ih
  | declare n hname h ih =>
    rw [Scope.find, lookupEntry, if_neg hname]
    exact ih

theorem renamedTo (h : scope.Shows seen seen') {name : String} (hname : IsSourceName name) :
    Use.RenamedTo ⟨name, seen, false⟩ ⟨scope.find name, seen', false⟩ := by
  have hdeclared := h.declared
  rcases h.find name with ⟨hfind, hnone⟩ | ⟨hnew, i, j, hnear, hgiven⟩
  · have hfree : ¬ ∃ i j, seen.declared? i j = some name := fun ⟨i, j, hij⟩ => hnone i j hij
    exact ⟨hdeclared, rfl, by simp, by simp [hfind, hfree], fun _ hbound => absurd hbound hfree⟩
  · have hbound : ∃ i j, seen.declared? i j = some name := ⟨i, j, hnear.found⟩
    have hne : scope.find name ≠ name := by
      intro heq
      rw [heq] at hnew
      exact hnew hname
    exact ⟨hdeclared, rfl, by simp, by simp [hne, hbound], fun _ _ => ⟨i, j, hnear, hgiven⟩⟩

theorem keeps (h : scope.Shows seen seen') (name : String) :
    Use.RenamedTo (.fixedIn seen name) (.fixedIn seen' name) :=
  ⟨h.declared, rfl, fun _ => rfl, nofun, nofun⟩

end Scope.Shows

/-! ## Terms and bodies -/

/-- Whether a term is renamed as scopes demand, as it stands and as a pattern. -/
structure Term.IsScoped (t : Term) : Prop where
  renamed : ∀ {scope seen seen'} names, Scope.Shows scope seen seen' →
    AllNames IsSourceName t.occurrences →
    RenamesUses (t.uses seen) ((t.rename scope names).1.uses seen')
  declared : ∀ {scope seen seen'} names, Scope.Shows scope seen seen' →
    AllNames IsSourceName t.occurrences →
    RenamesUses (t.usesInPattern seen) ((t.declare scope names).1.usesInPattern seen') ∧
      (t.declare scope names).2.1.Shows (seen.declare t.declared)
        (seen'.declare (t.declare scope names).1.declared)

def Payload.IsScoped (p : Payload) : Prop :=
  ∀ {scope seen seen'} names, Scope.Shows scope seen seen' → AllNames IsSourceName p.occurrences →
    RenamesUses (p.uses seen) ((p.rename scope names).1.uses seen') ∧
      (p.rename scope names).2.1.Shows (seen.declare p.declared)
        (seen'.declare (p.rename scope names).1.declared)

def Clause.IsScoped (c : Clause) : Prop :=
  ∀ {scope seen seen'} names, Scope.Shows scope seen seen' → AllNames IsSourceName c.occurrences →
    RenamesUses (c.uses seen) ((c.rename scope names).1.uses seen') ∧
      (c.rename scope names).2.1.Shows (seen.declare c.declared)
        (seen'.declare (c.rename scope names).1.declared)

section

variable {scope : Scope} {seen seen' : Seen}

theorem renameTerms_scoped {ts : List Term} (h : ∀ t ∈ ts, t.IsScoped)
    (hscope : scope.Shows seen seen') (hts : ∀ t ∈ ts, AllNames IsSourceName t.occurrences)
    (names : Locals) :
    RenamesUses (usesInTerms seen ts) (usesInTerms seen' (renameTerms scope ts names).1) := by
  induction ts generalizing names with
  | nil => exact .nil
  | cons t rest ih =>
    obtain ⟨ht, hrest⟩ := List.forall_mem_cons.mp h
    obtain ⟨hsource, hsources⟩ := List.forall_mem_cons.mp hts
    have hfirst := ht.renamed names hscope hsource
    exact List.rel_append hfirst (ih hrest hsources _)

theorem declareTerms_scoped {ts : List Term} (h : ∀ t ∈ ts, t.IsScoped)
    (hscope : scope.Shows seen seen') (hts : ∀ t ∈ ts, AllNames IsSourceName t.occurrences)
    (names : Locals) :
    RenamesUses (usesInPatterns seen ts) (usesInPatterns seen' (declareTerms scope ts names).1) ∧
      (declareTerms scope ts names).2.1.Shows (seen.declare (declaredInTerms ts))
        (seen'.declare (declaredInTerms (declareTerms scope ts names).1)) := by
  induction ts generalizing scope seen seen' names with
  | nil =>
    simp only [declareTerms, declaredInTerms, Seen.declare_nil]
    exact ⟨.nil, hscope⟩
  | cons t rest ih =>
    obtain ⟨ht, hrest⟩ := List.forall_mem_cons.mp h
    obtain ⟨hsource, hsources⟩ := List.forall_mem_cons.mp hts
    obtain ⟨hfirst, hscope'⟩ := ht.declared names hscope hsource
    obtain ⟨hmore, hscope''⟩ := ih hrest hscope' hsources (t.declare scope names).2.2
    rw [Seen.declare_declare, Seen.declare_declare] at hscope''
    exact ⟨List.rel_append hfirst hmore, hscope''⟩

theorem renameFields_scoped {es : List (Term × Term)}
    (h : ∀ e ∈ es, e.1.IsScoped ∧ e.2.IsScoped) (hscope : scope.Shows seen seen')
    (hes : ∀ e ∈ es, AllNames IsSourceName e.1.occurrences ∧
      AllNames IsSourceName e.2.occurrences) (names : Locals) :
    RenamesUses (usesInFields seen es) (usesInFields seen' (renameFields scope es names).1) := by
  induction es generalizing names with
  | nil => exact .nil
  | cons e rest ih =>
    obtain ⟨⟨hkey, hvalue⟩, hrest⟩ := List.forall_mem_cons.mp h
    obtain ⟨⟨hkeys, hvalues⟩, hsources⟩ := List.forall_mem_cons.mp hes
    have hfirst := hkey.renamed names hscope hkeys
    have hsecond := hvalue.renamed (e.1.rename scope names).2 hscope hvalues
    exact List.rel_append hfirst (List.rel_append hsecond (ih hrest hsources _))

theorem renameModifiers_scoped {es : List (Term × Term)}
    (h : ∀ e ∈ es, e.1.IsScoped ∧ e.2.IsScoped) (hscope : scope.Shows seen seen')
    (hes : ∀ e ∈ es, AllNames IsSourceName e.1.occurrences ∧
      AllNames IsSourceName e.2.occurrences) (names : Locals) :
    RenamesUses (usesInModifiers seen es)
      (usesInModifiers seen' (renameModifiers scope es names).1) := by
  induction es generalizing names with
  | nil => exact .nil
  | cons e rest ih =>
    obtain ⟨⟨-, hvalue⟩, hrest⟩ := List.forall_mem_cons.mp h
    obtain ⟨⟨-, hvalues⟩, hsources⟩ := List.forall_mem_cons.mp hes
    have htarget : RenamesUses (e.1.occurrences.map fun o => Use.fixedIn seen o.name)
        (e.1.occurrences.map fun o => Use.fixedIn seen' o.name) := by
      rw [RenamesUses, List.forall₂_map_left_iff, List.forall₂_map_right_iff, List.forall₂_same]
      exact fun o _ => hscope.keeps o.name
    have hsecond := hvalue.renamed names hscope hvalues
    exact List.rel_append htarget (List.rel_append hsecond (ih hrest hsources _))

theorem renameBody_scoped {body : List Clause} (h : ∀ c ∈ body, c.IsScoped)
    (hscope : scope.Shows seen seen') (hbody : ∀ c ∈ body, AllNames IsSourceName c.occurrences)
    (names : Locals) :
    RenamesUses (usesInBody seen body) (usesInBody seen' (renameBody scope body names).1) ∧
      (renameBody scope body names).2.1.Shows (seen.after body)
        (seen'.after (renameBody scope body names).1) := by
  induction body generalizing scope seen seen' names with
  | nil =>
    simp only [Seen.after, renameBody, List.flatMap_nil, Seen.declare_nil]
    exact ⟨.nil, hscope⟩
  | cons c rest ih =>
    obtain ⟨hc, hrest⟩ := List.forall_mem_cons.mp h
    obtain ⟨hsource, hsources⟩ := List.forall_mem_cons.mp hbody
    obtain ⟨hfirst, hscope'⟩ := hc names hscope hsource
    obtain ⟨hmore, hscope''⟩ := ih hrest hscope' hsources (c.rename scope names).2.2
    rw [Seen.after, Seen.after, Seen.declare_declare, Seen.declare_declare] at hscope''
    exact ⟨List.rel_append hfirst hmore, hscope''⟩

/-- A head that stands before a body sees what the body declares. -/
theorem renameUnder_scoped {head : Term} {body : List Clause} (hhead : head.IsScoped)
    (hbody : ∀ c ∈ body, c.IsScoped) (hscope : scope.Shows seen seen')
    (hsource : AllNames IsSourceName (occurrencesInBody body ++ head.occurrences))
    (names : Locals) :
    let inner := renameBody scope body names
    RenamesUses (usesInBody seen.enter body ++ head.uses (seen.enter.after body))
      (usesInBody seen'.enter inner.1 ++
        (head.rename inner.2.1 inner.2.2).1.uses (seen'.enter.after inner.1)) := by
  obtain ⟨hbodies, hheads⟩ := AllNames.append.mp hsource
  obtain ⟨hfirst, hinner⟩ :=
    renameBody_scoped hbody hscope.enter (AllNames.body.mp hbodies) names
  exact List.rel_append hfirst (hhead.renamed _ hinner hheads)

/-- A body sees what a pattern before it declares. -/
theorem declareOver_scoped {t : Term} {body : List Clause} (ht : t.IsScoped)
    (hbody : ∀ c ∈ body, c.IsScoped) (hscope : scope.Shows seen seen')
    (hsource : AllNames IsSourceName (t.patternOccurrences ++ occurrencesInBody body))
    (names : Locals) :
    let pattern := t.declare scope names
    RenamesUses (t.usesInPattern seen ++ usesInBody (seen.declare t.declared) body)
      (pattern.1.usesInPattern seen' ++ usesInBody (seen'.declare pattern.1.declared)
        (renameBody pattern.2.1 body pattern.2.2).1) := by
  obtain ⟨hpattern, hbodies⟩ := AllNames.append.mp hsource
  obtain ⟨hfirst, hinner⟩ := ht.declared names hscope ((AllNames.pattern t).mp hpattern)
  obtain ⟨hsecond, -⟩ := renameBody_scoped hbody hinner (AllNames.body.mp hbodies)
    (t.declare scope names).2.2
  exact List.rel_append hfirst hsecond

end

/-- What declares nothing itself is renamed alike as a pattern. -/
theorem Term.IsScoped.of_renamed {t : Term}
    (hdeclare : ∀ scope names,
      t.declare scope names = ((t.rename scope names).1, scope, (t.rename scope names).2))
    (hpattern : ∀ scope names seen seen', t.usesInPattern seen = t.uses seen ∧
      (t.rename scope names).1.usesInPattern seen' = (t.rename scope names).1.uses seen')
    (hnone : ∀ scope names, t.declared = [] ∧ (t.rename scope names).1.declared = [])
    (h : ∀ {scope seen seen'} names, Scope.Shows scope seen seen' →
      AllNames IsSourceName t.occurrences →
      RenamesUses (t.uses seen) ((t.rename scope names).1.uses seen')) : t.IsScoped where
  renamed := h
  declared {scope seen seen'} names hscope ht := by
    obtain ⟨huses, huses'⟩ := hpattern scope names seen seen'
    obtain ⟨hdeclared, hdeclared'⟩ := hnone scope names
    rw [hdeclare, huses, hdeclared]
    simp only [huses', hdeclared', Seen.declare_nil]
    exact ⟨h names hscope ht, hscope⟩

theorem Term.isScoped_var (name : String) : (Term.var name).IsScoped where
  renamed _ hscope ht := .cons (hscope.renamedTo (AllNames.one.mp ht)) .nil
  declared {scope seen seen'} names hscope ht := by
    by_cases hblank : name = "_"
    · subst hblank
      have hblank := hscope.renamedTo isSourceName_blank
      rw [hscope.find_blank] at hblank
      simp only [Term.declare, Term.usesInPattern, Term.declared, if_true, hscope.find_blank,
        Seen.declare_nil]
      exact ⟨.cons hblank .nil, hscope⟩
    · have hnew : localName names.length ≠ "_" :=
        fun h => isSourceName_blank names.length h.symm
      simp only [Term.declare, Term.usesInPattern, Term.declared, if_neg hblank, if_neg hnew]
      exact ⟨.nil, hscope.declare names.length hblank⟩

section

variable {scope : Scope} {seen seen' : Seen} {names : Locals}

private theorem exists_of_renameTerms {ts rest' : List Term} {t' : Term}
    (h : (renameTerms scope ts names).1 = t' :: rest') :
    ∃ t rest names', ts = t :: rest ∧ (t.rename scope names).1 = t' ∧
      (renameTerms scope rest names').1 = rest' := by
  cases ts with
  | nil => cases h
  | cons t rest =>
    obtain ⟨ht, hrest⟩ := List.cons.inj h
    exact ⟨t, rest, _, rfl, ht, hrest⟩

private theorem eq_nil_of_renameTerms {ts : List Term} (h : (renameTerms scope ts names).1 = []) :
    ts = [] := by
  cases ts with
  | nil => rfl
  | cons t rest => cases h

private theorem eq_assign_of_rename (hscope : scope.Shows seen seen') {t : Term}
    (h : (t.rename scope names).1 = .ref [.var "assign"]) : t = .ref [.var "assign"] := by
  cases t with
  | ref parts =>
    obtain ⟨t, rest, names', rfl, ht, hrest⟩ := exists_of_renameTerms (Term.ref.inj h)
    obtain rfl := eq_nil_of_renameTerms hrest
    cases t with
    | var name =>
      have hfind : scope.find name = "assign" := Term.var.inj ht
      rcases hscope.find name with ⟨hkept, -⟩ | ⟨hnew, -⟩
      · rw [← hkept, hfind]
      · rw [hfind] at hnew
        exact absurd isSourceName_assign hnew
    | _ => simp [Term.rename] at ht
  | _ => simp [Term.rename] at h

/-- A call that declares nothing stays one: no variable is renamed to an operator. -/
theorem IsPlainCall.renamed {slots : List Term} (h : IsPlainCall slots)
    (hscope : scope.Shows seen seen') : IsPlainCall (renameTerms scope slots names).1 := by
  intro lhs rhs heq
  obtain ⟨operator, operands, _, rfl, hoperator, hoperands⟩ := exists_of_renameTerms heq
  obtain ⟨a, second, _, rfl, -, hsecond⟩ := exists_of_renameTerms hoperands
  obtain ⟨b, third, _, rfl, -, hthird⟩ := exists_of_renameTerms hsecond
  obtain rfl := eq_nil_of_renameTerms hthird
  rw [eq_assign_of_rename hscope hoperator] at h
  exact h a b rfl

end

theorem Payload.declared_call {slots : List Term} (h : IsPlainCall slots) :
    (Payload.call slots).declared = [] := by
  unfold Payload.declared
  split
  · next heq =>
    cases heq
    exact absurd rfl (h _ _)
  · next heq => cases heq
  · rfl

theorem Payload.isScoped_call {slots : List Term} (ih : ∀ t ∈ slots, t.IsScoped) :
    (Payload.call slots).IsScoped := by
  intro scope seen seen' names hscope ht
  have hslots := AllNames.call.mp ht
  by_cases hassign : ∃ lhs rhs, slots = [.ref [.var "assign"], lhs, rhs]
  · obtain ⟨lhs, rhs, rfl⟩ := hassign
    have hright := (ih rhs (by simp)).renamed names hscope (hslots rhs (by simp))
    obtain ⟨hleft, hscope'⟩ :=
      (ih lhs (by simp)).declared (rhs.rename scope names).2 hscope (hslots lhs (by simp))
    simp only [Payload.rename, Payload.uses, Payload.declared]
    exact ⟨.cons (hscope.keeps "assign") (List.rel_append hright hleft), hscope'⟩
  · have hplain : IsPlainCall slots := fun lhs rhs heq => hassign ⟨lhs, rhs, heq⟩
    have hstill : IsPlainCall (renameTerms scope slots names).1 := hplain.renamed hscope
    rw [Payload.rename_call hplain]
    simp only [Payload.uses_call hplain, Payload.uses_call hstill, Payload.declared_call hplain,
      Payload.declared_call hstill, Seen.declare_nil]
    exact ⟨renameTerms_scoped ih hscope hslots names, hscope⟩

theorem isScoped : TermInduction Term.IsScoped Clause.IsScoped Payload.IsScoped where
  scalar _ := .of_renamed (fun _ _ => rfl) (fun _ _ _ _ => ⟨rfl, rfl⟩) (fun _ _ => ⟨rfl, rfl⟩)
    fun _ _ _ => .nil
  string _ := .of_renamed (fun _ _ => rfl) (fun _ _ _ _ => ⟨rfl, rfl⟩) (fun _ _ => ⟨rfl, rfl⟩)
    fun _ _ _ => .nil
  var := Term.isScoped_var
  ref parts ih := .of_renamed (fun _ _ => rfl) (fun _ _ _ _ => ⟨rfl, rfl⟩)
    (fun _ _ => ⟨rfl, rfl⟩) fun names hscope ht =>
      renameTerms_scoped ih hscope (AllNames.terms.mp ht) names
  call slots ih := .of_renamed (fun _ _ => rfl) (fun _ _ _ _ => ⟨rfl, rfl⟩)
    (fun _ _ => ⟨rfl, rfl⟩) fun names hscope ht =>
      renameTerms_scoped ih hscope (AllNames.terms.mp ht) names
  array items ih := {
    renamed names hscope ht := renameTerms_scoped ih hscope (AllNames.terms.mp ht) names
    declared names hscope ht := declareTerms_scoped ih hscope (AllNames.terms.mp ht) names }
  set items ih := .of_renamed (fun _ _ => rfl) (fun _ _ _ _ => ⟨rfl, rfl⟩)
    (fun _ _ => ⟨rfl, rfl⟩) fun names hscope ht =>
      renameTerms_scoped ih hscope (AllNames.terms.mp ht) names
  object fields ih := .of_renamed (fun _ _ => rfl) (fun _ _ _ _ => ⟨rfl, rfl⟩)
    (fun _ _ => ⟨rfl, rfl⟩) fun names hscope ht =>
      renameFields_scoped ih hscope (AllNames.fields.mp ht) names
  arrayCompr head body ihhead ihbody := .of_renamed (fun _ _ => rfl)
    (fun _ _ _ _ => ⟨rfl, rfl⟩) (fun _ _ => ⟨rfl, rfl⟩) fun names hscope ht =>
      renameUnder_scoped ihhead ihbody hscope ht names
  setCompr head body ihhead ihbody := .of_renamed (fun _ _ => rfl)
    (fun _ _ _ _ => ⟨rfl, rfl⟩) (fun _ _ => ⟨rfl, rfl⟩) fun names hscope ht =>
      renameUnder_scoped ihhead ihbody hscope ht names
  objectCompr key value body ihkey ihvalue ihbody := by
    refine .of_renamed (fun _ _ => rfl) (fun _ _ _ _ => ⟨rfl, rfl⟩) (fun _ _ => ⟨rfl, rfl⟩)
      fun {scope seen seen'} names hscope ht => ?_
    obtain ⟨hbodies, hheads⟩ := AllNames.append.mp ht
    obtain ⟨hkey, hvalue⟩ := AllNames.append.mp hheads
    obtain ⟨hfirst, hinner⟩ :=
      renameBody_scoped ihbody hscope.enter (AllNames.body.mp hbodies) names
    have hsecond := ihkey.renamed (renameBody scope body names).2.2 hinner hkey
    exact List.rel_append hfirst (List.rel_append hsecond (ihvalue.renamed _ hinner hvalue))
  clause negated payload modifiers ihpayload ihmodifiers := by
    intro scope seen seen' names hscope ht
    obtain ⟨hpayload, hmodifiers⟩ := AllNames.append.mp ht
    obtain ⟨hfirst, hscope'⟩ := ihpayload names hscope hpayload
    have hsecond := renameModifiers_scoped ihmodifiers hscope'
      (AllNames.modifiers.mp hmodifiers) (payload.rename scope names).2.2
    exact ⟨List.rel_append hfirst hsecond, hscope'⟩
  single t ih := by
    intro scope seen seen' names hscope ht
    have hterm := ih.renamed names hscope ht
    simp only [Payload.rename, Payload.declared, Seen.declare_nil]
    exact ⟨hterm, hscope⟩
  invoke slots ih := Payload.isScoped_call ih
  declare vars domain ihvars ihdomain := by
    intro scope seen seen' names hscope ht
    cases domain with
    | none =>
      have hvars := AllNames.terms.mp ((AllNames.patterns vars).mp ht)
      exact declareTerms_scoped ihvars hscope hvars names
    | some domain =>
      obtain ⟨hdomain, hpatterns⟩ := AllNames.append.mp ht
      have hvars := AllNames.terms.mp ((AllNames.patterns vars).mp hpatterns)
      have hfirst := (ihdomain domain rfl).renamed names hscope hdomain
      obtain ⟨hsecond, hscope'⟩ :=
        declareTerms_scoped ihvars hscope hvars (domain.rename scope names).2
      exact ⟨List.rel_append hfirst hsecond, hscope'⟩
  every key value domain body ihkey ihvalue ihdomain ihbody := by
    intro scope seen seen' names hscope ht
    -- what is declared in front of the body of `every` ends with it
    cases key with
    | none =>
      obtain ⟨hdomain, hmore⟩ := AllNames.append.mp ht
      have hfirst := ihdomain.renamed names hscope hdomain
      have hsecond := declareOver_scoped ihvalue ihbody hscope.enter hmore
        (domain.rename scope names).2
      simp only [Payload.rename, Payload.declared, Seen.declare_nil]
      exact ⟨List.rel_append hfirst hsecond, hscope⟩
    | some key =>
      obtain ⟨hdomain, hmore⟩ := AllNames.append.mp ht
      obtain ⟨hkey, hmore⟩ := AllNames.append.mp hmore
      have hfirst := ihdomain.renamed names hscope hdomain
      obtain ⟨hsecond, hinner⟩ := (ihkey key rfl).declared (domain.rename scope names).2
        hscope.enter ((AllNames.pattern key).mp hkey)
      have hthird := declareOver_scoped ihvalue ihbody hinner hmore
        (key.declare scope (domain.rename scope names).2).2.2
      simp only [Payload.rename, Payload.declared, Seen.declare_nil]
      exact ⟨List.rel_append hfirst (List.rel_append hsecond hthird), hscope⟩

/-! ## Rules and modules -/

section

variable {scope : Scope} {seen seen' : Seen}

theorem renameTerm?_scoped (hscope : scope.Shows seen seen') {o : Option Term}
    (ho : AllNames IsSourceName (occurrencesInTerms o.toList)) (names : Locals) :
    RenamesUses (usesInTerms seen o.toList)
      (usesInTerms seen' (renameTerm? scope o names).1.toList) := by
  cases o with
  | none => exact .nil
  | some t =>
    exact renameTerms_scoped (isScoped.terms [t]) hscope (AllNames.terms.mp ho) names

theorem renameBodies_scoped {bodies : List Body}
    (hbodies : ∀ body ∈ bodies, AllNames IsSourceName (occurrencesInBody body)) (names : Locals) :
    RenamesUses (bodies.flatMap (usesInBody .nothing))
      ((renameBodies bodies names).1.flatMap (usesInBody .nothing)) := by
  induction bodies generalizing names with
  | nil => exact .nil
  | cons body rest ih =>
    obtain ⟨hbody, hrest⟩ := List.forall_mem_cons.mp hbodies
    obtain ⟨hfirst, -⟩ :=
      renameBody_scoped (isScoped.body body) .start (AllNames.body.mp hbody) names
    exact List.rel_append hfirst (ih hrest _)

theorem Rule.rename_scoped {r : Rule} (hr : AllNames IsSourceName r.bodyOccurrences)
    (names : Locals) : RenamesUses r.uses (r.rename names).1.uses := by
  obtain ⟨name, isDefault, args, key, value, bodies⟩ := r
  obtain ⟨hbodies, hheads⟩ := AllNames.append.mp hr
  obtain ⟨hkey, hvalue⟩ := AllNames.append.mp hheads
  cases bodies with
  | nil => exact .nil
  | cons body rest =>
    obtain ⟨hbody, hrest⟩ := List.forall_mem_cons.mp (AllNames.flatMap.mp hbodies)
    obtain ⟨hfirst, hscope⟩ :=
      renameBody_scoped (isScoped.body body) .start (AllNames.body.mp hbody) names
    have hsecond := renameTerm?_scoped hscope hkey (renameBody [] body names).2.2
    have hthird := renameTerm?_scoped hscope hvalue
      (renameTerm? (renameBody [] body names).2.1 key (renameBody [] body names).2.2).2
    exact List.rel_append (List.rel_append hfirst (renameBodies_scoped hrest _))
      (List.rel_append hsecond hthird)

theorem renameRules_scoped {rules : List Rule}
    (hrules : ∀ r ∈ rules, AllNames IsSourceName r.bodyOccurrences) (names : Locals) :
    List.Forall₂ (fun r r' => RenamesUses r.uses r'.uses) rules (renameRules rules names).1 := by
  induction rules generalizing names with
  | nil => exact .nil
  | cons r rest ih =>
    obtain ⟨hr, hrest⟩ := List.forall_mem_cons.mp hrules
    exact .cons (r.rename_scoped hr names) (ih hrest _)

theorem renameModules_scoped {entries : List (String × Module)}
    (hentries : ∀ e ∈ entries, ∀ r ∈ e.2.rules, AllNames IsSourceName r.bodyOccurrences)
    (names : Locals) :
    List.Forall₂ (fun e e' => e.1 = e'.1 ∧
        List.Forall₂ (fun r r' => RenamesUses r.uses r'.uses) e.2.rules e'.2.rules)
      entries (renameModules entries names).1 := by
  induction entries generalizing names with
  | nil => exact .nil
  | cons e rest ih =>
    obtain ⟨he, hrest⟩ := List.forall_mem_cons.mp hentries
    exact .cons ⟨rfl, renameRules_scoped he names⟩ (ih hrest _)

end

/-- Renaming respects scopes. In every compiled rule a variable that is not declared where it stands
has the name that the nearest declaration before it got, and its own when there is none. The uses
are all such variables: `Rule.map_uses`. -/
theorem compile_respects_scopes {fragments : List (String × String)}
    {trees : List (String × ModuleTree)} {c : Compiled} (hread : readFragments fragments = .ok trees)
    (hcompile : compile fragments = .ok c)
    (hsource : ∀ e ∈ (lowerFragments trees).entries, ∀ r ∈ e.2.rules,
      AllNames IsSourceName r.bodyOccurrences) :
    List.Forall₂ (fun e e' => e.1 = e'.1 ∧
        List.Forall₂ (fun r r' => RenamesUses r.uses r'.uses) e.2.rules e'.2.rules)
      (lowerFragments trees).entries c.modules.entries := by
  rw [entries_of_compile hread hcompile]
  exact renameModules_scoped hsource []

/-- One name in a body, in a comprehension and an `every` inside, and in the body of an `else`. -/
theorem compile_respects_scopes_shadowed :
    let fragments : List (String × String) :=
      [("a.rego", "package a\n\nimport rego.v1\n\np := x if \x7b\n\tx := input.x\n" ++
        "\ty := [x | some x in x; every x, z in x \x7b x with input as z \x7d]\n" ++
        "\t[x, \x7by: x\x7d] := [x, y] with input as x\n\x7d else := x if \x7b\n\tx\n\x7d\n")]
    ∃ trees c, readFragments fragments = .ok trees ∧ compile fragments = .ok c ∧
      (∀ e ∈ (lowerFragments trees).entries, ∀ r ∈ e.2.rules,
        AllNames IsSourceName r.bodyOccurrences) ∧
      List.Forall₂ (fun e e' => e.1 = e'.1 ∧
          List.Forall₂ (fun r r' => RenamesUses r.uses r'.uses) e.2.rules e'.2.rules)
        (lowerFragments trees).entries c.modules.entries := by
  intro fragments
  obtain ⟨trees, c, hread, hcompile, hnames⟩ := exists_compiled fragments (by decide +kernel)
  have hsource : ∀ e ∈ (lowerFragments trees).entries, ∀ r ∈ e.2.rules,
      AllNames IsSourceName r.bodyOccurrences :=
    fun e he r hr => (hnames e he).bodies hr
  exact ⟨trees, c, hread, hcompile, hsource, compile_respects_scopes hread hcompile hsource⟩

end PolicySync.Policy
