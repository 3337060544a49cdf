import PolicySync.Proofs.Data.SortedMap
import PolicySync.Proofs.Policy.Compile
import PolicySync.Proofs.Policy.LocalName
import PolicySync.Selectors

/-!
# Renaming is undone by the names it keeps

Local variables are numbered in the order of their declarations, over all modules. When all names
are known, reading the new names back gives what there was before, and each number belongs to one
declaration. Only rules with a body are renamed, their arguments and the targets of modifiers apart.
-/

namespace PolicySync.Policy

/-! ## Terms and bodies -/

/-- Whether renaming can be undone in a term, as it stands and as a pattern. -/
structure Term.IsRestored (t : Term) : Prop where
  renamed : ∀ scope names, Scope.Sound scope names → AllNames IsSourceName t.occurrences →
    Renames names (t.rename scope names).2 (t.rename scope names).1.occurrences
      fun f => (t.rename scope names).1.mapVars f = t
  declared : ∀ scope names, Scope.Sound scope names → AllNames IsSourceName t.occurrences →
    Renames names (t.declare scope names).2.2 (t.declare scope names).1.patternOccurrences
        (fun f => (t.declare scope names).1.mapVars f = t) ∧
      (t.declare scope names).2.1.Sound (t.declare scope names).2.2

/-- Whether renaming can be undone in what a clause holds. -/
def Payload.IsRestored (p : Payload) : Prop :=
  ∀ scope names, Scope.Sound scope names → AllNames IsSourceName p.occurrences →
    Renames names (p.rename scope names).2.2 (p.rename scope names).1.occurrences
        (fun f => (p.rename scope names).1.mapVars f = p) ∧
      (p.rename scope names).2.1.Sound (p.rename scope names).2.2

/-- Whether renaming can be undone in a clause. -/
def Clause.IsRestored (c : Clause) : Prop :=
  ∀ scope names, Scope.Sound scope names → AllNames IsSourceName c.occurrences →
    Renames names (c.rename scope names).2.2 (c.rename scope names).1.occurrences
        (fun f => (c.rename scope names).1.mapVars f = c) ∧
      (c.rename scope names).2.1.Sound (c.rename scope names).2.2

section

variable {scope : Scope} {names : Locals}

theorem renameTerms_restored {ts : List Term} (h : ∀ t ∈ ts, t.IsRestored)
    (hscope : scope.Sound names) (hts : ∀ t ∈ ts, AllNames IsSourceName t.occurrences) :
    Renames names (renameTerms scope ts names).2
      (occurrencesInTerms (renameTerms scope ts names).1)
      fun f => mapTerms f (renameTerms scope ts names).1 = ts := by
  induction ts generalizing names with
  | nil => exact .nothing fun f => rfl
  | cons t rest ih =>
    obtain ⟨ht, hrest⟩ := List.forall_mem_cons.mp h
    obtain ⟨hsource, hsources⟩ := List.forall_mem_cons.mp hts
    have hfirst := ht.renamed scope names hscope hsource
    have hmore := ih hrest (hfirst.later hscope) hsources
    refine (hfirst.seq hmore).imp ?_
    rintro f ⟨hterm, hterms⟩
    rw [renameTerms, mapTerms, hterm, hterms]

theorem declareTerms_restored {ts : List Term} (h : ∀ t ∈ ts, t.IsRestored)
    (hscope : scope.Sound names) (hts : ∀ t ∈ ts, AllNames IsSourceName t.occurrences) :
    Renames names (declareTerms scope ts names).2.2
        (occurrencesInPatterns (declareTerms scope ts names).1)
        (fun f => mapTerms f (declareTerms scope ts names).1 = ts) ∧
      (declareTerms scope ts names).2.1.Sound (declareTerms scope ts names).2.2 := by
  induction ts generalizing scope names with
  | nil => exact ⟨.nothing fun f => rfl, hscope⟩
  | cons t rest ih =>
    obtain ⟨ht, hrest⟩ := List.forall_mem_cons.mp h
    obtain ⟨hsource, hsources⟩ := List.forall_mem_cons.mp hts
    obtain ⟨hfirst, hscope'⟩ := ht.declared scope names hscope hsource
    obtain ⟨hmore, hscope''⟩ := ih hrest hscope' hsources
    refine ⟨(hfirst.seq hmore).imp ?_, hscope''⟩
    rintro f ⟨hterm, hterms⟩
    rw [declareTerms, mapTerms, hterm, hterms]

theorem renameFields_restored {es : List (Term × Term)}
    (h : ∀ e ∈ es, e.1.IsRestored ∧ e.2.IsRestored) (hscope : scope.Sound names)
    (hes : ∀ e ∈ es, AllNames IsSourceName e.1.occurrences ∧
      AllNames IsSourceName e.2.occurrences) :
    Renames names (renameFields scope es names).2
      (occurrencesInFields (renameFields scope es names).1)
      fun f => mapFields f (renameFields scope es names).1 = es := by
  induction es generalizing names with
  | nil => exact .nothing fun f => rfl
  | cons e rest ih =>
    obtain ⟨⟨hkey, hvalue⟩, hrest⟩ := List.forall_mem_cons.mp h
    obtain ⟨⟨hkeys, hvalues⟩, hsources⟩ := List.forall_mem_cons.mp hes
    have hfirst := hkey.renamed scope names hscope hkeys
    have hsecond := hvalue.renamed scope _ (hfirst.later hscope) hvalues
    have hmore := ih hrest (hsecond.later (hfirst.later hscope)) hsources
    refine (hfirst.seq (hsecond.seq hmore)).imp ?_
    rintro f ⟨hkey, hvalue, hfields⟩
    rw [renameFields, mapFields, hkey, hvalue, hfields]

theorem Term.mapVars_of_source {t : Term} (ht : AllNames IsSourceName t.occurrences)
    {f : String → String} (hf : ∀ v, IsSourceName v → f v = v) : t.mapVars f = t :=
  mapVars_kept.term t fun o ho => hf o.name (ht o ho)

/-- The targets of modifiers are left as they are. -/
theorem renameModifiers_restored {es : List (Term × Term)}
    (h : ∀ e ∈ es, e.1.IsRestored ∧ e.2.IsRestored) (hscope : scope.Sound names)
    (hes : ∀ e ∈ es, AllNames IsSourceName e.1.occurrences ∧
      AllNames IsSourceName e.2.occurrences) :
    Renames names (renameModifiers scope es names).2
      (occurrencesInModifiers (renameModifiers scope es names).1)
      fun f => mapFields f (renameModifiers scope es names).1 = es := by
  induction es generalizing names with
  | nil => exact .nothing fun f => rfl
  | cons e rest ih =>
    obtain ⟨⟨-, hvalue⟩, hrest⟩ := List.forall_mem_cons.mp h
    obtain ⟨⟨htargets, hvalues⟩, hsources⟩ := List.forall_mem_cons.mp hes
    have hfirst : Renames names names (e.1.occurrences.map Occurrence.used)
        fun f => e.1.mapVars f = e.1 :=
      .unchanged (AllNames.used.mpr htargets) (List.forall_mem_map.mpr fun _ _ => rfl)
        fun f hf => Term.mapVars_of_source htargets hf
    have hsecond := hvalue.renamed scope names hscope hvalues
    have hmore := ih hrest (hsecond.later hscope) hsources
    refine (hfirst.seq (hsecond.seq hmore)).imp ?_
    rintro f ⟨htarget, hvalue, hfields⟩
    rw [renameModifiers, mapFields, htarget, hvalue, hfields]

theorem renameBody_restored {body : List Clause} (h : ∀ c ∈ body, c.IsRestored)
    (hscope : scope.Sound names) (hbody : ∀ c ∈ body, AllNames IsSourceName c.occurrences) :
    Renames names (renameBody scope body names).2.2
        (occurrencesInBody (renameBody scope body names).1)
        (fun f => mapBody f (renameBody scope body names).1 = body) ∧
      (renameBody scope body names).2.1.Sound (renameBody scope body names).2.2 := by
  induction body generalizing scope names with
  | nil => exact ⟨.nothing fun f => rfl, hscope⟩
  | cons c rest ih =>
    obtain ⟨hc, hrest⟩ := List.forall_mem_cons.mp h
    obtain ⟨hsource, hsources⟩ := List.forall_mem_cons.mp hbody
    obtain ⟨hfirst, hscope'⟩ := hc scope names hscope hsource
    obtain ⟨hmore, hscope''⟩ := ih hrest hscope' hsources
    refine ⟨(hfirst.seq hmore).imp ?_, hscope''⟩
    rintro f ⟨hclause, hclauses⟩
    rw [renameBody, mapBody, hclause, hclauses]

/-- A head that stands before a body and sees what the body declares. -/
theorem renameUnder_restored {head : Term} {body : List Clause} (hhead : head.IsRestored)
    (hbody : ∀ c ∈ body, c.IsRestored) (hscope : scope.Sound names)
    (hsource : AllNames IsSourceName (occurrencesInBody body ++ head.occurrences)) :
    let inner := renameBody scope body names
    let outer := head.rename inner.2.1 inner.2.2
    Renames names outer.2 (occurrencesInBody inner.1 ++ outer.1.occurrences)
      fun f => mapBody f inner.1 = body ∧ outer.1.mapVars f = head := by
  obtain ⟨hbodies, hheads⟩ := AllNames.append.mp hsource
  obtain ⟨hfirst, hinner⟩ := renameBody_restored hbody hscope (AllNames.body.mp hbodies)
  exact hfirst.seq (hhead.renamed _ _ hinner hheads)

/-- A pattern with the body that sees what it declares. -/
theorem declareOver_restored {t : Term} {body : List Clause} (ht : t.IsRestored)
    (hbody : ∀ c ∈ body, c.IsRestored) (hscope : scope.Sound names)
    (hsource : AllNames IsSourceName (t.patternOccurrences ++ occurrencesInBody body)) :
    let declared := t.declare scope names
    let inner := renameBody declared.2.1 body declared.2.2
    Renames names inner.2.2 (declared.1.patternOccurrences ++ occurrencesInBody inner.1)
      fun f => declared.1.mapVars f = t ∧ mapBody f inner.1 = body := by
  obtain ⟨hpattern, hbodies⟩ := AllNames.append.mp hsource
  obtain ⟨hfirst, hinner⟩ := ht.declared scope names hscope ((AllNames.pattern t).mp hpattern)
  obtain ⟨hsecond, -⟩ := renameBody_restored hbody hinner (AllNames.body.mp hbodies)
  exact hfirst.seq hsecond

end

/-- What declares nothing itself is renamed alike as a pattern. -/
theorem Term.IsRestored.of_renamed {t : Term}
    (hdeclare : ∀ scope names,
      t.declare scope names = ((t.rename scope names).1, scope, (t.rename scope names).2))
    (hpattern : ∀ scope names,
      (t.rename scope names).1.patternOccurrences = (t.rename scope names).1.occurrences)
    (h : ∀ scope names, Scope.Sound scope names → AllNames IsSourceName t.occurrences →
      Renames names (t.rename scope names).2 (t.rename scope names).1.occurrences
        fun f => (t.rename scope names).1.mapVars f = t) : t.IsRestored where
  renamed := h
  declared scope names hscope ht := by
    have hrenamed := h scope names hscope ht
    rw [hdeclare, hpattern]
    exact ⟨hrenamed, hrenamed.later hscope⟩

/-- A variable that is not declared has a name in force or keeps its own. -/
theorem renames_find {scope : Scope} {names : Locals} (hscope : scope.Sound names) {name : String}
    (hname : IsSourceName name) :
    Renames names names [⟨scope.find name, false⟩] fun f => f (scope.find name) = name := by
  rcases hscope.find name with ⟨k, hfind, hk⟩ | hfind
  · have hlt : k < names.length := (List.getElem?_eq_some_iff.mp hk).1
    rw [hfind]
    exact {
      added := ⟨[], (List.append_nil names).symm, List.forall_mem_nil _⟩
      declared i := by
        rw [if_neg (by omega), List.count_eq_zero]
        simp
      known := List.forall_mem_singleton.mpr fun i hi => by
        rwa [← localName_injective hi]
      restores final hfinal := by
        obtain ⟨more, rfl⟩ := hfinal
        exact Locals.resolve_localName (by rw [List.getElem?_append_left hlt, hk])
      fresh := by simp }
  · rw [hfind]
    exact .unchanged (AllNames.one.mpr hname) (List.forall_mem_singleton.mpr rfl)
      fun f hf => hf name hname

/-- A variable that is declared gets the next name. -/
theorem renames_next (names : Locals) {name : String} (hblank : name ≠ "_")
    (hname : IsSourceName name) :
    Renames names (names ++ [name])
      [⟨localName names.length, localName names.length ≠ "_"⟩]
      fun f => f (localName names.length) = name := by
  have hlocal : localName names.length ≠ "_" :=
    fun h => isSourceName_blank names.length h.symm
  have hlength : (names ++ [name]).length = names.length + 1 := by simp
  exact {
    added := ⟨[name], rfl, List.forall_mem_singleton.mpr ⟨hblank, hname⟩⟩
    declared k := by
      by_cases hk : k = names.length
      · subst hk
        simp [hlocal]
      · have hne : localName k ≠ localName names.length := fun h => hk (localName_injective h)
        rw [if_neg (by omega), List.count_eq_zero]
        simp [hne]
    known := List.forall_mem_singleton.mpr fun k hk => by
      rw [← localName_injective hk, hlength]
      exact Nat.lt_succ_self _
    restores final hfinal := by
      obtain ⟨more, rfl⟩ := hfinal
      exact Locals.resolve_localName (by simp)
    fresh := List.forall_mem_singleton.mpr fun _ h => h names.length rfl }

theorem Term.isRestored_var (name : String) : (Term.var name).IsRestored where
  renamed scope names hscope ht :=
    (renames_find hscope (AllNames.one.mp ht)).imp fun f hf => congrArg Term.var hf
  declared scope names hscope ht := by
    have hname : IsSourceName name := AllNames.one.mp ht
    by_cases hblank : name = "_"
    · subst hblank
      have hfind := renames_find hscope hname
      simp only [Term.declare, if_true, Term.patternOccurrences]
      rw [hscope.find_blank] at hfind ⊢
      exact ⟨hfind.imp fun f hf => congrArg Term.var hf, hscope⟩
    · have hnext := renames_next names hblank hname
      simp only [Term.declare, if_neg hblank, Term.patternOccurrences]
      refine ⟨hnext.imp fun f hf => congrArg Term.var hf, ?_⟩
      obtain ⟨hentries, hsource⟩ := hnext.later hscope
      refine ⟨List.forall_mem_cons.mpr ⟨⟨names.length, rfl, by simp⟩, hentries⟩, hsource⟩

/-- A call that declares nothing stays one, because the name of an operator is never new. -/
theorem isPlainCall_renameTerms {scope : Scope} {names : Locals} {slots : List Term}
    (h : IsPlainCall slots) {occurrences : List Occurrence}
    (hslots : Renames names (renameTerms scope slots names).2 occurrences
      fun f => mapTerms f (renameTerms scope slots names).1 = slots) :
    IsPlainCall (renameTerms scope slots names).1 := by
  intro lhs rhs heq
  have hback := hslots.restores _ (List.prefix_refl _)
  rw [heq] at hback
  simp only [mapTerms, Term.mapVars, Locals.resolve_source _ isSourceName_assign] at hback
  exact h _ _ hback.symm

theorem Payload.isRestored_call {slots : List Term} (ih : ∀ t ∈ slots, t.IsRestored) :
    (Payload.call slots).IsRestored := by
  intro scope names hscope ht
  by_cases hassign : ∃ lhs rhs, slots = [.ref [.var "assign"], lhs, rhs]
  · obtain ⟨lhs, rhs, rfl⟩ := hassign
    have hlhs : lhs.IsRestored := ih lhs (by simp)
    have hrhs : rhs.IsRestored := ih rhs (by simp)
    rw [Payload.occurrences_assign, AllNames.cons, AllNames.append, AllNames.pattern] at ht
    obtain ⟨hassign, hrhsSource, hlhsSource⟩ := ht
    have hfirst := hrhs.renamed scope names hscope hrhsSource
    obtain ⟨hsecond, hscope'⟩ := hlhs.declared scope _ (hfirst.later hscope) hlhsSource
    have hoperator : Renames names names [⟨"assign", false⟩] fun f => f "assign" = "assign" :=
      .unchanged (AllNames.one.mpr hassign) (List.forall_mem_singleton.mpr rfl)
        fun f hf => hf _ hassign
    simp only [Payload.rename, Payload.occurrences_assign]
    refine ⟨(hoperator.seq (hfirst.seq hsecond)).imp ?_, hscope'⟩
    rintro f ⟨hname, hright, hleft⟩
    simp only [Payload.mapVars, mapTerms, Term.mapVars, hname, hright, hleft]
  · have hplain : IsPlainCall slots := fun lhs rhs heq => hassign ⟨lhs, rhs, heq⟩
    have hslots := renameTerms_restored ih hscope (AllNames.call.mp ht)
    have hstill := isPlainCall_renameTerms hplain hslots
    rw [Payload.rename_call hplain, Payload.occurrences_call hstill]
    exact ⟨hslots.imp fun f hf => congrArg Payload.call hf, hslots.later hscope⟩

theorem isRestored :
    TermInduction Term.IsRestored Clause.IsRestored Payload.IsRestored where
  scalar _ := .of_renamed (fun _ _ => rfl) (fun _ _ => rfl) fun _ _ _ _ => .nothing fun _ => rfl
  string _ := .of_renamed (fun _ _ => rfl) (fun _ _ => rfl) fun _ _ _ _ => .nothing fun _ => rfl
  var := Term.isRestored_var
  ref parts ih := .of_renamed (fun _ _ => rfl) (fun _ _ => rfl) fun scope names hscope ht =>
    (renameTerms_restored ih hscope (AllNames.terms.mp ht)).imp fun f hf => congrArg Term.ref hf
  call slots ih := .of_renamed (fun _ _ => rfl) (fun _ _ => rfl) fun scope names hscope ht =>
    (renameTerms_restored ih hscope (AllNames.terms.mp ht)).imp fun f hf => congrArg Term.call hf
  array items ih := {
    renamed scope names hscope ht :=
      (renameTerms_restored ih hscope (AllNames.terms.mp ht)).imp fun f hf =>
        congrArg Term.array hf
    declared scope names hscope ht := by
      obtain ⟨hitems, hscope'⟩ := declareTerms_restored ih hscope (AllNames.terms.mp ht)
      exact ⟨hitems.imp fun f hf => congrArg Term.array hf, hscope'⟩ }
  set items ih := .of_renamed (fun _ _ => rfl) (fun _ _ => rfl) fun scope names hscope ht =>
    (renameTerms_restored ih hscope (AllNames.terms.mp ht)).imp fun f hf => congrArg Term.set hf
  object fields ih := .of_renamed (fun _ _ => rfl) (fun _ _ => rfl) fun scope names hscope ht =>
    (renameFields_restored ih hscope (AllNames.fields.mp ht)).imp fun f hf =>
      congrArg Term.object hf
  arrayCompr head body ihhead ihbody := by
    refine .of_renamed (fun _ _ => rfl) (fun _ _ => rfl) fun scope names hscope ht => ?_
    refine (renameUnder_restored ihhead ihbody hscope ht).imp ?_
    rintro f ⟨hbody, hhead⟩
    rw [Term.rename, Term.mapVars, hbody, hhead]
  setCompr head body ihhead ihbody := by
    refine .of_renamed (fun _ _ => rfl) (fun _ _ => rfl) fun scope names hscope ht => ?_
    refine (renameUnder_restored ihhead ihbody hscope ht).imp ?_
    rintro f ⟨hbody, hhead⟩
    rw [Term.rename, Term.mapVars, hbody, hhead]
  objectCompr key value body ihkey ihvalue ihbody := by
    refine .of_renamed (fun _ _ => rfl) (fun _ _ => rfl) fun scope names hscope ht => ?_
    obtain ⟨hbody, hhead⟩ := AllNames.append.mp ht
    obtain ⟨hkey, hvalue⟩ := AllNames.append.mp hhead
    obtain ⟨hfirst, hinner⟩ := renameBody_restored ihbody hscope (AllNames.body.mp hbody)
    have hsecond := ihkey.renamed _ _ hinner hkey
    refine (hfirst.seq (hsecond.seq (ihvalue.renamed _ _ (hsecond.later hinner) hvalue))).imp ?_
    rintro f ⟨hbody, hkey, hvalue⟩
    rw [Term.rename, Term.mapVars, hbody, hkey, hvalue]
  clause negated payload modifiers ihpayload ihmodifiers scope names hscope ht := by
    obtain ⟨hpayload, hmodifiers⟩ := AllNames.append.mp ht
    obtain ⟨hfirst, hscope'⟩ := ihpayload scope names hscope hpayload
    have hsecond :=
      renameModifiers_restored ihmodifiers hscope' (AllNames.modifiers.mp hmodifiers)
    refine ⟨(hfirst.seq hsecond).imp ?_, hsecond.later hscope'⟩
    rintro f ⟨hpayload, hmodifiers⟩
    rw [Clause.rename, Clause.mapVars, hpayload, hmodifiers]
  single t ih scope names hscope ht := by
    have hterm := ih.renamed scope names hscope ht
    exact ⟨hterm.imp fun f hf => congrArg Payload.single hf, hterm.later hscope⟩
  invoke slots ih := Payload.isRestored_call ih
  declare vars domain ihvars ihdomain scope names hscope ht := by
    cases domain with
    | none =>
      have hvars := AllNames.terms.mp ((AllNames.patterns vars).mp ht)
      obtain ⟨hdeclared, hscope'⟩ := declareTerms_restored ihvars hscope hvars
      refine ⟨hdeclared.imp fun f hf => ?_, hscope'⟩
      rw [Payload.rename, Payload.mapVars, hf]
    | some domain =>
      obtain ⟨hdomain, hvars⟩ := AllNames.append.mp ht
      have hfirst := (ihdomain domain rfl).renamed scope names hscope hdomain
      obtain ⟨hsecond, hscope'⟩ := declareTerms_restored ihvars (hfirst.later hscope)
        (AllNames.terms.mp ((AllNames.patterns vars).mp hvars))
      refine ⟨(hfirst.seq hsecond).imp ?_, hscope'⟩
      rintro f ⟨hdomain, hvars⟩
      rw [Payload.rename, Payload.mapVars, hdomain, hvars]
  every key value domain body ihkey ihvalue ihdomain ihbody scope names hscope ht := by
    cases key with
    | none =>
      obtain ⟨hdomain, hmore⟩ := AllNames.append.mp ht
      have hfirst := ihdomain.renamed scope names hscope hdomain
      have hsecond := declareOver_restored ihvalue ihbody (hfirst.later hscope) hmore
      have hall := hfirst.seq hsecond
      refine ⟨hall.imp ?_, hall.later hscope⟩
      rintro f ⟨hdomain, hvalue, hbody⟩
      rw [Payload.rename, Payload.mapVars, hdomain, hvalue, hbody]
    | some key =>
      obtain ⟨hdomain, hmore⟩ := AllNames.append.mp ht
      obtain ⟨hkey, hmore⟩ := AllNames.append.mp hmore
      have hfirst := ihdomain.renamed scope names hscope hdomain
      obtain ⟨hsecond, hinner⟩ := (ihkey key rfl).declared scope _ (hfirst.later hscope)
        ((AllNames.pattern key).mp hkey)
      have hthird := declareOver_restored ihvalue ihbody hinner hmore
      have hall := hfirst.seq (hsecond.seq hthird)
      refine ⟨hall.imp ?_, hall.later hscope⟩
      rintro f ⟨hdomain, hkey, hvalue, hbody⟩
      rw [Payload.rename, Payload.mapVars, hdomain, hkey, hvalue, hbody]

/-! ## Rules and modules -/

section

variable {names : Locals}

theorem renameTerm?_restored {scope : Scope} (hscope : scope.Sound names) {o : Option Term}
    (ho : AllNames IsSourceName (occurrencesInTerms o.toList)) :
    Renames names (renameTerm? scope o names).2
      (occurrencesInTerms (renameTerm? scope o names).1.toList)
      fun f => (renameTerm? scope o names).1.map (Term.mapVars f) = o := by
  cases o with
  | none => exact .nothing fun f => rfl
  | some t =>
    have hterm := (isRestored.term t).renamed scope names hscope
      (AllNames.terms.mp ho t (List.mem_singleton_self t))
    have hone : ∀ t : Term, occurrencesInTerms (some t).toList = t.occurrences :=
      fun t => List.append_nil t.occurrences
    simp only [renameTerm?, hone]
    exact hterm.imp fun f hf => congrArg some hf

theorem renameBodies_restored (hnames : Scope.Sound [] names) {bodies : List Body}
    (hbodies : ∀ body ∈ bodies, AllNames IsSourceName (occurrencesInBody body)) :
    Renames names (renameBodies bodies names).2
      ((renameBodies bodies names).1.flatMap occurrencesInBody)
      fun f => (renameBodies bodies names).1.map (mapBody f) = bodies := by
  induction bodies generalizing names with
  | nil => exact .nothing fun f => rfl
  | cons body rest ih =>
    obtain ⟨hbody, hrest⟩ := List.forall_mem_cons.mp hbodies
    obtain ⟨hfirst, -⟩ :=
      renameBody_restored (isRestored.body body) hnames (AllNames.body.mp hbody)
    refine (hfirst.seq (ih (hfirst.later hnames) hrest)).imp ?_
    rintro f ⟨hbody, hbodies⟩
    rw [renameBodies, List.map_cons, hbody, hbodies]

theorem Rule.rename_bodies (hnames : Scope.Sound [] names) {r : Rule} (hbodies : r.bodies ≠ [])
    (hr : AllNames IsSourceName r.bodyOccurrences) :
    Renames names (r.rename names).2 (r.rename names).1.bodyOccurrences fun f =>
      (r.rename names).1.bodies.map (mapBody f) = r.bodies ∧
        (r.rename names).1.key.map (Term.mapVars f) = r.key ∧
        (r.rename names).1.value.map (Term.mapVars f) = r.value := by
  obtain ⟨name, isDefault, args, key, value, bodies⟩ := r
  cases bodies with
  | nil => exact absurd rfl hbodies
  | cons body rest =>
    obtain ⟨hall, hmore⟩ := AllNames.append.mp hr
    obtain ⟨hkey, hvalue⟩ := AllNames.append.mp hmore
    obtain ⟨hbody, hrest⟩ := List.forall_mem_cons.mp (AllNames.flatMap.mp hall)
    obtain ⟨hfirst, hscope⟩ :=
      renameBody_restored (isRestored.body body) hnames (AllNames.body.mp hbody)
    have hsecond := renameTerm?_restored hscope hkey
    have hthird := renameTerm?_restored (hsecond.later hscope) hvalue
    have hfourth :=
      renameBodies_restored (hthird.later (hsecond.later (hfirst.later hnames))) hrest
    -- the pass takes the key and the value before the other bodies
    have horder : ∀ b k v r : List Occurrence,
        (b ++ (k ++ (v ++ r))).Perm ((b ++ r) ++ (k ++ v)) := by
      intro b k v r
      rw [List.append_assoc b, ← List.append_assoc k]
      exact List.perm_append_comm.append_left b
    refine ((hfirst.seq (hsecond.seq (hthird.seq hfourth))).perm (horder _ _ _ _)).imp ?_
    rintro f ⟨hbody, hkey, hvalue, hrest⟩
    exact ⟨congrArg₂ List.cons hbody hrest, hkey, hvalue⟩

/-- Whether a rule with a body declares new names only, its arguments apart. -/
def Rule.DeclaresNew (r : Rule) : Prop :=
  r.bodies ≠ [] → ∀ o ∈ r.bodyOccurrences, o.declares = true → ¬ IsSourceName o.name

theorem Rule.rename_restored (hnames : Scope.Sound [] names) {r : Rule}
    (hr : AllNames IsSourceName r.occurrences) :
    RenamesSome names (r.rename names).2 (r.rename names).1.occurrences
        (fun f => (r.rename names).1.mapVars f = r) ∧
      (r.rename names).1.DeclaresNew := by
  by_cases hbodies : r.bodies = []
  · have hrename : r.rename names = (r, names) := by rw [Rule.rename, hbodies]
    rw [hrename]
    exact ⟨.unchanged hr fun f hf => Rule.mapVars_eq_self fun o ho => hf o.name (hr o ho),
      fun h => absurd hbodies h⟩
  · obtain ⟨hname, hmore⟩ := AllNames.cons.mp hr
    obtain ⟨hargs, hrest⟩ := AllNames.append.mp hmore
    have hrenames := rename_bodies hnames hbodies hrest
    have hfront : RenamesSome names names (⟨r.name, false⟩ :: occurrencesInTerms r.args)
        fun f => f r.name = r.name ∧ mapTerms f r.args = r.args :=
      .unchanged (AllNames.cons.mpr ⟨hname, hargs⟩) fun f hf => ⟨hf r.name hname,
        mapTerms_eq_self fun t ht => Term.mapVars_of_source (AllNames.terms.mp hargs t ht) hf⟩
    obtain ⟨name, isDefault, args, key, value, _ | ⟨body, rest⟩⟩ := r
    · exact absurd rfl hbodies
    refine ⟨(hfront.seq hrenames.toRenamesSome).imp ?_, fun _ => hrenames.fresh⟩
    rintro f ⟨⟨hname, hargs⟩, hbodies, hkey, hvalue⟩
    rw [Rule.mapVars, hbodies, hkey, hvalue]
    simp only [Rule.rename, hname, hargs]

theorem renameRules_restored (hnames : Scope.Sound [] names) {rules : List Rule}
    (hrules : ∀ r ∈ rules, AllNames IsSourceName r.occurrences) :
    RenamesSome names (renameRules rules names).2
        ((renameRules rules names).1.flatMap Rule.occurrences)
        (fun f => (renameRules rules names).1.map (Rule.mapVars f) = rules) ∧
      ∀ r ∈ (renameRules rules names).1, r.DeclaresNew := by
  induction rules generalizing names with
  | nil => exact ⟨(Renames.nothing fun f => rfl).toRenamesSome, List.forall_mem_nil _⟩
  | cons r rest ih =>
    obtain ⟨hr, hrest⟩ := List.forall_mem_cons.mp hrules
    obtain ⟨hfirst, hnew⟩ := Rule.rename_restored hnames hr
    obtain ⟨hsecond, hnews⟩ := ih (hfirst.later hnames) hrest
    refine ⟨(hfirst.seq hsecond).imp ?_, List.forall_mem_cons.mpr ⟨hnew, hnews⟩⟩
    rintro f ⟨hrule, hmore⟩
    rw [renameRules, List.map_cons, hrule, hmore]

theorem Module.rename_restored (hnames : Scope.Sound [] names) {m : Module}
    (hm : AllNames IsSourceName m.occurrences) :
    RenamesSome names (m.rename names).2 (m.rename names).1.occurrences
        (fun f => (m.rename names).1.mapVars f = m) ∧
      ∀ r ∈ (m.rename names).1.rules, r.DeclaresNew := by
  obtain ⟨hpackage, hmore⟩ := AllNames.append.mp hm
  obtain ⟨himports, hrules⟩ := AllNames.append.mp hmore
  have hfront : RenamesSome names names (occurrencesInTerms m.package)
      fun f => mapTerms f m.package = m.package :=
    .unchanged hpackage fun f hf =>
      mapTerms_eq_self fun t ht => Term.mapVars_of_source (AllNames.terms.mp hpackage t ht) hf
  have hsecond : RenamesSome names names (m.imports.flatMap Import.occurrences)
      fun f => m.imports.map (Import.mapVars f) = m.imports := by
    refine .unchanged himports fun f hf => ?_
    have himport : ∀ i ∈ m.imports, i.mapVars f = i := by
      intro i hi
      obtain ⟨hpath, hname⟩ := AllNames.append.mp (AllNames.flatMap.mp himports i hi)
      have hkept : mapTerms f i.path = i.path :=
        mapTerms_eq_self fun t ht => Term.mapVars_of_source (AllNames.terms.mp hpath t ht) hf
      obtain ⟨path, name⟩ := i
      cases name with
      | none => rw [Import.mapVars, hkept, Option.map_none]
      | some visible =>
        rw [Import.mapVars, hkept, Option.map_some, hf visible (AllNames.one.mp hname)]
    rw [List.map_congr_left himport, List.map_id']
  obtain ⟨hthird, hnew⟩ := renameRules_restored hnames (AllNames.flatMap.mp hrules)
  refine ⟨(hfront.seq (hsecond.seq hthird)).imp ?_, hnew⟩
  rintro f ⟨hpackage, himports, hrules⟩
  rw [Module.rename, Module.mapVars, hpackage, himports, hrules]

theorem renameModules_restored (hnames : Scope.Sound [] names) {entries : List (String × Module)}
    (hentries : ∀ e ∈ entries, AllNames IsSourceName e.2.occurrences) :
    RenamesSome names (renameModules entries names).2
        ((renameModules entries names).1.flatMap fun e => e.2.occurrences)
        (fun f => (renameModules entries names).1.map (fun e => (e.1, e.2.mapVars f)) = entries) ∧
      ∀ e ∈ (renameModules entries names).1, ∀ r ∈ e.2.rules, r.DeclaresNew := by
  induction entries generalizing names with
  | nil => exact ⟨(Renames.nothing fun f => rfl).toRenamesSome, List.forall_mem_nil _⟩
  | cons e rest ih =>
    obtain ⟨he, hrest⟩ := List.forall_mem_cons.mp hentries
    obtain ⟨hfirst, hnew⟩ := Module.rename_restored hnames he
    obtain ⟨hsecond, hnews⟩ := ih (hfirst.later hnames) hrest
    refine ⟨(hfirst.seq hsecond).imp ?_, List.forall_mem_cons.mpr ⟨hnew, hnews⟩⟩
    rintro f ⟨hmodule, hmore⟩
    rw [renameModules, List.map_cons, hmodule, hmore]

end

theorem scope_sound_nil : Scope.Sound [] [] := ⟨List.forall_mem_nil _, List.forall_mem_nil _⟩

/-! ## Selectors -/

theorem stringMembers_mapTerms (f : String → String) (items : List Term) :
    Selector.stringMembers (mapTerms f items) = Selector.stringMembers items := by
  rw [Selector.stringMembers, mapTerms_eq_map, List.filterMap_map]
  refine List.filterMap_congr fun t _ => ?_
  cases t <;> rfl

theorem ofFields_mapFields (f : String → String) (fields : List (Term × Term)) :
    Selector.ofFields (mapFields f fields) = Selector.ofFields fields := by
  rw [Selector.ofFields, mapFields_eq_map, List.filterMap_map]
  refine congrArg SortedMap.ofList (List.filterMap_congr fun e _ => ?_)
  obtain ⟨key, value⟩ := e
  cases key with
  | string key =>
    cases value with
    | set items => exact congrArg (fun ms => some (key, ms)) (stringMembers_mapTerms f items)
    | _ => rfl
  | _ => rfl

/-- Reading names back before looking for a selector is as good as reading them back then. -/
theorem ofClause?_mapVars (locals : Locals) (name : String) (c : Clause) :
    Selector.ofClause? [] name (c.mapVars locals.resolve) = Selector.ofClause? locals name c := by
  obtain ⟨negated, payload, modifiers⟩ := c
  cases payload with
  | single t => rfl
  | declare vars domain => cases domain <;> rfl
  | every key value domain body => cases key <;> rfl
  | call slots =>
    rcases slots with _ | ⟨a, _ | ⟨b, _ | ⟨d, _ | ⟨e, rest⟩⟩⟩⟩
    case cons.cons.cons.nil =>
      cases b with
      | var v =>
        cases d with
        | object fields =>
          have hfields := ofFields_mapFields locals.resolve fields
          change (if Locals.resolve [] (locals.resolve v) = name then
            some (Selector.ofFields (mapFields locals.resolve fields)) else none) = _
          rw [hfields]
          rfl
        | _ => rfl
      | _ => rfl
    case cons.cons.cons.cons =>
      cases b with
      | var v => cases d <;> rfl
      | _ => rfl
    case cons.cons.nil => cases b <;> rfl
    all_goals rfl

theorem ofRule_mapVars (locals : Locals) (name : String) (r : Rule) :
    Selector.ofRule (r.mapVars locals.resolve) [] name = Selector.ofRule r locals name := by
  have hbodies : (r.bodies.map (mapBody locals.resolve)).flatten =
      r.bodies.flatten.map (Clause.mapVars locals.resolve) := by
    rw [List.map_flatten]
    exact congrArg List.flatten (List.map_congr_left fun body _ => mapBody_eq_map body)
  rw [Selector.ofRule, Rule.mapVars, hbodies, List.findSome?_map, Selector.ofRule]
  congr 2
  funext c
  exact ofClause?_mapVars locals name c

/-! ## Compiled fragments -/

/-- Whether compiled fragments have unique names for the local variables of a view, and no other new
names. -/
structure Compiled.IsRenamingOf (c : Compiled) (view : SortedMap Module) : Prop where
  /-- Reading all names back gives the view. -/
  restored : c.modules.mapValues (fun _ m => m.mapVars c.locals.resolve) = view
  /-- The names that stand for others are the first so many. -/
  renamed : ∀ v, ((∃ e ∈ c.modules.entries, ∃ o ∈ e.2.occurrences, o.name = v) ∧
    c.locals.resolve v ≠ v) ↔ ∃ k < c.locals.length, v = localName k
  /-- Each of them is declared once, in one place of one module. -/
  declared : ∀ k < c.locals.length,
    (c.modules.entries.flatMap fun e => e.2.occurrences).count ⟨localName k, true⟩ = 1
  /-- Wherever a rule with a body declares a name, its arguments apart, the name is one of them. -/
  everywhere : ∀ e ∈ c.modules.entries, ∀ r ∈ e.2.rules, r.bodies ≠ [] →
    ∀ o ∈ r.bodyOccurrences, o.declares = true → ∃ k < c.locals.length, o.name = localName k
  blank : ∀ v, c.locals.resolve v = "_" ↔ v = "_"
  /-- Each rule holds the selectors that it held in the view. -/
  selectors : ∀ fragment m, c.module? fragment = some m →
    ∃ m₀, view.get? fragment = some m₀ ∧
      List.Forall₂
        (fun r r₀ => ∀ name, Selector.ofRule r c.locals name = Selector.ofRule r₀ [] name)
        m.rules m₀.rules

section

variable {fragments : List (String × String)} {trees : List (String × ModuleTree)} {c : Compiled}

theorem compile_renames (hread : readFragments fragments = .ok trees)
    (hcompile : compile fragments = .ok c)
    (hsource : ∀ e ∈ (lowerFragments trees).entries, AllNames IsSourceName e.2.occurrences) :
    RenamesSome [] c.locals (c.modules.entries.flatMap fun e => e.2.occurrences)
        (fun f => c.modules.mapValues (fun _ m => m.mapVars f) = lowerFragments trees) ∧
      ∀ e ∈ c.modules.entries, ∀ r ∈ e.2.rules, r.DeclaresNew := by
  obtain ⟨hrenames, hnew⟩ := renameModules_restored scope_sound_nil hsource
  obtain ⟨-, hlocals⟩ := renamed_of_compile hread hcompile
  have hentries := entries_of_compile hread hcompile
  rw [hlocals, hentries]
  refine ⟨hrenames.imp fun f hf => SortedMap.ext_entries ?_, hnew⟩
  rw [← hf, ← hentries]
  rfl

/-- Fragments whose calls are defined compile; here are some that have none of the new names. -/
theorem exists_compiled (fragments : List (String × String))
    (h : ((readFragments fragments).toOption.any fun trees =>
      decide (undefinedCall? (lowerFragments trees) = none ∧
        ∀ e ∈ (lowerFragments trees).entries, ∀ o ∈ e.2.occurrences,
          o.name.toList.take 7 ≠ "__local".toList)) = true) :
    ∃ trees c, readFragments fragments = .ok trees ∧ compile fragments = .ok c ∧
      ∀ e ∈ (lowerFragments trees).entries, AllNames IsSourceName e.2.occurrences := by
  obtain ⟨trees, hread, hcalls, hnames⟩ := exists_readFragments h
  have hcompile := compile_of_read hread hcalls rfl
  exact ⟨trees, _, hread, hcompile, fun e he o ho => isSourceName_of_take (hnames e he o ho)⟩

/-- Renaming can be undone, and the names that it gives are new: for fragments that compile and have
none of those names themselves. -/
theorem compile_isRenamingOf (hread : readFragments fragments = .ok trees)
    (hcompile : compile fragments = .ok c)
    (hsource : ∀ e ∈ (lowerFragments trees).entries, AllNames IsSourceName e.2.occurrences) :
    c.IsRenamingOf (lowerFragments trees) := by
  obtain ⟨hrenames, hnew⟩ := compile_renames hread hcompile hsource
  have hnames : ∀ v ∈ c.locals, v ≠ "_" ∧ IsSourceName v := by
    obtain ⟨more, hmore, hnames⟩ := hrenames.added
    rwa [hmore, List.nil_append]
  have hrestored := hrenames.restores _ (List.prefix_refl _)
  have hdeclared : ∀ k < c.locals.length,
      (c.modules.entries.flatMap fun e => e.2.occurrences).count ⟨localName k, true⟩ = 1 :=
    fun k hk => by rw [hrenames.declared, if_pos ⟨Nat.zero_le k, hk⟩]
  have hknown : ∀ e ∈ c.modules.entries, ∀ o ∈ e.2.occurrences, ¬ IsSourceName o.name →
      ∃ k < c.locals.length, o.name = localName k := by
    intro e he o ho hnot
    obtain ⟨k, hk⟩ := exists_localName hnot
    exact ⟨k, hrenames.known o (List.mem_flatMap.mpr ⟨e, he, ho⟩) k hk, hk⟩
  exact {
    restored := hrestored
    renamed := by
      refine fun v => ⟨?_, ?_⟩
      · rintro ⟨⟨e, he, o, ho, rfl⟩, hresolve⟩
        exact hknown e he o ho fun hv => hresolve (Locals.resolve_source _ hv)
      · rintro ⟨k, hk, rfl⟩
        have hmem := List.count_pos_iff.mp (Nat.lt_of_lt_of_eq Nat.one_pos (hdeclared k hk).symm)
        obtain ⟨e, he, ho⟩ := List.mem_flatMap.mp hmem
        refine ⟨⟨e, he, _, ho, rfl⟩, ?_⟩
        rw [Locals.resolve_localName (List.getElem?_eq_getElem hk)]
        exact (hnames _ (List.getElem_mem hk)).2 k
    declared := hdeclared
    everywhere := by
      intro e he r hr hbodies o ho hdeclares
      have hmem : o ∈ e.2.occurrences := List.mem_append_right _ <| List.mem_append_right _ <|
        List.mem_flatMap.mpr ⟨r, hr, List.mem_cons_of_mem _ (List.mem_append_right _ ho)⟩
      exact hknown e he o hmem (hnew e he r hr hbodies o ho hdeclares)
    blank _ := Locals.resolve_eq_blank fun name hname => (hnames name hname).1
    selectors := by
      intro fragment m hm
      refine ⟨m.mapVars c.locals.resolve, ?_, ?_⟩
      · rw [← hrestored, SortedMap.get?_mapValues]
        exact congrArg (Option.map _) hm
      · rw [Module.mapVars, List.forall₂_map_right_iff, List.forall₂_same]
        exact fun r _ name => (ofRule_mapVars c.locals name r).symm }

end

/-- One source name in two modules, and in two bodies of one rule. -/
theorem compile_isRenamingOf_modules :
    let fragments : List (String × String) :=
      [("a.rego", "package a\n\np = x \x7b\n\tx := 1\n\ty := [x | x := input[_]]\n\ty\n" ++
          "\x7d else \x7b\n\tsome x\n\tinput[x]\n\x7d\n"),
        ("b.rego", "package b\n\nq \x7b\n\t[x, _] := input.pair\n\tx\n\x7d\n")]
    ∃ trees c, readFragments fragments = .ok trees ∧ compile fragments = .ok c ∧
      (∀ e ∈ (lowerFragments trees).entries, AllNames IsSourceName e.2.occurrences) ∧
      c.IsRenamingOf (lowerFragments trees) := by
  intro fragments
  obtain ⟨trees, c, hread, hcompile, hsource⟩ := exists_compiled fragments (by decide +kernel)
  exact ⟨trees, c, hread, hcompile, hsource, compile_isRenamingOf hread hcompile hsource⟩

end PolicySync.Policy
