import PolicySync.Proofs.Policy.Occurrence

/-!
# Names of local variables

A new name has the number of its declaration, so that no two declarations share one and reading it
back gives the source name. A pass of renaming adds the names that it declares to those so far; what
it does is put together from what its parts do.
-/

namespace PolicySync.Policy

/-! ## Names and their numbers -/

theorem localName_injective {i j : Nat} (h : localName i = localName j) : i = j := by
  have hdigits : (toString i).toList = (toString j).toList := by
    have hlist := congrArg String.toList h
    rw [localName, localName, String.toList_append, String.toList_append, String.toList_append,
      String.toList_append] at hlist
    exact List.append_cancel_left (List.append_cancel_right hlist)
  rw [Nat.toString_eq_ofList_toDigits, Nat.toString_eq_ofList_toDigits, String.toList_ofList,
    String.toList_ofList] at hdigits
  rw [← @Nat.ofDigitChars_ten_toDigits i, hdigits, Nat.ofDigitChars_ten_toDigits]

/-- Whether a name is none of those that renaming gives. -/
def IsSourceName (v : String) : Prop := ∀ n, v ≠ localName n

theorem exists_localName {v : String} (h : ¬ IsSourceName v) : ∃ n, v = localName n := by
  obtain ⟨n, hn⟩ := Classical.not_forall.mp h
  exact ⟨n, Classical.not_not.mp hn⟩

theorem isSourceName_of_take {v : String} (h : v.toList.take 7 ≠ "__local".toList) :
    IsSourceName v := by
  rintro n rfl
  refine h ?_
  rw [localName, String.toList_append, String.toList_append, List.append_assoc]
  exact List.take_left' rfl

theorem lookupEntry_zipIdx (names : Locals) (i k : Nat) :
    lookupEntry (localName (i + k)) ((names.zipIdx i).map fun (name, n) => (localName n, name)) =
      names[k]? := by
  induction names generalizing i k with
  | nil => rfl
  | cons name rest ih =>
    rw [List.zipIdx_cons, List.map_cons, lookupEntry]
    cases k with
    | zero => simp
    | succ k =>
      have hne : localName i ≠ localName (i + (k + 1)) := fun h => by
        have := localName_injective h
        omega
      have hshift : i + (k + 1) = i + 1 + k := by omega
      rw [if_neg hne, hshift, ih, List.getElem?_cons_succ]

theorem Locals.lookupEntry_table (names : Locals) (k : Nat) :
    lookupEntry (localName k) names.table = names[k]? := by
  have hzip := lookupEntry_zipIdx names 0 k
  rw [Nat.zero_add] at hzip
  exact hzip

theorem Locals.resolve_localName {names : Locals} {k : Nat} {v : String} (h : names[k]? = some v) :
    names.resolve (localName k) = v := by
  rw [resolve, lookupEntry_table, h]
  rfl

theorem Locals.resolve_source (names : Locals) {v : String} (h : IsSourceName v) :
    names.resolve v = v := by
  have hnone : ∀ l : List (String × Nat),
      lookupEntry v (l.map fun (name, n) => (localName n, name)) = none := by
    intro l
    induction l with
    | nil => rfl
    | cons e rest ih => rw [List.map_cons, lookupEntry, if_neg (h e.2).symm, ih]
  rw [resolve, table, hnone]
  rfl

theorem isSourceName_blank : IsSourceName "_" := isSourceName_of_take (by decide)

theorem isSourceName_assign : IsSourceName "assign" := isSourceName_of_take (by decide)

theorem Locals.resolve_eq_blank {names : Locals} (hnames : ∀ v ∈ names, v ≠ "_") {v : String} :
    names.resolve v = "_" ↔ v = "_" := by
  refine ⟨fun h => ?_, fun h => by rw [h, resolve_source names isSourceName_blank]⟩
  by_cases hv : IsSourceName v
  · rwa [resolve_source names hv] at h
  obtain ⟨k, rfl⟩ := exists_localName hv
  rw [resolve, lookupEntry_table] at h
  cases hk : names[k]? with
  | none => rwa [hk] at h
  | some name =>
    rw [hk] at h
    exact absurd h (hnames name (List.mem_of_getElem? hk))

/-! ## What a pass does -/

/-- What a pass makes of the declarations so far, with the occurrences in what it passed over, and
what is restored by reading names back. -/
structure RenamesSome (names names' : Locals) (occurrences : List Occurrence)
    (restored : (String → String) → Prop) : Prop where
  /-- It adds declarations, none of the blank. -/
  added : ∃ more, names' = names ++ more ∧ ∀ v ∈ more, v ≠ "_" ∧ IsSourceName v
  /-- Each of them is declared once under its new name, and no other new name is declared. -/
  declared : ∀ k, occurrences.count ⟨localName k, true⟩ =
    if names.length ≤ k ∧ k < names'.length then 1 else 0
  /-- No new name stands for a declaration to come. -/
  known : ∀ o ∈ occurrences, ∀ k, o.name = localName k → k < names'.length
  /-- Whatever is declared later, reading the new names back restores what there was. -/
  restores : ∀ final : Locals, names' <+: final → restored final.resolve

/-- The same of a pass that leaves no declaration as it was. -/
structure Renames (names names' : Locals) (occurrences : List Occurrence)
    (restored : (String → String) → Prop) : Prop
    extends RenamesSome names names' occurrences restored where
  fresh : ∀ o ∈ occurrences, o.declares = true → ¬ IsSourceName o.name

section

variable {names names' names'' : Locals} {a b : List Occurrence} {p q : (String → String) → Prop}

namespace RenamesSome

theorem grows (h : RenamesSome names names' a p) : names <+: names' := by
  obtain ⟨more, rfl, -⟩ := h.added
  exact List.prefix_append names more

theorem imp (h : RenamesSome names names' a p) (hpq : ∀ f, p f → q f) :
    RenamesSome names names' a q where
  added := h.added
  declared := h.declared
  known := h.known
  restores final hfinal := hpq _ (h.restores final hfinal)

/-- One pass after the other. -/
theorem seq (h : RenamesSome names names' a p) (h' : RenamesSome names' names'' b q) :
    RenamesSome names names'' (a ++ b) fun f => p f ∧ q f where
  added := by
    obtain ⟨more, rfl, hmore⟩ := h.added
    obtain ⟨more', rfl, hmore'⟩ := h'.added
    refine ⟨more ++ more', List.append_assoc .., fun v hv => ?_⟩
    exact (List.mem_append.mp hv).elim (hmore v) (hmore' v)
  declared k := by
    have hle := h.grows.length_le
    have hle' := h'.grows.length_le
    rw [List.count_append, h.declared, h'.declared]
    split <;> split <;> split <;> omega
  known o ho k hk := by
    rcases List.mem_append.mp ho with ho | ho
    · exact Nat.lt_of_lt_of_le (h.known o ho k hk) h'.grows.length_le
    · exact h'.known o ho k hk
  restores final hfinal :=
    ⟨h.restores final (h'.grows.trans hfinal), h'.restores final hfinal⟩

/-- What has source names only is left as it is. -/
theorem unchanged (ha : AllNames IsSourceName a)
    (hp : ∀ f : String → String, (∀ v, IsSourceName v → f v = v) → p f) :
    RenamesSome names names a p where
  added := ⟨[], (List.append_nil names).symm, List.forall_mem_nil _⟩
  declared k := by
    rw [if_neg (by omega), List.count_eq_zero]
    intro hmem
    exact ha _ hmem k rfl
  known o ho k hk := absurd hk (ha o ho k)
  restores final _ := hp _ fun v hv => Locals.resolve_source final hv

theorem perm (h : RenamesSome names names' a p) (hab : a.Perm b) :
    RenamesSome names names' b p where
  added := h.added
  declared k := by rw [← hab.count_eq, h.declared]
  known o ho := h.known o (hab.mem_iff.mpr ho)
  restores := h.restores

end RenamesSome

namespace Renames

theorem imp (h : Renames names names' a p) (hpq : ∀ f, p f → q f) : Renames names names' a q :=
  ⟨h.toRenamesSome.imp hpq, h.fresh⟩

theorem seq (h : Renames names names' a p) (h' : Renames names' names'' b q) :
    Renames names names'' (a ++ b) fun f => p f ∧ q f :=
  ⟨h.toRenamesSome.seq h'.toRenamesSome, List.forall_mem_append.mpr ⟨h.fresh, h'.fresh⟩⟩

theorem perm (h : Renames names names' a p) (hab : a.Perm b) : Renames names names' b p :=
  ⟨h.toRenamesSome.perm hab, fun o ho => h.fresh o (hab.mem_iff.mpr ho)⟩

theorem unchanged (ha : AllNames IsSourceName a) (hdeclares : ∀ o ∈ a, o.declares = false)
    (hp : ∀ f : String → String, (∀ v, IsSourceName v → f v = v) → p f) :
    Renames names names a p :=
  ⟨.unchanged ha hp, fun o ho h => absurd h (by simp [hdeclares o ho])⟩

theorem nothing (hp : ∀ f : String → String, p f) : Renames names names [] p :=
  .unchanged (List.forall_mem_nil _) (List.forall_mem_nil _) fun f _ => hp f

end Renames

end

/-- Whether the names in force in a scope are those of declarations so far. -/
structure Scope.Sound (scope : Scope) (names : Locals) : Prop where
  entries : ∀ e ∈ scope, ∃ k, e.2 = localName k ∧ names[k]? = some e.1
  source : ∀ v ∈ names, v ≠ "_" ∧ IsSourceName v

namespace Scope.Sound

variable {scope : Scope} {names names' : Locals} {v : String}

theorem find (h : scope.Sound names) (v : String) :
    (∃ k, scope.find v = localName k ∧ names[k]? = some v) ∨ scope.find v = v := by
  obtain ⟨hentries, -⟩ := h
  induction scope with
  | nil => exact .inr rfl
  | cons e rest ih =>
    obtain ⟨he, hrest⟩ := List.forall_mem_cons.mp hentries
    obtain ⟨name, new⟩ := e
    by_cases hname : name = v
    · subst hname
      refine .inl ?_
      rw [Scope.find, lookupEntry, if_pos rfl]
      exact he
    · rw [Scope.find, lookupEntry, if_neg hname]
      exact ih hrest

theorem find_blank (h : scope.Sound names) : scope.find "_" = "_" := by
  rcases h.find "_" with ⟨k, -, hk⟩ | hfind
  · exact absurd rfl (h.source "_" (List.mem_of_getElem? hk)).1
  · exact hfind

end Scope.Sound

theorem RenamesSome.later {scope : Scope} {names names' : Locals} {a : List Occurrence}
    {p : (String → String) → Prop} (h : RenamesSome names names' a p)
    (hscope : scope.Sound names) : scope.Sound names' := by
  obtain ⟨more, rfl, hmore⟩ := h.added
  refine ⟨fun e he => ?_, fun v hv => ?_⟩
  · obtain ⟨k, hk, hname⟩ := hscope.entries e he
    refine ⟨k, hk, ?_⟩
    rw [List.getElem?_append_left (List.getElem?_eq_some_iff.mp hname).1, hname]
  · exact (List.mem_append.mp hv).elim (hscope.source v) (hmore v)

end PolicySync.Policy
