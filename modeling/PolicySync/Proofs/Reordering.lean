import PolicySync.Proofs.Policy.Compile
import PolicySync.Proofs.Selectors.Module

/-!
# Fragments in another order

Compiling numbers and checks the fragments by name. Readable fragments with different names
therefore compile to the same views, or fail at the same call, in whatever order they are given.
-/

namespace PolicySync.Policy

variable {fragments reordered : List (String × String)}

/-- The trees of the fragments that can be read. -/
def readableTrees (fragments : List (String × String)) : List (String × ModuleTree) :=
  fragments.filterMap fun f => (ModuleTree.parse? f.2).map fun tree => (f.1, tree)

private theorem readableTrees_cons {name source : String} {tree : ModuleTree}
    (h : ModuleTree.parse? source = some tree) :
    readableTrees ((name, source) :: fragments) = (name, tree) :: readableTrees fragments := by
  simp [readableTrees, h]

theorem readFragments_readable (h : ∀ f ∈ fragments, (ModuleTree.parse? f.2).isSome) :
    readFragments fragments = .ok (readableTrees fragments) := by
  induction fragments with
  | nil => rfl
  | cons f rest ih =>
    obtain ⟨name, source⟩ := f
    obtain ⟨tree, htree⟩ := Option.isSome_iff_exists.mp (h (name, source) List.mem_cons_self)
    have hrest := ih fun f hf => h f (List.mem_cons_of_mem _ hf)
    rw [readFragments_cons htree hrest, readableTrees_cons htree]

theorem lowerFragments_perm {trees trees' : List (String × ModuleTree)}
    (hnames : (trees.map (·.1)).Nodup) (h : trees.Perm trees') :
    lowerFragments trees = lowerFragments trees' := by
  apply SortedMap.ofList_perm
  · rw [List.map_map]
    exact hnames
  · exact h.map _

/-- Fragments in another order fail at the same undefined call, or compile to the same views with
the same names for local variables; only the list of trees for the evaluation is permuted. -/
theorem compile_perm (hnames : (fragments.map (·.1)).Nodup) (hperm : fragments.Perm reordered)
    (hread : ∀ f ∈ fragments, (ModuleTree.parse? f.2).isSome) :
    (∃ fragment function,
      compile fragments = .error (.undefinedFunction fragment function) ∧
      compile reordered = .error (.undefinedFunction fragment function)) ∨
    ∃ c d, compile fragments = .ok c ∧ compile reordered = .ok d ∧
      c.modules = d.modules ∧ c.locals = d.locals ∧ c.trees.Perm d.trees ∧
      (∀ fragment rule, c.rule? fragment rule = d.rule? fragment rule) ∧
      (∀ package rule, c.defines package rule = d.defines package rule) ∧
      (∀ fragment rule name, (c.rule? fragment rule).map (Selector.ofRule · c.locals name) =
        (d.rule? fragment rule).map (Selector.ofRule · d.locals name)) ∧
      Selectors.extract c = Selectors.extract d := by
  have hread' : ∀ f ∈ reordered, (ModuleTree.parse? f.2).isSome := by
    intro f hf
    exact hread f (hperm.mem_iff.mpr hf)
  have htrees := readFragments_readable hread
  have htrees' := readFragments_readable hread'
  -- views are kept by name, so the order is lost before calls are checked and variables numbered
  have hmodules : lowerFragments (readableTrees fragments) =
      lowerFragments (readableTrees reordered) := by
    apply lowerFragments_perm
    · rw [names_of_readFragments htrees]
      exact hnames
    · exact hperm.filterMap _
  cases hcalls : undefinedCall? (lowerFragments (readableTrees fragments)) with
  | some call =>
    obtain ⟨fragment, function⟩ := call
    left
    refine ⟨fragment, function, compile_of_undefined htrees hcalls, ?_⟩
    exact compile_of_undefined htrees' (hmodules ▸ hcalls)
  | none =>
    right
    have hcompile := compile_of_read htrees hcalls rfl
    have hcompile' := compile_of_read htrees' (hmodules ▸ hcalls) rfl
    rw [← hmodules] at hcompile'
    refine ⟨_, _, hcompile, hcompile', rfl, rfl, ?_, ?_, ?_, ?_, ?_⟩
    · exact (hperm.filterMap _).map _
    · intro fragment rule
      rfl
    · intro package rule
      rfl
    · intro fragment rule name
      rfl
    · rfl

theorem compile_perm_helper :
    let stored := (Selectors.fragment, Selectors.render "web" ⟨.singleton "tier" ["a"], .empty⟩)
    ([stored, matchHelperFragment].map (·.1)).Nodup ∧
      (∀ f ∈ [stored, matchHelperFragment], (ModuleTree.parse? f.2).isSome) ∧
      ∃ c d, compile [stored, matchHelperFragment] = .ok c ∧
        compile [matchHelperFragment, stored] = .ok d ∧ c.modules = d.modules ∧
        c.locals = d.locals ∧ Selectors.extract c = Selectors.extract d := by
  intro stored
  have hnames : ([stored, matchHelperFragment].map (·.1)).Nodup := by decide
  have hreserved : ¬ reservedWords.contains "web" = true := by decide
  have hread : ∀ f ∈ [stored, matchHelperFragment], (ModuleTree.parse? f.2).isSome := by
    intro f hf
    rcases List.mem_cons.mp hf with rfl | hf
    · rw [Selectors.parse?_render, if_neg hreserved]
      rfl
    · rw [List.mem_singleton.mp hf, Selectors.parse?_helper]
      rfl
  have hcompiles := Selectors.compile_render "web" ⟨.singleton "tier" ["a"], .empty⟩
  rw [if_neg hreserved] at hcompiles
  refine ⟨hnames, hread, ?_⟩
  rcases compile_perm hnames (.swap _ _ []) hread with ⟨fragment, function, hc, -⟩ | hboth
  · rw [hc] at hcompiles
    cases hcompiles
  · obtain ⟨c, d, hc, hd, hmodules, hlocals, -, -, -, -, hextract⟩ := hboth
    exact ⟨c, d, hc, hd, hmodules, hlocals, hextract⟩

end PolicySync.Policy
