import PolicySync.Policy.Compile
import PolicySync.Proofs.Data.SortedMap

/-!
# What compiling does

Fragments compile when each of them is read, their calls are defined, and what comes out is their
renamed views; the first fragment that cannot be read is named.
-/

namespace PolicySync.Policy

variable {fragments : List (String × String)}

theorem readFragments_malformed {name source : String}
    (h : ModuleTree.parse? source = none) :
    readFragments ((name, source) :: fragments) = .error (.malformed name) := by
  rw [readFragments, h]

theorem readFragments_cons {name source : String} {tree : ModuleTree}
    {trees : List (String × ModuleTree)} (h : ModuleTree.parse? source = some tree)
    (hrest : readFragments fragments = .ok trees) :
    readFragments ((name, source) :: fragments) = .ok ((name, tree) :: trees) := by
  rw [readFragments, h, hrest]
  rfl

theorem names_of_readFragments {trees : List (String × ModuleTree)}
    (h : readFragments fragments = .ok trees) :
    trees.map (·.1) = fragments.map (·.1) := by
  induction fragments generalizing trees with
  | nil =>
    cases h
    rfl
  | cons fragment rest ih =>
    obtain ⟨name, source⟩ := fragment
    rw [readFragments] at h
    cases hparse : ModuleTree.parse? source with
    | none =>
      rw [hparse] at h
      cases h
    | some tree =>
      rw [hparse] at h
      cases hrest : readFragments rest with
      | error e =>
        rw [hrest] at h
        cases h
      | ok more =>
        rw [hrest] at h
        cases h
        rw [List.map_cons, List.map_cons, ih hrest]

theorem compile_of_unread {e : PolicyError} (h : readFragments fragments = .error e) :
    compile fragments = .error e := by
  rw [compile, h]
  rfl

theorem compile_of_read {trees : List (String × ModuleTree)} {entries : List (String × Module)}
    {locals : Locals} (hread : readFragments fragments = .ok trees)
    (hcalls : undefinedCall? (lowerFragments trees) = none)
    (hrename : renameModules (lowerFragments trees).entries [] = (entries, locals)) :
    compile fragments = .ok ⟨SortedMap.ofList entries, locals, trees.map (·.2)⟩ := by
  simp only [compile, bind, Except.bind, hread, hcalls, hrename]
  rfl

theorem compile_of_undefined {trees : List (String × ModuleTree)} {name function : String}
    (hread : readFragments fragments = .ok trees)
    (hcalls : undefinedCall? (lowerFragments trees) = some (name, function)) :
    compile fragments = .error (.undefinedFunction name function) := by
  simp only [compile, bind, Except.bind, hread, hcalls]

theorem renamed_of_compile {trees : List (String × ModuleTree)} {c : Compiled}
    (hread : readFragments fragments = .ok trees) (hcompile : compile fragments = .ok c) :
    c.modules = SortedMap.ofList (renameModules (lowerFragments trees).entries []).1 ∧
      c.locals = (renameModules (lowerFragments trees).entries []).2 := by
  cases hcalls : undefinedCall? (lowerFragments trees) with
  | some call =>
    rw [compile_of_undefined hread hcalls] at hcompile
    cases hcompile
  | none =>
    rw [compile_of_read hread hcalls rfl] at hcompile
    cases hcompile
    exact ⟨rfl, rfl⟩

private theorem keys_renameModules (entries : List (String × Module)) (names : Locals) :
    (renameModules entries names).1.map (·.1) = entries.map (·.1) := by
  induction entries generalizing names with
  | nil => rfl
  | cons e rest ih => exact congrArg (e.1 :: ·) (ih _)

/-- Compiled fragments are their renamed views, each under its name. -/
theorem entries_of_compile {trees : List (String × ModuleTree)} {c : Compiled}
    (hread : readFragments fragments = .ok trees) (hcompile : compile fragments = .ok c) :
    c.modules.entries = (renameModules (lowerFragments trees).entries []).1 := by
  have hsorted := List.pairwise_map.mpr (lowerFragments trees).sorted
  rw [← keys_renameModules _ []] at hsorted
  rw [(renamed_of_compile hread hcompile).1,
    SortedMap.entries_ofList (List.pairwise_map.mp hsorted)]

/-- What is checked of the trees of fragments is found by reading them. -/
theorem exists_readFragments {p : List (String × ModuleTree) → Prop} [DecidablePred p]
    (h : ((readFragments fragments).toOption.any fun trees => decide (p trees)) = true) :
    ∃ trees, readFragments fragments = .ok trees ∧ p trees := by
  cases hread : readFragments fragments with
  | error e =>
    rw [hread] at h
    cases h
  | ok trees =>
    rw [hread] at h
    exact ⟨trees, rfl, of_decide_eq_true h⟩

/-- Modules whose own calls are all defined have no undefined call. -/
theorem undefinedCall?_eq_none {modules : SortedMap Module}
    (h : ∀ e ∈ modules.entries,
      e.2.undefinedCall? (modules.entries.flatMap fun e => e.2.definedPaths) = none) :
    undefinedCall? modules = none := by
  refine List.findSome?_eq_none_iff.mpr fun e he => ?_
  rw [h e he]
  rfl

theorem Module.undefinedCall?_of_no_calls {m : Module} {defined : List (List String)}
    (h : m.rules.flatMap Rule.calls = []) : m.undefinedCall? defined = none := by
  rw [Module.undefinedCall?, h]
  rfl

end PolicySync.Policy
