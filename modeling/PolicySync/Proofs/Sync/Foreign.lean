import PolicySync.Proofs.Sync.Call

/-!
# A module of another resource

A module that was written for one resource can lie at the path of another. Labels are looked up in
the package of the resource at hand, so that such a module counts as empty and is replaced.
Selectors are taken from whatever module is there.
-/

namespace PolicySync

open PolicySync.Policy PolicySync.Text

theorem SystemSpec.desiredLabels_ne_empty (spec : SystemSpec) : spec.desiredLabels ≠ .empty := by
  intro h
  have hget : spec.desiredLabels.get? Labels.typeKey = some spec.type := by
    rw [desiredLabels, Labels.desired, SortedMap.get?_insert, if_pos rfl]
  rw [h] at hget
  cases hget

variable {a b : String} {store : Policies} {modules : PolicyModules}

/-- Labels that were written for another system are replaced, whatever they say. -/
theorem run_labels_foreign {labels : Labels} (hne : a ≠ b)
    (ha : reservedWords.contains a = false) (hplain : a.toList.all Quoted.isPlain = true)
    (hb : reservedWords.contains b = false) (hplain' : b.toList.all Quoted.isPlain = true)
    (hpath : store.get? (labelsPath b) = some modules)
    (hfile : modules.get? Labels.fragment = some (Labels.render a labels)) (spec : SystemSpec) :
    (SyncCall.labels b spec).run store =
      (.ok .updated, store.insert (labelsPath b) (spec.wanted b).modules) := by
  have hstored : Stored (Labels.decode b) id (labelsPath b) Labels.fragment store
      (some (.empty : Labels)) :=
    ⟨modules, _, _, hpath, hfile, Labels.decode_render_of_ne ha hplain hne labels, rfl⟩
  have hsync : (SyncCall.labels b spec).run store = _ :=
    WantedPolicy.sync_stored (isFor_labels hb hplain' spec) hstored
  have hstale : ¬ some (.empty : Labels) = some spec.desiredLabels :=
    fun h => spec.desiredLabels_ne_empty (Option.some.inj h).symm
  rw [hsync, if_neg hstale]
  rfl

/-- Selectors that were written for any stack are taken for those of the stack at hand. -/
theorem run_selectors_foreign {s : Selectors} (ha : reservedWords.contains a = false)
    (hb : reservedWords.contains b = false) (hpath : store.get? (selectorsPath b) = some modules)
    (hfile : modules.get? Selectors.fragment = some (Selectors.render a s)) (spec : StackSpec) :
    (SyncCall.selectors b spec).run store =
      if s.sets = spec.selectors.sets then (.ok .upToDate, store)
      else (.ok .updated, store.insert (selectorsPath b) (spec.wanted b).modules) := by
  have hstored : Stored Selectors.decode Selectors.sets (selectorsPath b) Selectors.fragment store
      (some s.sets) := by
    refine ⟨modules, _, s, hpath, hfile, ?_, rfl⟩
    rw [Selectors.decode_render, ha, if_neg Bool.false_ne_true]
  have hsync : (SyncCall.selectors b spec).run store = _ :=
    WantedPolicy.sync_stored (isFor_selectors hb spec) hstored
  simp only [hsync, Option.some.injEq]
  rfl

/-- The module of a stack's selectors has the rule of that stack and of no other. -/
theorem Selectors.defines_render (hres : reservedWords.contains a = false)
    (hplain : a.toList.all Quoted.isPlain = true) (s : Selectors) :
    ∃ c, compile [(fragment, render a s), matchHelperFragment] = .ok c ∧
      ∀ b, c.defines ["stacks", b, "selectors"] rule = true ↔ a = b := by
  have hlt : matchHelperFragment.1 < fragment := by decide
  have hmodule : (module a s).packagePath? = some ["stacks", a, "selectors"] :=
    (packagePath?_module a s).mpr hplain
  have hrule : ((module a s).rule? rule).isSome = true := rfl
  have hhelper : helperModule.packagePath? =
      some ["library", "v1", "utils", "labels", "match", "v1"] := rfl
  refine ⟨_, by rw [compile_render, hres, if_neg Bool.false_ne_true], fun b => ?_⟩
  rw [Compiled.defines, SortedMap.entries_ofList (by simpa using hlt)]
  simp [hmodule, hrule, hhelper]

/-- A module that was written for one resource and lies at the path of another: labels are replaced
by those of the resource, and selectors only if their sets differ from the wanted ones, though the
module has no rule for the stack. -/
theorem sync_over_foreign_module (hne : a ≠ b) (ha : isObjectName a = true)
    (ha' : a ∉ reservedWords) (hb : isObjectName b = true) (hb' : b ∉ reservedWords) :
    (∀ labels (spec : SystemSpec), store.get? (labelsPath b) = some modules →
      modules.get? Labels.fragment = some (Labels.render a labels) →
      (SyncCall.labels b spec).run store =
        (.ok .updated, store.insert (labelsPath b) (spec.wanted b).modules)) ∧
      ∀ (s : Selectors) (spec : StackSpec), store.get? (selectorsPath b) = some modules →
        modules.get? Selectors.fragment = some (Selectors.render a s) →
        (∃ c, compile [(Selectors.fragment, Selectors.render a s), matchHelperFragment] = .ok c ∧
          c.defines ["stacks", b, "selectors"] Selectors.rule = false) ∧
        (SyncCall.selectors b spec).run store =
          if s.sets = spec.selectors.sets then (.ok .upToDate, store)
          else (.ok .updated, store.insert (selectorsPath b) (spec.wanted b).modules) := by
  have hres : reservedWords.contains a = false := by simpa using ha'
  have hres' : reservedWords.contains b = false := by simpa using hb'
  have hplain := plain_of_isObjectName ha
  have hplain' := plain_of_isObjectName hb
  constructor
  · intro labels spec hpath hfile
    exact run_labels_foreign hne hres hplain hres' hplain' hpath hfile spec
  · intro s spec hpath hfile
    obtain ⟨c, hcompile, hdefines⟩ := Selectors.defines_render hres hplain s
    have hmissing : c.defines ["stacks", b, "selectors"] Selectors.rule = false :=
      Bool.eq_false_iff.mpr ((hdefines b).not.mpr hne)
    exact ⟨⟨c, hcompile, hmissing⟩, run_selectors_foreign hres hres' hpath hfile spec⟩

/-- What two resources of the name `db` ask for. -/
def dbSystem : SystemSpec := ⟨"custom", none, .empty⟩

def dbStack : StackSpec := ⟨"group", none, ⟨.ofList [("zone", ["a", "b"])], .empty⟩⟩

/-- What was written for `web`, at the path of `db`. -/
def misplacedLabels : Policies :=
  .singleton (labelsPath "db")
    (.singleton Labels.fragment (Labels.render "web" dbSystem.desiredLabels))

def misplacedSelectors (s : Selectors) : Policies :=
  .singleton (selectorsPath "db") (.singleton Selectors.fragment (Selectors.render "web" s))

theorem sync_over_foreign_module_db :
    ("web" ≠ "db" ∧ isObjectName "web" = true ∧ "web" ∉ reservedWords ∧
        isObjectName "db" = true ∧ "db" ∉ reservedWords) ∧
      (SyncCall.labels "db" dbSystem).run misplacedLabels =
        (.ok .updated,
          misplacedLabels.insert (labelsPath "db") (dbSystem.wanted "db").modules) ∧
      (SyncCall.selectors "db" dbStack).run (misplacedSelectors .empty) =
        (.ok .updated,
          (misplacedSelectors .empty).insert (selectorsPath "db") (dbStack.wanted "db").modules) := by
  have hnames : "web" ≠ "db" ∧ isObjectName "web" = true ∧ "web" ∉ reservedWords ∧
      isObjectName "db" = true ∧ "db" ∉ reservedWords := by decide
  obtain ⟨hne, ha, ha', hb, hb'⟩ := hnames
  have hselectors := ((sync_over_foreign_module hne ha ha' hb hb').2 .empty dbStack
    (SortedMap.get?_singleton _ _) (SortedMap.get?_singleton _ _)).2
  refine ⟨⟨hne, ha, ha', hb, hb'⟩, ?_, ?_⟩
  · exact (sync_over_foreign_module hne ha ha' hb hb').1 _ dbSystem
      (SortedMap.get?_singleton _ _) (SortedMap.get?_singleton _ _)
  · rw [misplacedSelectors, hselectors, if_neg (by decide)]

/-- The selectors that a stack asks for are taken as up to date when they were written for another
stack, and stay where they are. -/
theorem misplacedSelectors_upToDate :
    ("web" ≠ "db" ∧ isObjectName "web" = true ∧ "web" ∉ reservedWords ∧
        isObjectName "db" = true ∧ "db" ∉ reservedWords) ∧
      (SyncCall.selectors "db" dbStack).run (misplacedSelectors dbStack.selectors) =
        (.ok .upToDate, misplacedSelectors dbStack.selectors) := by
  refine ⟨by decide, ?_⟩
  have hsync := run_selectors_foreign (a := "web") (b := "db") (s := dbStack.selectors) (by decide)
    (by decide) (SortedMap.get?_singleton _ _) (SortedMap.get?_singleton _ _) dbStack
  rw [misplacedSelectors, hsync, if_pos rfl]

/-- Labels that were written for another system have to be replaced, whatever they say. -/
theorem afterGet_labels_foreign {labels : Labels} (hne : a ≠ b) (ha : IsResourceName a)
    (hfile : modules.get? Labels.fragment = some (Labels.render a labels)) (spec : SystemSpec) :
    (spec.wanted b).afterGet (.ok (some modules)) = none := by
  have hdecode : Labels.decode b (Labels.render a labels) = .ok .empty :=
    Labels.decode_render_of_ne ha.unreserved ha.plain hne labels
  have hstale : Labels.same .empty spec.desiredLabels = false := by
    rw [Bool.eq_false_iff, Ne, Labels.same_iff]
    exact spec.desiredLabels_ne_empty.symm
  have hcurrent : (spec.wanted b).isCurrent (Labels.render a labels) = .ok false := by
    change (Labels.decode b _).map _ = _
    rw [hdecode, ← hstale]
    rfl
  have hsource : modules.get? (spec.wanted b).file = some (Labels.render a labels) := hfile
  simp only [WantedPolicy.afterGet, Option.bind_some, hsource, hcurrent]

/-- Labels that were written for one system are never read as those of another, not even when they
are the wanted ones: any store that answers with them is written to, and a store in memory then
holds the module of the system at hand. -/
theorem labels_of_another_system (hne : a ≠ b) (ha : IsResourceName a) (labels : Labels) :
    Labels.decode b (Labels.render a labels) = .ok .empty ∧
      ∀ (spec : SystemSpec) (modules : PolicyModules),
        modules.get? Labels.fragment = some (Labels.render a labels) →
        (∀ (σ : Type) (store : PolicyStore σ) (s s' : σ),
          store.get (labelsPath b) s = (.ok (some modules), s') →
          (spec.wanted b).sync store s =
            (store.put (labelsPath b)
              (.singleton Labels.fragment (Labels.render b spec.desiredLabels)) s').map
                WantedPolicy.afterPut id) ∧
          ∀ store : Policies, store.get? (labelsPath b) = some modules →
            (SyncCall.labels b spec).run store =
              (.ok .updated, store.insert (labelsPath b)
                (.singleton Labels.fragment (Labels.render b spec.desiredLabels))) := by
  refine ⟨Labels.decode_render_of_ne ha.unreserved ha.plain hne labels, ?_⟩
  intro spec modules hfile
  have hwrite : (spec.wanted b).afterGet (.ok (some modules)) = none :=
    afterGet_labels_foreign hne ha hfile spec
  constructor
  · intro σ store s s' hget
    have hget' : store.get (spec.wanted b).path s = (.ok (some modules), s') := hget
    simp only [WantedPolicy.sync, hget', hwrite]
    rfl
  · intro store hpath
    refine SyncCall.run_of_write ?_
    change (spec.wanted b).afterGet (.ok (store.get? (labelsPath b))) = none
    rw [hpath, hwrite]

theorem labels_of_another_system_web :
    ("web" ≠ "db" ∧ IsResourceName "web") ∧
      Labels.decode "db" (Labels.render "web" dbSystem.desiredLabels) = .ok .empty ∧
      (SyncCall.labels "db" dbSystem).run misplacedLabels =
        (.ok .updated, misplacedLabels.insert (labelsPath "db")
          (.singleton Labels.fragment (Labels.render "db" dbSystem.desiredLabels))) := by
  have hne : "web" ≠ "db" := by decide
  have hweb : IsResourceName "web" := by decide
  have hall := labels_of_another_system hne hweb dbSystem.desiredLabels
  refine ⟨⟨hne, hweb⟩, hall.1, ?_⟩
  exact (hall.2 dbSystem _ (SortedMap.get?_singleton _ _)).2 misplacedLabels
    (SortedMap.get?_singleton _ _)

end PolicySync
