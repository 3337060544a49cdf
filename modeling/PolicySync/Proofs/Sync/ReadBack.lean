import PolicySync.Proofs.Sync.Call

/-!
# Reading back what a call wrote

Once a call has written its policy, its path holds a module of that resource for good. Such a module
can be read, whatever the id, unless the id is a reserved word: the package path takes it for a bare
name, which no module may use there. Every later call for that resource fails.
-/

namespace PolicySync

open PolicySync.Policy PolicySync.Text

theorem Labels.decode_render_error_iff {id : String} {labels : Labels} :
    (∃ e, decode id (render id labels) = .error e) ↔ id ∈ reservedWords := by
  rw [decode_render]
  by_cases hid : id ∈ reservedWords
  · simp [hid]
  · by_cases hplain : id.toList.all Quoted.isPlain = true <;> simp [hid, hplain]

theorem Selectors.decode_render_error_iff {id : String} {s : Selectors} :
    (∃ e, decode (render id s) = .error e) ↔ id ∈ reservedWords := by
  rw [decode_render]
  by_cases hid : id ∈ reservedWords <;> simp [hid]

private theorem map_error_iff {α β ε : Type} {f : α → β} {x : Except ε α} :
    (∃ e, x.map f = .error e) ↔ ∃ e, x = .error e := by
  cases x <;> simp [Except.map]

/-- A policy of the same file is judged by its source. -/
theorem WantedPolicy.afterGet_modules {w v : WantedPolicy} (hfile : v.file = w.file) :
    (∃ e, w.afterGet (.ok (some v.modules)) = some (.error e)) ↔
      ∃ e, w.isCurrent v.source = .error e := by
  have hget : v.modules.get? w.file = some v.source := hfile ▸ SortedMap.get?_singleton _ _
  simp only [afterGet, Option.bind_some, hget]
  cases w.isCurrent v.source with
  | error e => simp
  | ok same => cases same <;> simp

theorem WantedPolicy.afterGet_ne_updated (w : WantedPolicy)
    (observed : Except StoreError (Option PolicyModules)) :
    w.afterGet observed ≠ some (.ok .updated) := by
  unfold afterGet
  split
  · simp
  · split
    · simp
    · split <;> simp

namespace SyncCall

variable {c d : SyncCall} {store : Policies}

private theorem isCurrent_labels_error_iff {id source : String} {spec : SystemSpec} :
    (∃ e, (spec.wanted id).isCurrent source = .error e) ↔
      ∃ e, Labels.decode id source = .error e := by
  simp only [SystemSpec.wanted, map_error_iff]

private theorem isCurrent_selectors_error_iff {id source : String} {spec : StackSpec} :
    (∃ e, (spec.wanted id).isCurrent source = .error e) ↔
      ∃ e, Selectors.decode source = .error e := by
  simp only [StackSpec.wanted, map_error_iff]

private theorem wanted_file_of_resource (h : d.resource = c.resource) :
    d.wanted.file = c.wanted.file := by
  cases c <;> cases d <;> first | rfl | cases congrArg Prod.fst h

private theorem isCurrent_own (h : d.resource = c.resource) :
    (∃ e, c.wanted.isCurrent d.wanted.source = .error e) ↔ c.id ∈ reservedWords := by
  cases c with
  | labels a spec => cases d with
    | labels b spec' =>
      obtain rfl : b = a := congrArg Prod.snd h
      exact isCurrent_labels_error_iff.trans Labels.decode_render_error_iff
    | selectors b spec' => cases congrArg Prod.fst h
  | selectors a spec => cases d with
    | labels b spec' => cases congrArg Prod.fst h
    | selectors b spec' =>
      obtain rfl : b = a := congrArg Prod.snd h
      exact isCurrent_selectors_error_iff.trans Selectors.decode_render_error_iff

/-- Whether the path of a call holds what some call for the same resource writes. -/
def HoldsOwn (c : SyncCall) (store : Policies) : Prop :=
  ∃ d : SyncCall, d.resource = c.resource ∧
    store.get? (policyPath c.resource) = some d.wanted.modules

theorem HoldsOwn.of_resource (h : c.HoldsOwn store) (hcd : d.resource = c.resource) :
    d.HoldsOwn store := by
  obtain ⟨w, hw, hget⟩ := h
  exact ⟨w, hw.trans hcd.symm, hcd ▸ hget⟩

theorem holdsOwn_of_updated (h : (c.run store).1 = .ok .updated) : c.HoldsOwn (c.run store).2 := by
  cases hget : c.wanted.afterGet (.ok (store.get? (policyPath c.resource))) with
  | some answer =>
    rw [run_of_answer hget] at h
    subst h
    exact absurd hget (c.wanted.afterGet_ne_updated _)
  | none =>
    refine ⟨c, rfl, ?_⟩
    rw [run_of_write hget, SortedMap.get?_insert, if_pos rfl]

/-- No call takes away what another has written for itself: it leaves the path alone, or replaces
the module by one for the same resource. -/
theorem HoldsOwn.run (h : c.HoldsOwn store) (d : SyncCall) : c.HoldsOwn (d.run store).2 := by
  by_cases hcd : d.resource = c.resource
  · cases hget : d.wanted.afterGet (.ok (store.get? (policyPath d.resource))) with
    | some answer =>
      rw [run_of_answer hget]
      exact h
    | none =>
      refine ⟨d, hcd, ?_⟩
      rw [run_of_write hget, hcd, SortedMap.get?_insert, if_pos rfl]
  · obtain ⟨w, hw, hget⟩ := h
    have hpath : policyPath d.resource ≠ policyPath c.resource :=
      fun heq => hcd (policyPath_injective heq)
    exact ⟨w, hw, (get?_run_of_ne hpath).trans hget⟩

theorem HoldsOwn.runs (h : c.HoldsOwn store) (calls : List SyncCall) :
    c.HoldsOwn (calls.foldl (fun store d => (d.run store).2) store) := by
  induction calls generalizing store with
  | nil => exact h
  | cons d rest ih => exact ih (h.run d)

theorem HoldsOwn.run_error_iff (h : c.HoldsOwn store) :
    (∃ e, (c.run store).1 = .error e) ↔ c.id ∈ reservedWords := by
  obtain ⟨d, hd, hget⟩ := h
  rw [← isCurrent_own hd, ← WantedPolicy.afterGet_modules (wanted_file_of_resource hd), ← hget]
  cases hanswer : c.wanted.afterGet (.ok (store.get? (policyPath c.resource))) with
  | some answer => simp [run_of_answer hanswer]
  | none => simp [run_of_write hanswer]

end SyncCall

/-- What is written for an id can be read back exactly when the id is no reserved word; and so for
a call after one that wrote the policy of its resource, whatever was called between them. -/
theorem readBack_fails_iff_reserved (id : String) :
    (∀ labels, (∃ e, Labels.decode id (Labels.render id labels) = .error e) ↔
        id ∈ reservedWords) ∧
      (∀ s, (∃ e, Selectors.decode (Selectors.render id s) = .error e) ↔ id ∈ reservedWords) ∧
      ∀ (c d : SyncCall) (between : List SyncCall) (store : Policies), c.id = id →
        d.resource = c.resource → (c.run store).1 = .ok .updated →
        ((∃ e, (d.run (between.foldl (fun store b => (b.run store).2) (c.run store).2)).1 =
          .error e) ↔ id ∈ reservedWords) := by
  refine ⟨fun _ => Labels.decode_render_error_iff, fun _ => Selectors.decode_render_error_iff, ?_⟩
  intro c d between store hid hcd hupdated
  have hown := ((SyncCall.holdsOwn_of_updated hupdated).runs between).of_resource hcd
  have hdid : d.id = id := by
    rw [← SyncCall.resource_id, hcd, SyncCall.resource_id, hid]
  rw [hown.run_error_iff, hdid]

/-- A system and a stack that carry a reserved word as their name. -/
def defaultCalls : SyncCall × SyncCall :=
  (.labels "default" ⟨"custom", none, .ofList [("k", "v")]⟩,
    .selectors "default" ⟨"group", none, .empty⟩)

theorem readBack_fails_iff_reserved_default :
    (defaultCalls.1.run .empty).1 = .ok .updated ∧
      ((∃ e, (defaultCalls.1.run
          (defaultCalls.2.run (defaultCalls.1.run .empty).2).2).1 = .error e) ↔
        "default" ∈ reservedWords) :=
  ⟨rfl, (readBack_fails_iff_reserved "default").2.2 defaultCalls.1 defaultCalls.1 [defaultCalls.2]
    .empty rfl rfl rfl⟩

/-- Neither module of a resource with the name `default` can be read back, and each resource is
stuck after its first call. -/
theorem readBack_default :
    Labels.decode "default" (Labels.render "default" .empty) = .error (.malformed Labels.fragment) ∧
      Selectors.decode (Selectors.render "default" .empty) =
        .error (.malformed Selectors.fragment) ∧
      (defaultCalls.1.run .empty).1 = .ok .updated ∧
      (∃ e, (defaultCalls.1.run (defaultCalls.1.run .empty).2).1 = .error e) ∧
      (defaultCalls.2.run .empty).1 = .ok .updated ∧
      ∃ e, (defaultCalls.2.run (defaultCalls.2.run .empty).2).1 = .error e := by
  refine ⟨?_, ?_, rfl, ?_, rfl, ?_⟩
  · rw [Labels.decode_render]
    rfl
  · rw [Selectors.decode_render]
    rfl
  · exact (SyncCall.holdsOwn_of_updated rfl).run_error_iff.mpr (by decide)
  · exact (SyncCall.holdsOwn_of_updated rfl).run_error_iff.mpr (by decide)

end PolicySync
