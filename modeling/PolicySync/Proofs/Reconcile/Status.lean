import PolicySync.Proofs.Reconcile.Report

/-!
# What a status says is so

From the answer of its sync until its next reconciliation, the policy of a resource decodes to what
the resource asks for. No turn of another resource can change that, so it holds when the status is
sent.
-/

namespace PolicySync

open PolicySync.Policy PolicySync.Text

/-- Whether what is read at the path says what is wanted. -/
def WantedPolicy.IsHeld (w : WantedPolicy) (now : Option PolicyModules) : Prop :=
  ∃ modules source, now = some modules ∧ modules.get? w.file = some source ∧
    w.isCurrent source = .ok true

section

variable {α β : Type} {decode : String → Except PolicyError α} {view : α → β} {desired : β}
  {w : WantedPolicy}

theorem WantedPolicy.IsFor.isCurrent_source (hw : w.IsFor decode view desired) :
    w.isCurrent w.source = .ok true := by
  obtain ⟨a, hdecode, hview⟩ := hw.source
  obtain ⟨same, hcurrent, hsame⟩ := hw.current hdecode
  rw [hcurrent, hsame.mpr hview]

theorem WantedPolicy.isHeld_modules (h : w.isCurrent w.source = .ok true) :
    w.IsHeld (some w.modules) :=
  ⟨w.modules, w.source, rfl, SortedMap.get?_singleton _ _, h⟩

theorem WantedPolicy.isHeld_of_afterGet {observed : Except StoreError (Option PolicyModules)}
    {outcome : SyncOutcome} (h : w.afterGet observed = some (.ok outcome)) :
    ∃ now, observed = .ok now ∧ w.IsHeld now := by
  unfold afterGet at h
  split at h
  · cases h
  · next now =>
    split at h
    · cases h
    · next source hsource =>
      obtain ⟨modules, hmodules, hfile⟩ := Option.bind_eq_some_iff.mp hsource
      split at h
      · cases h
      · next hcurrent => exact ⟨now, rfl, modules, source, hmodules, hfile, hcurrent⟩
      · cases h

end

namespace ManagedResource

/-- Whether the policy of a resource decodes to what the resource asks for. -/
def IsMet : ManagedResource → Policies → Prop
  | .system r, policies => ∃ modules source stored,
      policies.get? (labelsPath r.externalName) = some modules ∧
        modules.get? Labels.fragment = some source ∧
        Labels.decode r.externalName source = .ok stored ∧
        stored.same r.spec.desiredLabels = true
  | .stack r, policies => ∃ modules source stored,
      policies.get? (selectorsPath r.externalName) = some modules ∧
        modules.get? Selectors.fragment = some source ∧ Selectors.decode source = .ok stored ∧
        stored.same r.spec.selectors = true

private theorem map_eq_ok {α β ε : Type} {f : α → β} {x : Except ε α} {b : β} :
    x.map f = .ok b ↔ ∃ a, x = .ok a ∧ f a = b := by
  cases x <;> simp [Except.map]

theorem isMet_iff {r : ManagedResource} {policies : Policies} :
    r.IsMet policies ↔ r.wanted.IsHeld (policies.get? (policyPath r.subject)) := by
  cases r with
  | system r =>
    simp only [IsMet, WantedPolicy.IsHeld, wanted, SystemSpec.wanted, map_eq_ok,
      exists_and_left]
    rfl
  | stack r =>
    simp only [IsMet, WantedPolicy.IsHeld, wanted, StackSpec.wanted, map_eq_ok,
      exists_and_left]
    rfl

/-- What is written for a resource says what the resource asks for. -/
theorem isCurrent_source {r : ManagedResource} (hname : isObjectName r.id = true)
    (hword : r.id ∉ reservedWords) : r.wanted.isCurrent r.wanted.source = .ok true := by
  have hres : reservedWords.contains r.id = false := by simpa using hword
  cases r with
  | system r => exact (isFor_labels hres (plain_of_isObjectName hname) r.spec).isCurrent_source
  | stack r => exact (isFor_selectors hres r.spec).isCurrent_source

end ManagedResource

section

variable {σ : Type} {store : PolicyStore σ} {view : σ → Policies} {w : WantedPolicy}

/-- A sync that answers with success leaves what is wanted in the store. -/
theorem WantedPolicy.next_held (hstore : store.KeepsPolicies view)
    (hsource : w.isCurrent w.source = .ok true) {p : Progress} {s : σ} {outcome : SyncOutcome}
    (hp : p = .answered (.ok outcome) → w.IsHeld ((view s).get? w.path))
    (h : (w.next store p s).1 = .answered (.ok outcome)) :
    w.IsHeld ((view (w.next store p s).2).get? w.path) := by
  cases p with
  | waiting =>
    simp only [next] at h ⊢
    cases hafter : w.afterGet (store.get w.path s).1 with
    | none =>
      rw [hafter] at h
      cases h
    | some a =>
      rw [hafter] at h
      obtain rfl := Progress.answered.inj h
      obtain ⟨now, hget, hheld⟩ := isHeld_of_afterGet hafter
      change w.IsHeld ((view (store.get w.path s).2).get? w.path)
      rw [hstore.get_view, ← hstore.get_ok hget]
      exact hheld
  | writing =>
    simp only [next] at h ⊢
    cases hput : (store.put w.path w.modules s).1 with
    | error e =>
      rw [hput] at h
      cases h
    | ok u =>
      rw [hstore.put_ok hput, SortedMap.get?_insert, if_pos rfl]
      exact isHeld_modules hsource
  | answered a => exact hp h

end

namespace ManagedResource

variable {σ : Type} {store : PolicyStore σ} {view : σ → Policies} {cluster : Cluster}
  {r : ManagedResource}

theorem isMet_congr {policies policies' : Policies}
    (h : policies.get? (policyPath r.subject) = policies'.get? (policyPath r.subject)) :
    r.IsMet policies ↔ r.IsMet policies' := by
  rw [isMet_iff, isMet_iff, h]

theorem move_held (hstore : store.KeepsPolicies view)
    (hsource : r.wanted.isCurrent r.wanted.source = .ok true) {m : Move} {stage : Stage} {s : σ}
    {outcome : SyncOutcome}
    (hstage : stage = .syncing (.answered (.ok outcome)) → r.IsMet (view s))
    (h : (r.move store cluster m stage s).1 = .syncing (.answered (.ok outcome))) :
    r.IsMet (view (r.move store cluster m stage s).2.1) := by
  have hmove := r.movesTo_move store cluster m stage s
  generalize r.move store cluster m stage s = after at h hmove ⊢
  cases hmove with
  | idle => exact hstage h
  | wake | finish => cases h
  | call p =>
    have hp : p = .answered (.ok outcome) → r.wanted.IsHeld ((view s).get? r.wanted.path) := by
      intro hanswered
      rw [wanted_path, ← isMet_iff]
      exact hstage (congrArg Stage.syncing hanswered)
    rw [isMet_iff, ← wanted_path]
    exact WantedPolicy.next_held hstore hsource hp (Stage.syncing.inj h)

end ManagedResource

namespace Operator

variable {ι σ : Type} {o : Operator ι σ} {view : σ → Policies} {s : State ι σ}

/-- Whether all that has been answered is so, and was so whenever a reconciliation ended. -/
structure IsTruthful (o : Operator ι σ) (view : σ → Policies) (s : State ι σ) : Prop where
  answered : ∀ {i outcome}, s.stage i = .syncing (.answered (.ok outcome)) →
    (o.resources i).IsMet (view s.store)
  ended : ∀ e ∈ s.ended, ∀ outcome, e.answer = .ok outcome →
    (o.resources e.who).IsMet (view e.store)

theorem isTruthful_start (store : σ) : o.IsTruthful view (.start store) where
  answered h := nomatch h
  ended _ he := nomatch he

variable [DecidableEq ι]

theorem IsTruthful.turn (h : o.IsTruthful view s) (hstore : o.store.KeepsPolicies view)
    (hdistinct : Function.Injective fun i => (o.resources i).subject)
    (hsource : ∀ i, (o.resources i).wanted.isCurrent (o.resources i).wanted.source = .ok true)
    (t : Turn ι) : o.IsTruthful view (o.turn s t) where
  answered {i outcome} hi := by
    by_cases hwho : i = t.who
    · subst hwho
      rw [stage_turn_self] at hi
      exact ManagedResource.move_held hstore (hsource t.who) h.answered hi
    · rw [stage_turn_ne hwho] at hi
      have hpath : o.path t.who ≠ o.path i := (path_injective hdistinct).ne (Ne.symm hwho)
      exact (ManagedResource.isMet_congr
        (ManagedResource.move_frame hstore.leavesOthers hpath t.move (s.stage t.who) s.store)).mpr
        (h.answered hi)
  ended e he outcome hok := by
    rcases mem_ended_turn he with hbefore | ⟨hstage, hsame, -⟩
    · exact h.ended e hbefore outcome hok
    · rw [hok] at hstage
      rw [hsame]
      exact h.answered hstage

/-- A status that is sent is so: it names the policy of its resource, says that the policy is up to
date, and at that moment the policy decodes to what the resource asks for. After a sync that failed
none is sent. -/
theorem status_is_so (hstore : o.store.KeepsPolicies view)
    (hdistinct : Function.Injective fun i => (o.resources i).subject)
    (hnames : ∀ i, isObjectName (o.resources i).id = true ∧ (o.resources i).id ∉ reservedWords)
    (turns : List (Turn ι)) (store : σ) :
    ∀ e ∈ (o.run turns (.start store)).ended,
      (∀ status ∈ e.report.patches,
        status.upToDate = true ∧ status.policyPath = o.path e.who ∧
          (o.resources e.who).IsMet (view e.store)) ∧
      ∀ error, e.answer = .error error → e.report.patches = [] := by
  have htruthful : o.IsTruthful view (o.run turns (.start store)) :=
    run_induction
      (fun s t h => h.turn hstore hdistinct
        (fun i => ManagedResource.isCurrent_source (hnames i).1 (hnames i).2) t)
      turns (isTruthful_start store)
  intro e he
  obtain ⟨time, hreport⟩ := report_of_mem_ended he
  rw [hreport]
  refine ⟨fun status hstatus => ?_, fun error hanswer => ?_⟩
  · obtain ⟨outcome, hok, rfl⟩ := ManagedResource.mem_patches hstatus
    exact ⟨rfl, (o.resources e.who).wanted_path, htruthful.ended e he outcome hok⟩
  · rw [hanswer]
    rfl

/-- The policy of the stack cannot be written. -/
def stackRefusals : Refusals :=
  ⟨fun _ => none, fun path => if path = selectorsPath "web" then some .request else none⟩

def webOperator : Operator ResourceKind Policies where
  resources := webResources
  store := refusingStore stackRefusals
  cluster := { refusesPatch := fun _ _ => true, refusesEvent := fun _ _ => true }

theorem status_is_so_web :
    webOperator.store.KeepsPolicies id ∧
      (Function.Injective fun k => (webOperator.resources k).subject) ∧
      (∀ k, isObjectName (webOperator.resources k).id = true ∧
        (webOperator.resources k).id ∉ reservedWords) ∧
      ((webOperator.run (inOrder [.stack, .system] "now") (.start .empty)).ended.map fun e =>
        (e.who, e.report.patches.length)) = [(.stack, 0), (.system, 1)] ∧
      ∀ e ∈ (webOperator.run (inOrder [.stack, .system] "now") (.start .empty)).ended,
        (∀ status ∈ e.report.patches,
          status.upToDate = true ∧ status.policyPath = webOperator.path e.who ∧
            (webOperator.resources e.who).IsMet e.store) ∧
        ∀ error, e.answer = .error error → e.report.patches = [] := by
  have hstore : webOperator.store.KeepsPolicies id :=
    keepsPolicies_refusingStore stackRefusals
  have hnames : ∀ k, isObjectName (webOperator.resources k).id = true ∧
      (webOperator.resources k).id ∉ reservedWords := by
    intro k
    cases k <;> decide
  exact ⟨hstore, webResources_distinct, hnames, rfl,
    status_is_so hstore webResources_distinct hnames (inOrder [.stack, .system] "now") .empty⟩

end Operator

end PolicySync
