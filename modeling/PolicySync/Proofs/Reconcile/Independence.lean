import Mathlib.Data.Fintype.Basic
import PolicySync.Proofs.Reconcile.Run

/-!
# Resources do not influence each other

A resource sees and changes one cell of a store whose operations are local. Whatever else takes
turns, it fares as it would alone with its own turns.
-/

namespace PolicySync

section

variable {σ γ : Type} {store : PolicyStore σ} {cell : String → σ → γ} {s t : σ}

theorem WantedPolicy.next_congr (hstore : store.IsLocal cell) {w : WantedPolicy}
    (h : cell w.path s = cell w.path t) (p : Progress) :
    (w.next store p s).1 = (w.next store p t).1 ∧
      cell w.path (w.next store p s).2 = cell w.path (w.next store p t).2 := by
  cases p with
  | waiting =>
    obtain ⟨hanswer, hcell⟩ := hstore.get_congr h
    simp only [next]
    rw [hanswer]
    cases w.afterGet (store.get w.path t).1 <;> exact ⟨rfl, hcell⟩
  | writing =>
    obtain ⟨hanswer, hcell⟩ := hstore.put_congr h w.modules
    simp only [next, hanswer]
    exact ⟨trivial, hcell⟩
  | answered a => exact ⟨rfl, h⟩

/-- What a turn comes to depends on the cell of the resource. -/
theorem ManagedResource.move_congr {r : ManagedResource} (hstore : store.IsLocal cell)
    (cluster : Cluster) (h : cell (policyPath r.subject) s = cell (policyPath r.subject) t)
    (m : Move) (stage : Stage) :
    let after := r.move store cluster m stage s
    let after' := r.move store cluster m stage t
    after.1 = after'.1 ∧
      cell (policyPath r.subject) after.2.1 = cell (policyPath r.subject) after'.2.1 ∧
      after.2.2 = after'.2.2 := by
  rw [← wanted_path] at h ⊢
  cases m with
  | requeue => cases stage <;> exact ⟨rfl, h, rfl⟩
  | step time => cases stage with
    | resting => exact ⟨rfl, h, rfl⟩
    | syncing p => cases p with
      | waiting =>
        obtain ⟨hprogress, hcell⟩ := WantedPolicy.next_congr hstore h .waiting
        exact ⟨congrArg Stage.syncing hprogress, hcell, rfl⟩
      | writing =>
        obtain ⟨hprogress, hcell⟩ := WantedPolicy.next_congr hstore h .writing
        exact ⟨congrArg Stage.syncing hprogress, hcell, rfl⟩
      | answered a => exact ⟨rfl, h, rfl⟩

end

namespace Operator

variable {ι σ γ : Type}

/-- An operator with one of the resources. -/
def only (o : Operator ι σ) (i : ι) : Operator Unit σ :=
  ⟨fun _ => o.resources i, o.store, o.cluster⟩

variable [DecidableEq ι]

def turnsOf (i : ι) (turns : List (Turn ι)) : List (Turn Unit) :=
  (turns.filter (·.who = i)).map fun t => ⟨(), t.move⟩

/-- Whether a resource fares as the only resource of another operator does. -/
structure Alike (o : Operator ι σ) (cell : String → σ → γ) (i : ι) (s : State ι σ)
    (alone : State Unit σ) : Prop where
  stage : s.stage i = alone.stage ()
  cell : cell (o.path i) s.store = cell (o.path i) alone.store
  verdicts : s.verdicts i = alone.verdicts ()

variable {o : Operator ι σ} {cell : String → σ → γ} {i : ι} {s : State ι σ}
  {alone : State Unit σ}

theorem alike_start (store : σ) : o.Alike cell i (.start store) (.start store) :=
  ⟨rfl, rfl, rfl⟩

theorem Alike.turn_self (h : o.Alike cell i s alone) (hstore : o.store.IsLocal cell) (m : Move) :
    o.Alike cell i (o.turn s ⟨i, m⟩) ((o.only i).turn alone ⟨(), m⟩) := by
  obtain ⟨hstage, hcell, hverdict⟩ :=
    ManagedResource.move_congr hstore o.cluster h.cell m (s.stage i)
  rw [h.stage] at hstage hcell hverdict
  refine ⟨?_, ?_, ?_⟩
  · rw [stage_turn_self, stage_turn_self, h.stage]
    exact hstage
  · rw [store_turn, store_turn, h.stage]
    exact hcell
  · rw [verdicts_turn, verdicts_turn, if_pos rfl, if_pos rfl, h.stage, h.verdicts, hverdict]
    rfl

theorem Alike.turn_ne (h : o.Alike cell i s alone) (hstore : o.store.LeavesOthers cell)
    (hdistinct : Function.Injective fun i => (o.resources i).subject) {t : Turn ι}
    (hne : t.who ≠ i) : o.Alike cell i (o.turn s t) alone where
  stage := (stage_turn_ne hne.symm).trans h.stage
  cell := (ManagedResource.move_frame hstore ((path_injective hdistinct).ne hne) ..).trans h.cell
  verdicts := by
    rw [verdicts_turn, if_neg hne, List.append_nil]
    exact h.verdicts

theorem Alike.run (h : o.Alike cell i s alone) (hstore : o.store.IsLocal cell)
    (hdistinct : Function.Injective fun i => (o.resources i).subject) (turns : List (Turn ι)) :
    o.Alike cell i (o.run turns s) ((o.only i).run (turnsOf i turns) alone) := by
  induction turns generalizing s alone with
  | nil => exact h
  | cons t rest ih =>
    by_cases hwho : t.who = i
    · obtain ⟨j, m⟩ := t
      obtain rfl : j = i := hwho
      have hturns : turnsOf j (⟨j, m⟩ :: rest) = ⟨(), m⟩ :: turnsOf j rest := by
        simp [turnsOf]
      rw [hturns]
      exact ih (h.turn_self hstore m)
    · have hturns : turnsOf i (t :: rest) = turnsOf i rest := by
        simp [turnsOf, hwho]
      rw [hturns]
      exact ih (h.turn_ne hstore.toLeavesOthers hdistinct hwho)

theorem run_frame (hstore : o.store.LeavesOthers cell) {path : String}
    (hpath : ∀ i, o.path i ≠ path) (turns : List (Turn ι)) (s : State ι σ) :
    cell path (o.run turns s).store = cell path s.store := by
  let Inv : State ι σ → Prop := fun t => cell path t.store = cell path s.store
  have hturn : ∀ t next, Inv t → Inv (o.turn t next) := fun t next h =>
    (ManagedResource.move_frame hstore (hpath next.who) ..).trans h
  exact run_induction hturn turns rfl

/-- Only the turns of each resource matter, not how they are mixed. -/
theorem run_congr (hstore : o.store.IsLocal cell)
    (hdistinct : Function.Injective fun i => (o.resources i).subject) {turns turns' : List (Turn ι)}
    (hturns : ∀ i, turnsOf i turns' = turnsOf i turns) (store : σ) :
    let s := o.run turns (.start store)
    let s' := o.run turns' (.start store)
    (∀ i, s'.verdicts i = s.verdicts i) ∧ ∀ path, cell path s'.store = cell path s.store := by
  intro s s'
  have halike : ∀ i, o.Alike cell i s ((o.only i).run (turnsOf i turns) (.start store)) := fun i =>
    (alike_start store).run hstore hdistinct turns
  have halike' : ∀ i, o.Alike cell i s' ((o.only i).run (turnsOf i turns) (.start store)) :=
    fun i => hturns i ▸ (alike_start store).run hstore hdistinct turns'
  refine ⟨fun i => (halike' i).verdicts.trans (halike i).verdicts.symm, fun path => ?_⟩
  by_cases hpath : ∃ i, o.path i = path
  · obtain ⟨i, rfl⟩ := hpath
    exact (halike' i).cell.trans (halike i).cell.symm
  · have hnobody : ∀ i, o.path i ≠ path := fun i h => hpath ⟨i, h⟩
    exact (run_frame hstore.toLeavesOthers hnobody turns' _).trans
      (run_frame hstore.toLeavesOthers hnobody turns _).symm

theorem State.counters_eq [Fintype ι] (s : State ι σ) : s.counters =
    ⟨∑ i, (s.verdicts i).countP (·.report.countsAsWrite),
      ∑ i, (s.verdicts i).countP (·.report.countsAsFailure)⟩ := by
  rw [← s.countP_ended fun _ v => v.report.countsAsWrite,
    ← s.countP_ended fun _ v => v.report.countsAsFailure, State.counters, Counters.ofReports,
    List.countP_map, List.countP_map]
  rfl

/-- Behind refusals that never end, every resource fares as it would alone with its own turns: what
it reports, its calls on the store and its policy are the same. The policies of nobody stay as they
are, and the counters are sums. So all that matters is which turns each resource takes, and not in
what order the resources take them. -/
theorem resources_independent [Fintype ι] {resources : ι → ManagedResource}
    (hdistinct : Function.Injective fun i => (resources i).subject) (refusals : Refusals)
    (cluster : Cluster) (turns : List (Turn ι)) (policies : Policies) :
    let o := (⟨resources, refusingStore refusals, cluster⟩ : Operator ι Policies).recorded
    let s := o.run turns (.start (policies, []))
    let alone := fun i => (o.only i).run (turnsOf i turns) (.start (policies, []))
    (∀ i, s.verdicts i = (alone i).verdicts () ∧
        callsAt (o.path i) s.store.2 = callsAt (o.path i) (alone i).store.2 ∧
        s.store.1.get? (o.path i) = (alone i).store.1.get? (o.path i)) ∧
      (∀ path, (∀ i, o.path i ≠ path) →
        s.store.1.get? path = policies.get? path ∧ callsAt path s.store.2 = []) ∧
      s.counters.policyWrites = ∑ i, (alone i).counters.policyWrites ∧
      s.counters.reconcileFailures = ∑ i, (alone i).counters.reconcileFailures ∧
      ∀ turns', (∀ i, turnsOf i turns' = turnsOf i turns) →
        let s' := o.run turns' (.start (policies, []))
        (∀ i, s'.verdicts i = s.verdicts i) ∧
          (∀ path, callsAt path s'.store.2 = callsAt path s.store.2) ∧
          s'.store.1 = s.store.1 ∧ s'.counters = s.counters := by
  intro o s alone
  have hlocal := (isLocal_refusingStore refusals).recording
  have halike : ∀ i, o.Alike _ i s (alone i) := fun i =>
    (alike_start (policies, [])).run hlocal hdistinct turns
  refine ⟨fun i => ?_, fun path hpath => ?_, ?_, ?_, fun turns' hturns => ?_⟩
  · obtain ⟨hpolicy, hcalls⟩ := Prod.mk.inj (halike i).cell
    exact ⟨(halike i).verdicts, hcalls, hpolicy⟩
  · exact Prod.mk.inj (run_frame hlocal.toLeavesOthers hpath turns (.start (policies, [])))
  · rw [s.counters_eq]
    refine Finset.sum_congr rfl fun i _ => ?_
    rw [(halike i).verdicts, (alone i).counters_eq]
    rfl
  · rw [s.counters_eq]
    refine Finset.sum_congr rfl fun i _ => ?_
    rw [(halike i).verdicts, (alone i).counters_eq]
    rfl
  · intro s'
    obtain ⟨hsame, hcells⟩ := run_congr (o := o) hlocal hdistinct hturns (policies, [])
    have hverdicts : ∀ i, s'.verdicts i = s.verdicts i := hsame
    have hcounters : s'.counters = s.counters := by
      rw [s'.counters_eq, s.counters_eq]
      simp only [hverdicts]
    exact ⟨hverdicts, fun path => (Prod.mk.inj (hcells path)).2,
      SortedMap.ext_get? fun path => (Prod.mk.inj (hcells path)).1, hcounters⟩

/-- The read of one policy is refused, and the other policy cannot be read. -/
def webRefusals : Refusals :=
  ⟨fun path => if path = labelsPath "web" then some .request else none, fun _ => none⟩

def unreadablePolicy : Policies :=
  .singleton (selectorsPath "web") (.singleton Selectors.fragment "package")

def webOrder : List (Turn ResourceKind) := inOrder [.system, .stack] "now"

def webOrderReversed : List (Turn ResourceKind) := inOrder [.stack, .system] "now"

theorem resources_independent_web :
    (Function.Injective fun k => (webResources k).subject) ∧
      let o : Operator ResourceKind (Policies × List StoreCall) :=
        (⟨webResources, refusingStore webRefusals, { refusesPatch := fun _ _ => false }⟩ :
          Operator ResourceKind Policies).recorded
      let s := o.run webOrder (.start (unreadablePolicy, []))
      let s' := o.run webOrderReversed (.start (unreadablePolicy, []))
      (∀ k, s'.verdicts k = s.verdicts k) ∧
        (∀ path, callsAt path s'.store.2 = callsAt path s.store.2) ∧
        s'.store.1 = s.store.1 ∧ s'.counters = s.counters := by
  have hturns : ∀ k, turnsOf k webOrderReversed = turnsOf k webOrder := by
    intro k
    cases k <;> rfl
  refine ⟨webResources_distinct, ?_⟩
  exact (resources_independent webResources_distinct webRefusals _ webOrder
    unreadablePolicy).2.2.2.2 webOrderReversed hturns

end Operator

end PolicySync
