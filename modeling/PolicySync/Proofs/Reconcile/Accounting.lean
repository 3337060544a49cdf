import PolicySync.Proofs.Reconcile.Report
import PolicySync.Proofs.Sync.ReadBack

/-!
# What the counters count

Every write that the store accepted belongs to a reconciliation: one that is still to end, or one
that has ended. The latter is counted when its status was taken, and lost when it was not.
-/

namespace PolicySync

theorem saysWritten_afterPut (answer : Except StoreError Unit) :
    saysWritten (WantedPolicy.afterPut answer) = answer.isOk := by
  cases answer <;> rfl

theorem saysWritten_afterGet {w : WantedPolicy} {a : Except SyncError SyncOutcome}
    {observed : Except StoreError (Option PolicyModules)} (h : w.afterGet observed = some a) :
    saysWritten a = false := by
  match a with
  | .error e => rfl
  | .ok .upToDate => rfl
  | .ok .updated => exact absurd h (w.afterGet_ne_updated observed)

def Stage.holdsWrite : Stage → Bool
  | .syncing (.answered a) => saysWritten a
  | _ => false

def writesAt (p : String → Bool) (calls : List StoreCall) : Nat :=
  calls.countP fun c => c.isWrite && p c.path

section

variable {σ : Type} (p : String → Bool)

private theorem countP_one {α : Type} (q : α → Bool) (a : α) : [a].countP q = (q a).toNat := by
  cases h : q a <;> simp [h]

theorem writesAt_append (calls : List StoreCall) (c : StoreCall) :
    writesAt p (calls ++ [c]) = writesAt p calls + (c.isWrite && p c.path).toNat := by
  rw [writesAt, List.countP_append, countP_one]
  rfl

theorem writesAt_pos_iff {path : String} {calls : List StoreCall} :
    0 < writesAt (fun other => other = path) calls ↔ ⟨.put, path, true⟩ ∈ calls := by
  have hone : ∀ c : StoreCall, (c.isWrite && decide (c.path = path)) = true ↔
      c = ⟨.put, path, true⟩ := by
    intro c
    obtain ⟨method, other, accepted⟩ := c
    rw [StoreCall.isWrite, StoreCall.mk.injEq]
    simp [and_assoc, @and_comm (accepted = true)]
  simp only [writesAt, List.countP_pos_iff, hone, exists_eq_right]

theorem WantedPolicy.next_writes (w : WantedPolicy) (store : PolicyStore σ) (q : Progress)
    (s : σ × List StoreCall) :
    let after := w.next (recording store) q s
    writesAt p after.2.2 + ((Stage.syncing q).holdsWrite && p w.path).toNat =
      writesAt p s.2 + ((Stage.syncing after.1).holdsWrite && p w.path).toNat := by
  cases q with
  | answered a => rfl
  | waiting =>
    simp only [next, recording_get]
    cases hafter : w.afterGet (store.get w.path s.1).1 with
    | none => simp [writesAt_append, StoreCall.isWrite, StoreCall.ofGet, Stage.holdsWrite]
    | some a =>
      simp [writesAt_append, StoreCall.isWrite, StoreCall.ofGet, Stage.holdsWrite,
        saysWritten_afterGet hafter]
  | writing =>
    simp [next, recording_put, writesAt_append, StoreCall.isWrite, StoreCall.ofPut,
      Stage.holdsWrite, saysWritten_afterPut]

/-- A move turns a write that is held into one with a verdict, and holds what it writes. -/
theorem ManagedResource.move_writes (r : ManagedResource) (store : PolicyStore σ)
    (cluster : Cluster) (m : Move) (stage : Stage) (s : σ × List StoreCall) :
    let after := r.move (recording store) cluster m stage s
    writesAt p after.2.1.2 + (stage.holdsWrite && p r.wanted.path).toNat =
      writesAt p s.2 + (after.1.holdsWrite && p r.wanted.path).toNat +
        after.2.2.toList.countP fun v => v.wrote && p r.wanted.path := by
  have hmove := r.movesTo_move (recording store) cluster m stage s
  generalize r.move (recording store) cluster m stage s = after at hmove ⊢
  cases hmove with
  | idle | wake => rfl
  | call q => exact WantedPolicy.next_writes p r.wanted store q s
  | finish a time =>
    change _ = _ + (Stage.resting.holdsWrite && _).toNat + [_].countP _
    rw [countP_one]
    rfl

end

namespace Operator

variable {ι σ : Type} {o : Operator ι σ}

/-- Whether a verdict on a resource came with a status that was taken. -/
def statusTaken (o : Operator ι σ) (i : ι) (v : Verdict) : Bool :=
  (o.resources i).statusTaken o.cluster v.report.patches

variable [DecidableEq ι]

section

variable [Fintype ι] {s : State ι σ} {t : Turn ι}

theorem sum_stage_turn (f : ι → Stage → Nat) :
    ∑ i, f i ((o.turn s t).stage i) + f t.who (s.stage t.who) =
      ∑ i, f i (s.stage i) + f t.who ((o.turn s t).stage t.who) := by
  have hrest : ∑ i ∈ Finset.univ.erase t.who, f i ((o.turn s t).stage i) =
      ∑ i ∈ Finset.univ.erase t.who, f i (s.stage i) :=
    Finset.sum_congr rfl fun i hi => by rw [stage_turn_ne (Finset.ne_of_mem_erase hi)]
  rw [← Finset.add_sum_erase _ _ (Finset.mem_univ t.who),
    ← Finset.add_sum_erase _ (fun i => f i (s.stage i)) (Finset.mem_univ t.who), hrest]
  omega

/-- Whether the writes at some paths are those of the reconciliations that have ended or are still
to report theirs. -/
def AccountsForWrites (o : Operator ι σ) (p : String → Bool) (s : State ι (σ × List StoreCall)) :
    Prop :=
  writesAt p s.store.2 =
    (s.ended.countP fun e => e.wrote && p (o.resources e.who).wanted.path) +
      ∑ i, ((s.stage i).holdsWrite && p (o.resources i).wanted.path).toNat

theorem AccountsForWrites.turn {p : String → Bool} {s : State ι (σ × List StoreCall)}
    (h : o.AccountsForWrites p s) (t : Turn ι) : o.AccountsForWrites p (o.recorded.turn s t) := by
  -- The log grows by what the turn writes, and the other two terms move with it.
  have hmove := (o.resources t.who).move_writes p o.store o.cluster t.move (s.stage t.who) s.store
  have hended := countP_ended_turn (o := o.recorded) (s := s) (t := t) fun i v =>
    v.wrote && p (o.resources i).wanted.path
  have hsum := sum_stage_turn (o := o.recorded) (s := s) (t := t) fun i stage =>
    (stage.holdsWrite && p (o.resources i).wanted.path).toNat
  rw [AccountsForWrites] at h ⊢
  rw [stage_turn_self] at hsum
  rw [store_turn]
  simp only [recorded_resources, recorded_store, recorded_cluster] at hmove hended hsum h ⊢
  omega

theorem accountsForWrites_run (p : String → Bool) (turns : List (Turn ι)) (store : σ) :
    o.AccountsForWrites p (o.recorded.run turns (.start (store, []))) := by
  refine run_induction (fun s t h => h.turn t) turns ?_
  simp [AccountsForWrites, State.start, writesAt, Stage.holdsWrite]

end

theorem accounts_of_mem_ended {e : Ending ι σ} {turns : List (Turn ι)} {store : σ}
    (h : e ∈ (o.run turns (.start store)).ended) :
    (o.resources e.who).Accounts o.cluster e.toVerdict := by
  obtain ⟨time, hreport⟩ := report_of_mem_ended h
  have hverdict : e.toVerdict =
      ⟨e.answer, (o.resources e.who).reportAfter o.cluster time e.answer⟩ := by
    rw [← hreport]
  rw [hverdict]
  exact ManagedResource.accounts_reportAfter ..

theorem policyWrites_run (turns : List (Turn ι)) (store : σ) :
    (o.run turns (.start store)).counters.policyWrites =
      (o.run turns (.start store)).ended.countP fun e =>
        e.wrote && o.statusTaken e.who e.toVerdict := by
  change List.countP _ (List.map _ _) = _
  rw [List.countP_map]
  refine List.countP_congr fun e he => ?_
  rw [Function.comp_apply, (accounts_of_mem_ended he).countsAsWrite]
  rfl

theorem reconcileFailures_run (turns : List (Turn ι)) (store : σ) :
    (o.run turns (.start store)).counters.reconcileFailures =
      (o.run turns (.start store)).ended.countP fun e => !o.statusTaken e.who e.toVerdict := by
  change List.countP _ (List.map _ _) = _
  rw [List.countP_map]
  refine List.countP_congr fun e he => ?_
  rw [Function.comp_apply, (accounts_of_mem_ended he).countsAsFailure]
  rfl

theorem run_refusesEvent (refuses : ResourceReference → Event → Bool) (turns : List (Turn ι))
    (s : State ι σ) :
    run { o with cluster := { o.cluster with refusesEvent := refuses } } turns s =
      o.run turns s := by
  have hturn : turn { o with cluster := { o.cluster with refusesEvent := refuses } } = o.turn := by
    funext s t
    simp only [turn, ManagedResource.move_refusesEvent]
  rw [run, run, hturn]

section

variable [Fintype ι]

/-- The writes that the store accepted are those that were counted, those whose status was not
taken, and those that are still to be reported. When no reconciliation is under way, all have been
counted exactly when the status of each was taken. -/
theorem policyWrites_add_lost (turns : List (Turn ι)) (store : σ) :
    let s := o.recorded.run turns (.start (store, []))
    (s.counters.policyWrites +
          (s.ended.countP fun e => e.wrote && !o.statusTaken e.who e.toVerdict) +
          ∑ i, (s.stage i).holdsWrite.toNat =
        s.store.2.countP (·.isWrite)) ∧
      ((∀ i, s.stage i = .resting) →
        (s.counters.policyWrites = s.store.2.countP (·.isWrite) ↔
          ∀ e ∈ s.ended, e.wrote = true → o.statusTaken e.who e.toVerdict = true)) := by
  intro s
  let taken : Ending ι (σ × List StoreCall) → Bool := fun e => o.statusTaken e.who e.toVerdict
  have hall : s.store.2.countP (·.isWrite) =
      s.ended.countP (·.wrote) + ∑ i, (s.stage i).holdsWrite.toNat := by
    have hrun := o.accountsForWrites_run (fun _ => true) turns store
    simpa only [AccountsForWrites, writesAt, Bool.and_true] using hrun
  have hcounted : s.counters.policyWrites = s.ended.countP fun e => e.wrote && taken e :=
    policyWrites_run turns (store, [])
  have hsplit : s.ended.countP (·.wrote) = (s.ended.countP fun e => e.wrote && taken e) +
      s.ended.countP fun e => e.wrote && !taken e := by
    rw [List.countP_eq_countP_filter_add _ _ taken, List.countP_filter, List.countP_filter]
  refine ⟨?_, fun hresting => ?_⟩
  · rw [hall, hsplit, hcounted]
  · have hnone : ∑ i, (s.stage i).holdsWrite.toNat = 0 :=
      Finset.sum_eq_zero fun i _ => by rw [hresting i]; rfl
    have hlost : s.counters.policyWrites = s.store.2.countP (·.isWrite) ↔
        (s.ended.countP fun e => e.wrote && !taken e) = 0 := by
      omega
    rw [hlost, List.countP_eq_zero]
    simp [taken]

/-- A system and a stack in memory, and what becomes of a status. -/
def inMemory (refusesPatch : ResourceKind → String → Bool) : Operator ResourceKind Policies :=
  ⟨webResources, memoryStore, { refusesPatch }⟩

theorem policyWrites_add_lost_web :
    let s := (inMemory fun _ _ => false).recorded.run (inOrder [.system, .stack] "now")
      (.start (.empty, []))
    (∀ k, s.stage k = .resting) ∧
      (s.counters.policyWrites = s.store.2.countP (·.isWrite) ↔
        ∀ e ∈ s.ended, e.wrote = true →
          (inMemory fun _ _ => false).statusTaken e.who e.toVerdict = true) := by
  intro s
  have hresting : ∀ k, s.stage k = .resting := by
    intro k
    cases k <;> rfl
  exact ⟨hresting, (policyWrites_add_lost (o := inMemory fun _ _ => false)
    (inOrder [.system, .stack] "now") .empty).2 hresting⟩

/-- Both policies are written and none is counted: the status of the system is refused, and the
stack has no namespace. -/
theorem policyWrites_of_refused :
    let s := (inMemory fun _ _ => true).recorded.run (inOrder [.system, .stack] "now")
      (.start (.empty, []))
    (∀ k, s.stage k = .resting) ∧ s.store.2.countP (·.isWrite) = 2 ∧
      s.counters.policyWrites = 0 := by
  refine ⟨fun k => ?_, rfl, rfl⟩
  cases k <;> rfl

/-- The policy of a resource that rests was written when a verdict says so. -/
theorem mem_put_iff {turns : List (Turn ι)} {store : σ} {i : ι}
    (hdistinct : Function.Injective fun i => (o.resources i).subject) :
    let s := o.recorded.run turns (.start (store, []))
    s.stage i = .resting →
      (⟨.put, o.path i, true⟩ ∈ s.store.2 ↔ ∃ v ∈ s.verdicts i, v.wrote = true) := by
  intro s hresting
  have hpath : ∀ j, (o.resources j).wanted.path = o.path i ↔ j = i := by
    intro j
    rw [ManagedResource.wanted_path]
    exact (path_injective hdistinct).eq_iff
  -- Of all that is held or has ended, only what is about `i` is at its path.
  have hrun := o.accountsForWrites_run (fun path => path = o.path i) turns store
  have hnone :
      ∑ j, ((s.stage j).holdsWrite && decide ((o.resources j).wanted.path = o.path i)).toNat =
        0 := by
    refine Finset.sum_eq_zero fun j _ => ?_
    by_cases hj : j = i
    · subst hj
      rw [hresting]
      rfl
    · simp [hpath, hj]
  rw [AccountsForWrites, hnone, add_zero] at hrun
  rw [← writesAt_pos_iff, hrun, List.countP_pos_iff]
  simp only [Bool.and_eq_true, decide_eq_true_eq, hpath, State.mem_verdicts]
  constructor
  · rintro ⟨e, he, hwrote, hwho⟩
    exact ⟨e.toVerdict, ⟨e, he, hwho, rfl⟩, hwrote⟩
  · rintro ⟨v, ⟨e, he, hwho, rfl⟩, hwrote⟩
    exact ⟨e, he, hwrote, hwho⟩

/-- What each resource reports when it has been reconciled once: the write of its policy, then a
failure unless a status was taken; a status when the sync succeeded and there is someone to send it
to. The failures are counted, and what becomes of the events does not matter. -/
theorem accounts_of_one_each {turns : List (Turn ι)} {store : σ}
    (hdistinct : Function.Injective fun i => (o.resources i).subject)
    (honce : ∀ i, (o.recorded.run turns (.start (store, []))).stage i = .resting ∧
      ((o.recorded.run turns (.start (store, []))).verdicts i).length = 1) :
    let s := o.recorded.run turns (.start (store, []))
    (∀ i, ∃ v e, s.verdicts i = [v] ∧
        v.report.events =
          (if ⟨.put, o.path i, true⟩ ∈ s.store.2 then
              [.written ((o.resources i).kind.writeNote (o.resources i).id)]
            else []) ++
          (if o.statusTaken i v then [] else [.failed e]) ∧
        v.report.patches.length =
          if v.answer.isOk && o.cluster.reaches (o.resources i).metadata then 1 else 0) ∧
      s.counters.reconcileFailures =
        (Finset.univ.filter fun i => ∀ v ∈ s.verdicts i, o.statusTaken i v = false).card ∧
      ∀ refuses, run { o.recorded with cluster := { o.cluster with refusesEvent := refuses } }
        turns (.start (store, [])) = s := by
  intro s
  have hone : ∀ i, ∃ v, s.verdicts i = [v] := fun i => List.length_eq_one_iff.mp (honce i).2
  refine ⟨fun i => ?_, ?_, fun refuses => run_refusesEvent refuses turns _⟩
  · obtain ⟨v, hv⟩ := hone i
    obtain ⟨e, he, rfl, rfl⟩ := State.mem_verdicts.mp (hv ▸ List.mem_singleton_self v)
    have haccounts := accounts_of_mem_ended he
    obtain ⟨error, hevents⟩ := haccounts.events
    have hwrote : ⟨.put, o.path e.who, true⟩ ∈ s.store.2 ↔ e.wrote = true := by
      rw [mem_put_iff hdistinct (honce e.who).1, hv]
      simp
    refine ⟨e.toVerdict, error, hv, ?_, haccounts.patches⟩
    rw [hevents]
    simp only [hwrote]
    rfl
  · have hfailures : s.counters.reconcileFailures =
        ∑ i, (s.verdicts i).countP fun v => !o.statusTaken i v :=
      (reconcileFailures_run turns (store, [])).trans
        (s.countP_ended fun i v => !o.statusTaken i v)
    rw [hfailures, Finset.card_filter]
    refine Finset.sum_congr rfl fun i _ => ?_
    obtain ⟨v, hv⟩ := hone i
    rw [hv]
    simp

theorem accounts_of_one_each_web :
    let o := inMemory fun _ _ => false
    let s := o.recorded.run (inOrder [.system, .stack] "now") (.start (.empty, []))
    (Function.Injective fun k => (o.resources k).subject) ∧
      (∀ k, s.stage k = .resting ∧ (s.verdicts k).length = 1) ∧
      s.counters.reconcileFailures =
        (Finset.univ.filter fun k => ∀ v ∈ s.verdicts k, o.statusTaken k v = false).card := by
  intro o s
  have honce : ∀ k, s.stage k = .resting ∧ (s.verdicts k).length = 1 := by
    intro k
    cases k <;> exact ⟨rfl, rfl⟩
  exact ⟨webResources_distinct, honce,
    (accounts_of_one_each (o := o) webResources_distinct honce).2.1⟩

/-- A system whose own name is empty. -/
def namelessSystem : ManagedResource :=
  .system ⟨⟨some "", none, some "prod", none,
    some (.singleton Metadata.externalNameKey "web"), some 1⟩, ⟨"server", none, .empty⟩, none⟩

/-- No status is sent for an empty name, though the sync succeeded and nothing is missing. -/
theorem patches_of_nameless :
    let o : Operator Unit Policies :=
      ⟨fun _ => namelessSystem, memoryStore, { refusesPatch := fun _ _ => false }⟩
    let s := o.recorded.run (inOrder [()] "now") (.start (.empty, []))
    namelessSystem.metadata.namespaceName.isSome = true ∧
      namelessSystem.metadata.name.isSome = true ∧
      (s.verdicts ()).map (fun v => (v.answer, v.report.patches)) = [(.ok .updated, [])] :=
  ⟨rfl, rfl, rfl⟩

end

end Operator

end PolicySync
