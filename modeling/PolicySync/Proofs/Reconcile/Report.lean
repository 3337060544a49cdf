import PolicySync.Proofs.Reconcile.Run

/-!
# What a reconciliation reports

What is reported follows from the answer of the sync, and from whether the status could be sent and
was taken.
-/

namespace PolicySync

namespace Cluster

/-- Whether there is someone whom a status can be sent to: a namespace and a name, for which a
request can be made out. -/
def reaches (c : Cluster) (m : Metadata) : Bool :=
  match m.namespaceName, m.name with
  | some space, some name => c.hasAddress space name
  | _, _ => false

/-- Whether a status is taken when it is sent. -/
def takesStatus (c : Cluster) (kind : ResourceKind) (m : Metadata) : Bool :=
  !c.refusesPatch kind (m.name.getD "")

variable {c : Cluster} {m : Metadata}

theorem flush_unreached (kind : ResourceKind) (h : c.reaches m = false) (status : SyncStatus) :
    ∃ e, c.flush kind m status = ([], .error e) := by
  rw [reaches] at h
  rw [flush, Metadata.statusName]
  cases hspace : m.namespaceName with
  | none => exact ⟨.missingNamespace, rfl⟩
  | some space => cases hname : m.name with
    | none => exact ⟨.missingName, rfl⟩
    | some name =>
      rw [hspace, hname] at h
      exact ⟨.cluster, by simp only [h, Bool.not_false, if_true]⟩

theorem flush_reached (kind : ResourceKind) (h : c.reaches m = true) (status : SyncStatus) :
    c.flush kind m status =
      ([status], if c.takesStatus kind m then .ok () else .error .cluster) := by
  rw [reaches] at h
  rw [flush, Metadata.statusName, takesStatus]
  cases hspace : m.namespaceName with
  | none => simp [hspace] at h
  | some space => cases hname : m.name with
    | none => simp [hname] at h
    | some name =>
      rw [hspace, hname] at h
      by_cases hrefuses : c.refusesPatch kind name = true <;> simp [h, hrefuses]

end Cluster

/-- Whether an answer says that the policy was written. -/
def saysWritten : Except SyncError SyncOutcome → Bool
  | .ok .updated => true
  | _ => false

def Verdict.wrote (v : Verdict) : Bool := saysWritten v.answer

namespace ManagedResource

def statusTaken (r : ManagedResource) (cluster : Cluster) (patches : List SyncStatus) : Bool :=
  !patches.isEmpty && cluster.takesStatus r.kind r.metadata

variable {r : ManagedResource} {cluster : Cluster} {time : String} {v : Verdict}

theorem report_unreached (h : cluster.reaches r.metadata = false) (time : String)
    (outcome : SyncOutcome) :
    ∃ e, r.report cluster time outcome =
      r.failure cluster [] (r.eventsAfter cluster outcome) e := by
  obtain ⟨e, hflush⟩ := Cluster.flush_unreached r.kind h (r.statusAfter time outcome)
  exact ⟨e, by rw [report, hflush]⟩

theorem report_reached (h : cluster.reaches r.metadata = true) (time : String)
    (outcome : SyncOutcome) :
    r.report cluster time outcome =
      if cluster.takesStatus r.kind r.metadata then
        ⟨[r.statusAfter time outcome], r.eventsAfter cluster outcome, outcome = .updated, false⟩
      else
        r.failure cluster [r.statusAfter time outcome] (r.eventsAfter cluster outcome)
          .cluster := by
  rw [report, Cluster.flush_reached r.kind h]
  cases cluster.takesStatus r.kind r.metadata <;> rfl

theorem reportAfter_refusesEvent (refuses : ResourceReference → Event → Bool)
    (answer : Except SyncError SyncOutcome) :
    r.reportAfter { cluster with refusesEvent := refuses } time answer =
      r.reportAfter cluster time answer := by
  match answer with
  | .error e => rfl
  | .ok .upToDate => rfl
  | .ok .updated => rfl

theorem move_refusesEvent {σ : Type} {store : PolicyStore σ}
    (refuses : ResourceReference → Event → Bool) (m : Move) (stage : Stage) (s : σ) :
    r.move store { cluster with refusesEvent := refuses } m stage s =
      r.move store cluster m stage s := by
  cases m with
  | requeue => rfl
  | step time => cases stage with
    | resting => rfl
    | syncing p => cases p with
      | waiting => rfl
      | writing => rfl
      | answered a => simp only [move, reportAfter_refusesEvent]

theorem mem_patches {answer : Except SyncError SyncOutcome} {status : SyncStatus}
    (h : status ∈ (r.reportAfter cluster time answer).patches) :
    ∃ outcome, answer = .ok outcome ∧ status = r.statusAfter time outcome := by
  cases answer with
  | error e => cases h
  | ok outcome =>
    refine ⟨outcome, rfl, ?_⟩
    rw [reportAfter] at h
    cases hreached : cluster.reaches r.metadata with
    | false =>
      obtain ⟨e, hreport⟩ := report_unreached hreached time outcome
      rw [hreport] at h
      cases h
    | true =>
      rw [report_reached hreached] at h
      split at h <;> exact List.mem_singleton.mp h

/-- What a verdict says: a status is sent when the sync succeeded and there is someone to send it
to; a write is announced, then a failure unless the status was taken; and it is for the status
whether the verdict counts as a write or as a failure. -/
structure Accounts (r : ManagedResource) (cluster : Cluster) (v : Verdict) : Prop where
  patches : v.report.patches.length = if v.answer.isOk && cluster.reaches r.metadata then 1 else 0
  events : ∃ e, v.report.events =
    (if v.wrote then [.written (r.kind.writeNote r.id)] else []) ++
      if r.statusTaken cluster v.report.patches then [] else [.failed e]
  countsAsWrite : v.report.countsAsWrite = (v.wrote && r.statusTaken cluster v.report.patches)
  countsAsFailure : v.report.countsAsFailure = !r.statusTaken cluster v.report.patches

theorem eventsAfter_eq (outcome : SyncOutcome) : r.eventsAfter cluster outcome =
    if saysWritten (.ok outcome) then [.written (r.kind.writeNote r.id)] else [] := by
  cases outcome <;> rfl

/-- A reconciliation that fails counts as nothing else, whatever was sent before. -/
private theorem accounts_failure {answer : Except SyncError SyncOutcome}
    {patches : List SyncStatus} {events : List Event} {e : ReconcileError}
    (hpatches : patches.length = if answer.isOk && cluster.reaches r.metadata then 1 else 0)
    (hevents : events = if saysWritten answer then [.written (r.kind.writeNote r.id)] else [])
    (htaken : r.statusTaken cluster patches = false) :
    r.Accounts cluster ⟨answer, r.failure cluster patches events e⟩ := by
  change r.statusTaken cluster (r.failure cluster patches events e).patches = false at htaken
  refine ⟨hpatches, ⟨e, ?_⟩, ?_, ?_⟩
  · rw [htaken, Verdict.wrote, ← hevents]
    rfl
  · rw [htaken, Bool.and_false]
    rfl
  · rw [htaken]
    rfl

private theorem accounts_success {outcome : SyncOutcome}
    (hreached : cluster.reaches r.metadata = true)
    (htakes : cluster.takesStatus r.kind r.metadata = true) (status : SyncStatus) :
    r.Accounts cluster ⟨.ok outcome,
      ⟨[status], r.eventsAfter cluster outcome, outcome = .updated, false⟩⟩ := by
  have htaken : r.statusTaken cluster [status] = true := by
    rw [statusTaken, htakes]
    rfl
  refine ⟨?_, ⟨.cluster, ?_⟩, ?_, ?_⟩
  · rw [hreached]
    rfl
  · rw [htaken, eventsAfter_eq]
    exact (List.append_nil _).symm
  · rw [htaken, Bool.and_true]
    cases outcome <;> rfl
  · rw [htaken]
    rfl

theorem accounts_reportAfter (r : ManagedResource) (cluster : Cluster) (time : String)
    (answer : Except SyncError SyncOutcome) :
    r.Accounts cluster ⟨answer, r.reportAfter cluster time answer⟩ := by
  cases answer with
  | error e => exact accounts_failure rfl rfl rfl
  | ok outcome =>
    rw [reportAfter]
    cases hreached : cluster.reaches r.metadata with
    | false =>
      obtain ⟨e, hreport⟩ := report_unreached hreached time outcome
      rw [hreport]
      refine accounts_failure ?_ (eventsAfter_eq outcome) rfl
      rw [hreached]
      rfl
    | true =>
      rw [report_reached hreached]
      cases htakes : cluster.takesStatus r.kind r.metadata with
      | false =>
        refine accounts_failure ?_ (eventsAfter_eq outcome) ?_
        · rw [hreached]
          rfl
        · rw [statusTaken, htakes, Bool.and_false]
      | true => exact accounts_success hreached htakes _

end ManagedResource

end PolicySync
