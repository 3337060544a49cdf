import PolicySync.Resource.Basic
import PolicySync.Sync

/-!
# Reconciling resources

Each resource is synced once. A write is announced, the status is sent to the cluster, and
whatever goes wrong is counted and announced.
-/

namespace PolicySync

inductive ResourceKind where
  | system
  | stack
  deriving DecidableEq, Repr

namespace ResourceKind

def text : ResourceKind → String
  | .system => "System"
  | .stack => "Stack"

/-- What is announced after a write for a name on the remote side. -/
def writeNote (k : ResourceKind) (id : String) : String :=
  match k with
  | .system => "Wrote labels of system " ++ id
  | .stack => "Wrote selectors of stack " ++ id

end ResourceKind

/-- A resource of either kind. -/
inductive ManagedResource where
  | system (r : SystemResource)
  | stack (r : StackResource)

namespace ManagedResource

def kind : ManagedResource → ResourceKind
  | .system _ => .system
  | .stack _ => .stack

def metadata : ManagedResource → Metadata
  | .system r => r.metadata
  | .stack r => r.metadata

/-- The name on the remote side. -/
def id (r : ManagedResource) : String := r.metadata.externalName

def wanted : ManagedResource → WantedPolicy
  | .system r => r.spec.wanted r.externalName
  | .stack r => r.spec.wanted r.externalName

end ManagedResource

inductive ReconcileError where
  | sync (e : SyncError)
  /-- The cluster refuses a call. -/
  | cluster
  | missingNamespace
  | missingName
  deriving DecidableEq, Repr

/-- What went wrong, up to the point where someone else describes it. -/
def ReconcileError.message : ReconcileError → String
  | .sync e => e.message
  | .cluster => "Kube Error: "
  | .missingNamespace => "Unable to get source namespace"
  | .missingName => "Object has a missing name"

inductive Severity where
  | normal
  | warning
  deriving DecidableEq, Repr

def Severity.text : Severity → String
  | .normal => "Normal"
  | .warning => "Warning"

/-- An announcement about a resource. -/
structure Event where
  severity : Severity
  reason : String
  action : String
  note : String
  deriving DecidableEq, Repr

namespace Event

def written (note : String) : Event := ⟨.normal, "PolicyUpdated", "Sync", note⟩

def failed (e : ReconcileError) : Event :=
  ⟨.warning, "ReconciliationFailed", "Reconcile", "Error: " ++ e.message⟩

end Event

/-- The name that events and the diagnostics are reported under. -/
def reporterName : String := "policyward"

def apiVersion : String := "policyward.dev/v1alpha1"

/-- How an event names the resource it is about. -/
structure ResourceReference where
  kind : ResourceKind
  name : Option String
  namespaceName : Option String
  uid : Option String
  deriving DecidableEq

namespace ManagedResource

def reference (r : ManagedResource) : ResourceReference :=
  ⟨r.kind, r.metadata.name, r.metadata.namespaceName, r.metadata.uid⟩

/-- Where the events about a resource are created. -/
def eventNamespace (r : ManagedResource) : String := r.metadata.namespaceName.getD "default"

end ManagedResource

/-- How the cluster answers. -/
structure Cluster where
  /-- Whether it refuses the status of a resource with a kind and a name. -/
  refusesPatch : ResourceKind → String → Bool
  /-- Whether it refuses an event about a resource. -/
  refusesEvent : ResourceReference → Event → Bool := fun _ _ => false
  /-- Whether a request can be made out for a namespace and a name. None is for an empty name. -/
  hasAddress : String → String → Bool := fun _ name => !name.isEmpty

/-- Sends an event: the events sent, and what came of it. -/
def Cluster.publish (c : Cluster) (about : ResourceReference) (e : Event) :
    List Event × Except ReconcileError Unit :=
  ([e], if c.refusesEvent about e then .error .cluster else .ok ())

/-- The namespace and the name of a resource that its status is for. -/
def Metadata.statusName (m : Metadata) : Except ReconcileError (String × String) :=
  match m.namespaceName, m.name with
  | none, _ => .error .missingNamespace
  | some _, none => .error .missingName
  | some space, some name => .ok (space, name)

/-- Sends a status: the statuses sent, and what came of it. -/
def Cluster.flush (c : Cluster) (kind : ResourceKind) (m : Metadata) (status : SyncStatus) :
    List SyncStatus × Except ReconcileError Unit :=
  match m.statusName with
  | .error e => ([], .error e)
  | .ok (space, name) =>
    if !c.hasAddress space name then ([], .error .cluster)
    else if c.refusesPatch kind name then ([status], .error .cluster)
    else ([status], .ok ())

/-- What one reconciliation did. -/
structure Report where
  /-- The statuses sent, refused ones too. -/
  patches : List SyncStatus
  events : List Event
  /-- Whether it ended well after a write. -/
  countsAsWrite : Bool
  countsAsFailure : Bool
  deriving DecidableEq

namespace ManagedResource

/-- The status after a sync at a time. -/
def statusAfter (r : ManagedResource) (time : String) (o : SyncOutcome) : SyncStatus where
  policyPath := r.wanted.path
  upToDate := true
  lastSynced := some time
  observedGeneration := r.metadata.generation
  message := some o.message

/-- The announcements that follow a sync. What becomes of them does not matter. -/
def eventsAfter (r : ManagedResource) (cluster : Cluster) : SyncOutcome → List Event
  | .upToDate => []
  | .updated => (cluster.publish r.reference (.written (r.kind.writeNote r.id))).1

/-- The report of a reconciliation that failed after some statuses and events were sent. -/
def failure (r : ManagedResource) (cluster : Cluster) (patches : List SyncStatus)
    (events : List Event) (e : ReconcileError) : Report :=
  ⟨patches, events ++ (cluster.publish r.reference (.failed e)).1, false, true⟩

/-- What follows a sync that gave an outcome. -/
def report (r : ManagedResource) (cluster : Cluster) (time : String) (o : SyncOutcome) : Report :=
  match cluster.flush r.kind r.metadata (r.statusAfter time o) with
  | (patches, .error e) => r.failure cluster patches (r.eventsAfter cluster o) e
  | (patches, .ok ()) => ⟨patches, r.eventsAfter cluster o, o = .updated, false⟩

/-- Syncs a resource and reports what came of it. -/
def reconcile {σ : Type} (r : ManagedResource) (store : PolicyStore σ) (cluster : Cluster)
    (time : String) (s : σ) : Report × σ :=
  match r.wanted.sync store s with
  | (.error e, s) => (r.failure cluster [] [] (.sync e), s)
  | (.ok o, s) => (r.report cluster time o, s)

end ManagedResource

/-- Reconciles resources one after the other. -/
def reconcileAll {σ : Type} (store : PolicyStore σ) (cluster : Cluster) (time : String) :
    List ManagedResource → σ → List (ManagedResource × Report) × σ
  | [], s => ([], s)
  | r :: rest, s =>
    let (report, s) := r.reconcile store cluster time s
    let (reports, s) := reconcileAll store cluster time rest s
    ((r, report) :: reports, s)

/-- The counters after some reconciliations. -/
structure Counters where
  policyWrites : Nat
  reconcileFailures : Nat
  deriving DecidableEq, Repr

def Counters.ofReports (reports : List Report) : Counters where
  policyWrites := reports.countP (·.countsAsWrite)
  reconcileFailures := reports.countP (·.countsAsFailure)

end PolicySync
