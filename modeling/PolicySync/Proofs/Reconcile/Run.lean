import Mathlib.Algebra.BigOperators.Group.Finset.Piecewise
import PolicySync.Proofs.Store.Laws
import PolicySync.Proofs.Sync.Interleaving

/-!
# Reconciliations under way at the same time

Every resource is reconciled again and again, and the reconciliations of different resources are
under way at the same time. Each takes its calls on the store and its report in separate steps. In
what order the resources take their turns is left open; one after the other is one such order.
-/

namespace PolicySync

/-- How far the reconciliation of a resource has come. -/
inductive Stage where
  | syncing (p : Progress)
  | resting

/-- What a reconciliation came to: the answer of its sync, and what it reported. -/
structure Verdict where
  answer : Except SyncError SyncOutcome
  report : Report

/-- A turn of a resource: the next step at some time, or the end of its rest. -/
inductive Move where
  | step (time : String)
  | requeue

theorem WantedPolicy.next_frame {σ γ : Type} {store : PolicyStore σ} {cell : String → σ → γ}
    (hstore : store.LeavesOthers cell) {w : WantedPolicy} {path : String} (hpath : w.path ≠ path)
    (p : Progress) (s : σ) : cell path (w.next store p s).2 = cell path s := by
  cases p with
  | waiting =>
    simp only [next]
    split <;> exact hstore.get_frame hpath s
  | writing => exact hstore.put_frame hpath w.modules s
  | answered a => rfl

namespace ManagedResource

variable {σ γ : Type} {r : ManagedResource} {store : PolicyStore σ} {cell : String → σ → γ}
  {cluster : Cluster} {time : String}

/-- Whom a resource is about on the remote side. -/
def subject (r : ManagedResource) : ResourceKind × String := (r.kind, r.id)

theorem wanted_path (r : ManagedResource) : r.wanted.path = policyPath r.subject := by
  cases r <;> rfl

def reportAfter (r : ManagedResource) (cluster : Cluster) (time : String) :
    Except SyncError SyncOutcome → Report
  | .error e => r.failure cluster [] [] (.sync e)
  | .ok o => r.report cluster time o

theorem reconcile_eq (s : σ) : r.reconcile store cluster time s =
    (r.reportAfter cluster time (r.wanted.sync store s).1, (r.wanted.sync store s).2) := by
  rw [reconcile]
  rcases r.wanted.sync store s with ⟨_ | o, t⟩ <;> rfl

/-- One turn: the stage and the store after it, and the verdict if it was the last step. -/
def move (r : ManagedResource) (store : PolicyStore σ) (cluster : Cluster) :
    Move → Stage → σ → Stage × σ × Option Verdict
  | .step _, .resting, s => (.resting, s, none)
  | .step _, .syncing .waiting, s =>
    let (p, s) := r.wanted.next store .waiting s
    (.syncing p, s, none)
  | .step _, .syncing .writing, s =>
    let (p, s) := r.wanted.next store .writing s
    (.syncing p, s, none)
  | .step time, .syncing (.answered a), s => (.resting, s, some ⟨a, r.reportAfter cluster time a⟩)
  | .requeue, .resting, s => (.syncing .waiting, s, none)
  | .requeue, .syncing p, s => (.syncing p, s, none)

/-- All that a turn can do. A call of an answered sync does nothing. -/
inductive MovesTo (r : ManagedResource) (store : PolicyStore σ) (cluster : Cluster) (s : σ) :
    Stage → Stage × σ × Option Verdict → Prop
  | idle (stage : Stage) : r.MovesTo store cluster s stage (stage, s, none)
  | wake : r.MovesTo store cluster s .resting (.syncing .waiting, s, none)
  | call (p : Progress) : r.MovesTo store cluster s (.syncing p)
      (.syncing (r.wanted.next store p s).1, (r.wanted.next store p s).2, none)
  | finish (a : Except SyncError SyncOutcome) (time : String) :
      r.MovesTo store cluster s (.syncing (.answered a))
        (.resting, s, some ⟨a, r.reportAfter cluster time a⟩)

theorem movesTo_move (r : ManagedResource) (store : PolicyStore σ) (cluster : Cluster) (m : Move)
    (stage : Stage) (s : σ) :
    r.MovesTo store cluster s stage (r.move store cluster m stage s) := by
  cases m with
  | requeue => cases stage with
    | resting => exact .wake
    | syncing p => exact .idle (.syncing p)
  | step time => cases stage with
    | resting => exact .idle .resting
    | syncing p => cases p with
      | waiting => exact .call .waiting
      | writing => exact .call .writing
      | answered a => exact .finish a time

theorem move_frame (hstore : store.LeavesOthers cell) {path : String}
    (hpath : policyPath r.subject ≠ path) (m : Move) (stage : Stage) (s : σ) :
    cell path (r.move store cluster m stage s).2.1 = cell path s := by
  rw [← wanted_path] at hpath
  have hmove := r.movesTo_move store cluster m stage s
  generalize r.move store cluster m stage s = after at hmove ⊢
  cases hmove with
  | idle | wake | finish => rfl
  | call p => exact WantedPolicy.next_frame hstore hpath p s

/-- A verdict is given by the last step, from the answer, and without touching the store. -/
theorem move_verdict {m : Move} {stage : Stage} {s : σ} {v : Verdict}
    (h : (r.move store cluster m stage s).2.2 = some v) :
    stage = .syncing (.answered v.answer) ∧
      (r.move store cluster m stage s).2.1 = s ∧
      ∃ time, v.report = r.reportAfter cluster time v.answer := by
  have hmove := r.movesTo_move store cluster m stage s
  generalize r.move store cluster m stage s = after at h hmove ⊢
  cases hmove with
  | idle | wake | call => cases h
  | finish a time =>
    obtain rfl := Option.some.inj h
    exact ⟨rfl, rfl, time, rfl⟩

end ManagedResource

/-- A reconciliation that has ended, and the store when its status was sent. -/
structure Ending (ι σ : Type) extends Verdict where
  who : ι
  store : σ

structure Turn (ι : Type) where
  who : ι
  move : Move

/-- The resources that are kept in line, and what answers for the outside. -/
structure Operator (ι σ : Type) where
  resources : ι → ManagedResource
  store : PolicyStore σ
  cluster : Cluster

namespace Operator

variable {ι σ : Type}

abbrev path (o : Operator ι σ) (i : ι) : String := policyPath (o.resources i).subject

theorem path_injective {o : Operator ι σ}
    (hdistinct : Function.Injective fun i => (o.resources i).subject) :
    Function.Injective o.path :=
  policyPath_injective.comp hdistinct

def recorded (o : Operator ι σ) : Operator ι (σ × List StoreCall) :=
  ⟨o.resources, recording o.store, o.cluster⟩

section

variable {o : Operator ι σ}

@[simp] theorem recorded_resources : o.recorded.resources = o.resources := rfl

@[simp] theorem recorded_store : o.recorded.store = recording o.store := rfl

@[simp] theorem recorded_cluster : o.recorded.cluster = o.cluster := rfl

end

/-- The store, how far each resource has come, and what has ended, the latest last. -/
structure State (ι σ : Type) where
  store : σ
  stage : ι → Stage
  ended : List (Ending ι σ)

namespace State

def start (store : σ) : State ι σ := ⟨store, fun _ => .syncing .waiting, []⟩

def counters (s : State ι σ) : Counters := .ofReports (s.ended.map (·.report))

end State

variable [DecidableEq ι]

def State.verdicts (s : State ι σ) (i : ι) : List Verdict :=
  (s.ended.filter (·.who = i)).map (·.toVerdict)

theorem State.mem_verdicts {s : State ι σ} {i : ι} {v : Verdict} :
    v ∈ s.verdicts i ↔ ∃ e ∈ s.ended, e.who = i ∧ e.toVerdict = v := by
  simp [State.verdicts, and_assoc]

/-- What is counted over all that has ended is the sum over the resources. -/
theorem State.countP_ended [Fintype ι] (s : State ι σ) (p : ι → Verdict → Bool) :
    (s.ended.countP fun e => p e.who e.toVerdict) = ∑ i, (s.verdicts i).countP (p i) := by
  simp only [State.verdicts, List.countP_map, Function.comp_def]
  induction s.ended with
  | nil => simp
  | cons e rest ih =>
    have hone : ∀ i, ((e :: rest).filter (·.who = i)).countP (fun e => p i e.toVerdict) =
        (rest.filter (·.who = i)).countP (fun e => p i e.toVerdict) +
          if e.who = i then (if p i e.toVerdict then 1 else 0) else 0 := by
      intro i
      by_cases hwho : e.who = i <;> simp [hwho, List.countP_cons]
    rw [List.countP_cons, ih, Finset.sum_congr rfl fun i _ => hone i, Finset.sum_add_distrib,
      Finset.sum_ite_eq, if_pos (Finset.mem_univ _)]

def turn (o : Operator ι σ) (s : State ι σ) (t : Turn ι) : State ι σ :=
  let (stage, store, verdict) :=
    (o.resources t.who).move o.store o.cluster t.move (s.stage t.who) s.store
  { store
    stage := Function.update s.stage t.who stage
    ended := s.ended ++ (verdict.map fun v => ⟨v, t.who, store⟩).toList }

def run (o : Operator ι σ) (turns : List (Turn ι)) (s : State ι σ) : State ι σ :=
  turns.foldl o.turn s

variable {o : Operator ι σ} {s : State ι σ} {t : Turn ι}

theorem run_induction {Inv : State ι σ → Prop} (hturn : ∀ s t, Inv s → Inv (o.turn s t))
    (turns : List (Turn ι)) (h : Inv s) : Inv (o.run turns s) := by
  induction turns generalizing s with
  | nil => exact h
  | cons t rest ih => exact ih (hturn s t h)

theorem store_turn : (o.turn s t).store =
    ((o.resources t.who).move o.store o.cluster t.move (s.stage t.who) s.store).2.1 :=
  rfl

theorem stage_turn_self : (o.turn s t).stage t.who =
    ((o.resources t.who).move o.store o.cluster t.move (s.stage t.who) s.store).1 :=
  Function.update_self ..

theorem stage_turn_ne {i : ι} (h : i ≠ t.who) : (o.turn s t).stage i = s.stage i :=
  Function.update_of_ne h ..

theorem verdicts_turn (i : ι) : (o.turn s t).verdicts i = s.verdicts i ++
    if t.who = i then
      ((o.resources t.who).move o.store o.cluster t.move (s.stage t.who) s.store).2.2.toList
    else [] := by
  simp only [State.verdicts, turn, List.filter_append, List.map_append]
  congr 1
  cases ((o.resources t.who).move o.store o.cluster t.move (s.stage t.who) s.store).2.2 with
  | none => simp
  | some v => by_cases h : t.who = i <;> simp [h]

theorem countP_ended_turn (q : ι → Verdict → Bool) :
    ((o.turn s t).ended.countP fun e => q e.who e.toVerdict) =
      (s.ended.countP fun e => q e.who e.toVerdict) +
        ((o.resources t.who).move o.store o.cluster t.move (s.stage t.who)
          s.store).2.2.toList.countP (q t.who) := by
  rw [turn, List.countP_append]
  cases ((o.resources t.who).move o.store o.cluster t.move (s.stage t.who) s.store).2.2 <;> rfl

/-- What a turn brings to its end had its answer before; the store stays as it is. -/
theorem mem_ended_turn {e : Ending ι σ} (h : e ∈ (o.turn s t).ended) :
    e ∈ s.ended ∨ s.stage e.who = .syncing (.answered e.answer) ∧ e.store = s.store ∧
      ∃ time, e.report = (o.resources e.who).reportAfter o.cluster time e.answer := by
  rcases List.mem_append.mp h with hbefore | hnow
  · exact .inl hbefore
  · obtain ⟨v, hverdict, rfl⟩ := Option.map_eq_some_iff.mp (Option.mem_toList.mp hnow)
    exact .inr (ManagedResource.move_verdict hverdict)

theorem report_of_mem_ended {e : Ending ι σ} {turns : List (Turn ι)} {store : σ}
    (h : e ∈ (o.run turns (.start store)).ended) :
    ∃ time, e.report = (o.resources e.who).reportAfter o.cluster time e.answer := by
  let Inv : State ι σ → Prop := fun s =>
    ∀ e ∈ s.ended, ∃ time, e.report = (o.resources e.who).reportAfter o.cluster time e.answer
  have hrun : Inv (o.run turns (.start store)) := by
    refine run_induction (fun s t hs e he => ?_) turns (fun e he => nomatch he)
    rcases mem_ended_turn he with hbefore | ⟨-, -, hreport⟩
    · exact hs e hbefore
    · exact hreport
  exact hrun e h

theorem turn_eq {i : ι} {stage : Stage} (m : Move) (h : s.stage i = stage) :
    o.turn s ⟨i, m⟩ =
      let (stage, store, verdict) := (o.resources i).move o.store o.cluster m stage s.store
      { store
        stage := Function.update s.stage i stage
        ended := s.ended ++ (verdict.map fun v => ⟨v, i, store⟩).toList } := by
  subst h
  rfl

/-- Three steps bring a reconciliation to its end; without a write, the last of them is idle. -/
theorem run_three_steps {i : ι} (h : s.stage i = .syncing .waiting) (time : String) :
    o.run (List.replicate 3 ⟨i, .step time⟩) s =
      let (answer, store) := (o.resources i).wanted.sync o.store s.store
      { store
        stage := Function.update s.stage i .resting
        ended := s.ended ++
          [⟨⟨answer, (o.resources i).reportAfter o.cluster time answer⟩, i, store⟩] } := by
  change o.turn (o.turn (o.turn s _) _) _ = _
  rw [turn_eq (.step time) h]
  simp only [ManagedResource.move, WantedPolicy.next, WantedPolicy.sync]
  cases (o.resources i).wanted.afterGet (o.store.get (o.resources i).wanted.path s.store).1 with
  | some a =>
    rw [turn_eq (.step time) (Function.update_self ..)]
    simp only [ManagedResource.move]
    rw [turn_eq (.step time) (Function.update_self ..)]
    simp [ManagedResource.move]
  | none =>
    rw [turn_eq (.step time) (Function.update_self ..)]
    simp only [ManagedResource.move]
    rw [turn_eq (.step time) (Function.update_self ..)]
    simp [ManagedResource.move, WantedPolicy.next]

/-- Turns that bring each resource to its end before the next. -/
def inOrder (order : List ι) (time : String) : List (Turn ι) :=
  order.flatMap fun i => List.replicate 3 ⟨i, .step time⟩

/-- To reconcile resources one after the other is one way for them to take turns. -/
theorem run_inOrder {order : List ι} (hnodup : order.Nodup)
    (hwaiting : ∀ i ∈ order, s.stage i = .syncing .waiting) (time : String) :
    let final := o.run (inOrder order time) s
    let (reports, store) :=
      reconcileAll o.store o.cluster time (order.map o.resources) s.store
    final.store = store ∧
      (final.ended.map fun e => (o.resources e.who, e.report)) =
        (s.ended.map fun e => (o.resources e.who, e.report)) ++ reports ∧
      ∀ i, final.stage i = if i ∈ order then .resting else s.stage i := by
  induction order generalizing s with
  | nil => exact ⟨rfl, (List.append_nil _).symm, fun i => rfl⟩
  | cons i rest ih =>
    obtain ⟨hi, hrest⟩ := List.nodup_cons.mp hnodup
    have hsteps := o.run_three_steps (hwaiting i List.mem_cons_self) time
    have hrun : o.run (inOrder (i :: rest) time) s =
        o.run (inOrder rest time) (o.run (List.replicate 3 ⟨i, .step time⟩) s) := by
      rw [run, run, run, inOrder, List.flatMap_cons, List.foldl_append]
      rfl
    have hstill : ∀ j ∈ rest,
        (o.run (List.replicate 3 ⟨i, .step time⟩) s).stage j = .syncing .waiting := by
      intro j hj
      have hji : j ≠ i := fun h => hi (h ▸ hj)
      rw [hsteps]
      exact (Function.update_of_ne hji ..).trans (hwaiting j (List.mem_cons_of_mem _ hj))
    obtain ⟨hstore, hended, hstage⟩ := ih hrest hstill
    simp only [hrun, List.map_cons, reconcileAll, ManagedResource.reconcile_eq]
    refine ⟨?_, ?_, fun j => ?_⟩
    · rw [hstore, hsteps]
    · rw [hended, hsteps]
      simp
    · rw [hstage, hsteps]
      by_cases hji : j = i
      · subst hji
        simp [hi]
      · simp [hji]

end Operator

instance : Fintype ResourceKind where
  elems := {.system, .stack}
  complete k := by cases k <;> decide

/-- A system in a namespace and a stack in none, of one name. -/
def webResources : ResourceKind → ManagedResource
  | .system => .system
      ⟨⟨some "web", none, some "prod", none, none, some 1⟩, ⟨"server", none, .empty⟩, none⟩
  | .stack => .stack
      ⟨⟨some "web", none, none, none, none, some 1⟩,
        ⟨"group", none, ⟨.ofList [("zone", ["a"])], .empty⟩⟩, none⟩

theorem webResources_kind (k : ResourceKind) : (webResources k).kind = k := by
  cases k <;> rfl

theorem webResources_distinct : Function.Injective fun k => (webResources k).subject := by
  intro k k' h
  have hkind := (Prod.mk.inj h).1
  rwa [webResources_kind, webResources_kind] at hkind

end PolicySync
