import Mathlib.Logic.Relation
import PolicySync.Proofs.Sync.Call

/-!
# Calls under way at the same time

A call reads the store in one step and, when it has to, writes it in another. The steps of several
calls may come in any order. Calls for different resources then get the answers that they get one
after the other, and leave the same store.
-/

namespace PolicySync

/-- How far a call has come. -/
inductive Progress where
  | waiting
  | writing
  | answered (answer : Except SyncError SyncOutcome)

namespace WantedPolicy

/-- The next step on the store; none is left after the answer. -/
def next {σ : Type} (w : WantedPolicy) (store : PolicyStore σ) : Progress → σ → Progress × σ
  | .waiting, s =>
    let (observed, s) := store.get w.path s
    match w.afterGet observed with
    | some answer => (.answered answer, s)
    | none => (.writing, s)
  | .writing, s =>
    let (written, s) := store.put w.path w.modules s
    (.answered (afterPut written), s)
  | .answered answer, s => (.answered answer, s)

/-- A sync is two steps, the second of them idle when nothing has to be written. -/
theorem next_next {σ : Type} (w : WantedPolicy) (store : PolicyStore σ) (s : σ) :
    w.next store (w.next store .waiting s).1 (w.next store .waiting s).2 =
      (.answered (w.sync store s).1, (w.sync store s).2) := by
  simp only [next, sync]
  cases w.afterGet (store.get w.path s).1 <;> rfl

theorem next_next_answered {σ : Type} (w : WantedPolicy) (store : PolicyStore σ) (p : Progress)
    (s : σ) : ∃ a, (w.next store (w.next store p s).1 (w.next store p s).2).1 = .answered a := by
  cases p with
  | waiting => exact ⟨_, congrArg Prod.fst (w.next_next store s)⟩
  | writing => exact ⟨_, rfl⟩
  | answered a => exact ⟨a, rfl⟩

end WantedPolicy

namespace SyncCall

variable {c : SyncCall} {first store : Policies} {p : Progress}

/-- Whether a call has come as far, and its path holds what it would, if it had been alone with the
store that was there first. -/
def OnTrack (c : SyncCall) (first : Policies) (p : Progress) (now : Option PolicyModules) : Prop :=
  match p with
  | .waiting => now = first.get? (policyPath c.resource)
  | .writing => now = first.get? (policyPath c.resource) ∧
      c.wanted.afterGet (.ok (first.get? (policyPath c.resource))) = none
  | .answered a => (c.run first).1 = a ∧ now = (c.run first).2.get? (policyPath c.resource)

theorem OnTrack.next (h : c.OnTrack first p (store.get? (policyPath c.resource))) :
    c.OnTrack first (c.wanted.next memoryStore p store).1
      ((c.wanted.next memoryStore p store).2.get? (policyPath c.resource)) := by
  cases p with
  | waiting =>
    have hnow : store.get? (policyPath c.resource) = first.get? (policyPath c.resource) := h
    cases hget : c.wanted.afterGet (.ok (first.get? (policyPath c.resource))) with
    | some a =>
      have hnext : c.wanted.next memoryStore .waiting store = (.answered a, store) := by
        simp only [WantedPolicy.next, memoryStore_get, wanted_path, hnow, hget]
      rw [hnext, OnTrack, run_of_answer hget]
      exact ⟨rfl, hnow⟩
    | none =>
      have hnext : c.wanted.next memoryStore .waiting store = (.writing, store) := by
        simp only [WantedPolicy.next, memoryStore_get, wanted_path, hnow, hget]
      rw [hnext]
      exact ⟨hnow, hget⟩
  | writing =>
    have hnext : c.wanted.next memoryStore .writing store =
        (.answered (.ok .updated), store.insert (policyPath c.resource) c.wanted.modules) := by
      rw [← wanted_path]
      rfl
    rw [hnext, OnTrack, run_of_write h.2]
    refine ⟨rfl, ?_⟩
    rw [SortedMap.get?_insert, if_pos rfl, SortedMap.get?_insert, if_pos rfl]
  | answered a => exact h

theorem get?_next_of_ne {path : String} (h : policyPath c.resource ≠ path) :
    (c.wanted.next memoryStore p store).2.get? path = store.get? path := by
  cases p with
  | waiting =>
    simp only [WantedPolicy.next, memoryStore_get]
    split <;> rfl
  | writing =>
    simp only [WantedPolicy.next, memoryStore_put, wanted_path, SortedMap.get?_insert, if_neg h]
  | answered a => rfl

end SyncCall

/-- A store and the calls under way on it. -/
structure Shared (ι : Type) where
  store : Policies
  progress : ι → Progress

namespace Shared

variable {ι : Type} {calls : ι → SyncCall} {first : Policies} {s t : Shared ι}

def start (store : Policies) : Shared ι := ⟨store, fun _ => .waiting⟩

def Finished (s : Shared ι) : Prop := ∀ i, ∃ a, s.progress i = .answered a

/-- Whether all calls are on track, and no other path has changed. -/
structure Agrees (calls : ι → SyncCall) (first : Policies) (s : Shared ι) : Prop where
  onTrack : ∀ i, (calls i).OnTrack first (s.progress i)
    (s.store.get? (policyPath (calls i).resource))
  frame : ∀ path, (∀ i, policyPath (calls i).resource ≠ path) →
    s.store.get? path = first.get? path

theorem agrees_start (calls : ι → SyncCall) (first : Policies) :
    (start first).Agrees calls first :=
  ⟨fun _ => rfl, fun _ _ => rfl⟩

/-- Calls that are all answered are in one state, however they got there. -/
theorem Agrees.eq (hs : s.Agrees calls first) (ht : t.Agrees calls first) (hsf : s.Finished)
    (htf : t.Finished) : s = t := by
  have hone (i : ι) : s.progress i = t.progress i ∧
      s.store.get? (policyPath (calls i).resource) =
        t.store.get? (policyPath (calls i).resource) := by
    obtain ⟨a, ha⟩ := hsf i
    obtain ⟨b, hb⟩ := htf i
    have hsi := hs.onTrack i
    have hti := ht.onTrack i
    rw [ha, SyncCall.OnTrack] at hsi
    rw [hb, SyncCall.OnTrack] at hti
    rw [ha, hb, ← hsi.1, ← hti.1, hsi.2, hti.2]
    exact ⟨rfl, rfl⟩
  have hstore : s.store = t.store := by
    refine SortedMap.ext_get? fun path => ?_
    by_cases hpath : ∃ i, policyPath (calls i).resource = path
    · obtain ⟨i, rfl⟩ := hpath
      exact (hone i).2
    · have hother : ∀ i, policyPath (calls i).resource ≠ path := fun i hi => hpath ⟨i, hi⟩
      rw [hs.frame path hother, ht.frame path hother]
  have hprogress : s.progress = t.progress := funext fun i => (hone i).1
  cases s
  cases t
  cases hstore
  cases hprogress
  rfl

variable [DecidableEq ι]

/-- The state after the next step of one call. -/
def advance (calls : ι → SyncCall) (s : Shared ι) (i : ι) : Shared ι :=
  let r := (calls i).wanted.next memoryStore (s.progress i) s.store
  ⟨r.2, Function.update s.progress i r.1⟩

/-- Some call that has no answer yet takes its next step. -/
inductive Step (calls : ι → SyncCall) : Shared ι → Shared ι → Prop
  | advance {s : Shared ι} {i : ι} (h : ∀ a, s.progress i ≠ .answered a) :
      Step calls s (s.advance calls i)

/-- Steps of any calls in any order. -/
abbrev Run (calls : ι → SyncCall) : Shared ι → Shared ι → Prop :=
  Relation.ReflTransGen (Step calls)

theorem progress_advance_ne {i j : ι} (h : j ≠ i) :
    (s.advance calls i).progress j = s.progress j :=
  Function.update_of_ne h _ _

theorem Agrees.advance (hcalls : Function.Injective fun i => (calls i).resource)
    (h : s.Agrees calls first) (i : ι) : (s.advance calls i).Agrees calls first where
  onTrack j := by
    by_cases hj : j = i
    · subst hj
      have hnext := (h.onTrack j).next
      simpa only [Shared.advance, Function.update_self] using hnext
    · have hpath : policyPath (calls i).resource ≠ policyPath (calls j).resource :=
        fun heq => hj (hcalls (policyPath_injective heq)).symm
      rw [progress_advance_ne hj]
      change (calls j).OnTrack first _ (((calls i).wanted.next memoryStore _ _).2.get? _)
      rw [SyncCall.get?_next_of_ne hpath]
      exact h.onTrack j
  frame path hpath := by
    rw [← h.frame path hpath]
    exact SyncCall.get?_next_of_ne (hpath i)

theorem Agrees.run (hcalls : Function.Injective fun i => (calls i).resource)
    (h : s.Agrees calls first) (hrun : Run calls s t) : t.Agrees calls first := by
  induction hrun with
  | refl => exact h
  | tail _ hstep ih =>
    cases hstep with
    | advance => exact ih.advance hcalls _

theorem run_advance (calls : ι → SyncCall) (s : Shared ι) (i : ι) :
    Run calls s (s.advance calls i) := by
  by_cases h : ∃ a, s.progress i = .answered a
  · obtain ⟨a, ha⟩ := h
    have hidle : s.advance calls i = s := by
      simp only [advance, ha, WantedPolicy.next]
      rw [← ha, Function.update_eq_self]
    rw [hidle]
  · exact .single (.advance fun a ha => h ⟨a, ha⟩)

/-- One call brought to its end. -/
def complete (calls : ι → SyncCall) (s : Shared ι) (i : ι) : Shared ι :=
  (s.advance calls i).advance calls i

theorem progress_complete_ne {i j : ι} (h : j ≠ i) :
    (s.complete calls i).progress j = s.progress j := by
  rw [complete, progress_advance_ne h, progress_advance_ne h]

theorem answered_complete (calls : ι → SyncCall) (s : Shared ι) (i : ι) :
    ∃ a, (s.complete calls i).progress i = .answered a := by
  simp only [complete, advance, Function.update_self]
  exact (calls i).wanted.next_next_answered memoryStore _ _

theorem complete_waiting (calls : ι → SyncCall) {i : ι} (h : s.progress i = .waiting) :
    (s.complete calls i).store = ((calls i).run s.store).2 ∧
      (s.complete calls i).progress i = .answered ((calls i).run s.store).1 := by
  have hnext := (calls i).wanted.next_next memoryStore s.store
  simp only [complete, advance, Function.update_self, h, hnext]
  exact ⟨rfl, rfl⟩

/-- Each call brought to its end before the next. -/
def inOrder (calls : ι → SyncCall) (order : List ι) (s : Shared ι) : Shared ι :=
  order.foldl (complete calls) s

theorem inOrder_cons (i : ι) (rest : List ι) (s : Shared ι) :
    s.inOrder calls (i :: rest) = (s.complete calls i).inOrder calls rest := rfl

theorem run_inOrder (calls : ι → SyncCall) (order : List ι) (s : Shared ι) :
    Run calls s (s.inOrder calls order) := by
  induction order generalizing s with
  | nil => exact .refl
  | cons i rest ih =>
    have hfirst : Run calls s (s.complete calls i) :=
      (run_advance calls s i).trans (run_advance calls _ i)
    exact hfirst.trans (ih _)

theorem progress_inOrder_notMem {order : List ι} {j : ι} (h : j ∉ order) :
    (s.inOrder calls order).progress j = s.progress j := by
  induction order generalizing s with
  | nil => rfl
  | cons i rest ih =>
    simp only [List.mem_cons, not_or] at h
    rw [inOrder_cons, ih h.2, progress_complete_ne h.1]

theorem answered_inOrder {order : List ι} {j : ι} (h : j ∈ order) :
    ∃ a, (s.inOrder calls order).progress j = .answered a := by
  induction order generalizing s with
  | nil => cases h
  | cons i rest ih =>
    by_cases hrest : j ∈ rest
    · exact ih hrest
    · have hij : j = i := by simpa [hrest] using h
      subst hij
      rw [inOrder_cons, progress_inOrder_notMem hrest]
      exact answered_complete calls s j

/-- One after the other, the calls are whole syncs. -/
theorem inOrder_waiting {order : List ι} (hnodup : order.Nodup)
    (hwaiting : ∀ i ∈ order, s.progress i = .waiting) :
    (s.inOrder calls order).store =
        order.foldl (fun store i => ((calls i).run store).2) s.store ∧
      List.Forall₂ (fun i r => (s.inOrder calls order).progress i = .answered r.1) order
        (trace (fun i => (calls i).run) order s.store) := by
  induction order generalizing s with
  | nil => exact ⟨rfl, .nil⟩
  | cons i rest ih =>
    obtain ⟨hi, hrest⟩ := List.nodup_cons.mp hnodup
    obtain ⟨hstore, hanswer⟩ := complete_waiting calls (hwaiting i List.mem_cons_self)
    have hlater : ∀ j ∈ rest, (s.complete calls i).progress j = .waiting := by
      intro j hj
      have hne : j ≠ i := fun heq => hi (heq ▸ hj)
      rw [progress_complete_ne hne]
      exact hwaiting j (List.mem_cons_of_mem _ hj)
    have hmore := ih hrest hlater
    rw [hstore] at hmore
    refine ⟨hmore.1, .cons ?_ hmore.2⟩
    rw [inOrder_cons, progress_inOrder_notMem hi]
    exact hanswer

end Shared

/-- Calls for different resources, whose reads and writes come in any order, can always be brought
to an end; then each has the answer, and the store is the one, that they give one after the other,
in whatever order. -/
theorem interleaving_eq_sequential {ι : Type} [DecidableEq ι] {calls : ι → SyncCall}
    (hcalls : Function.Injective fun i => (calls i).resource) {order : List ι}
    (hnodup : order.Nodup) (hall : ∀ i, i ∈ order) {store : Policies} {s : Shared ι}
    (hrun : Shared.Run calls (.start store) s) :
    (∃ t, Shared.Run calls s t ∧ t.Finished) ∧
      (s.Finished →
        s.store = order.foldl (fun store i => ((calls i).run store).2) store ∧
          List.Forall₂ (fun i r => s.progress i = .answered r.1) order
            (trace (fun i => (calls i).run) order store)) := by
  refine ⟨⟨_, Shared.run_inOrder calls order s, fun i => Shared.answered_inOrder (hall i)⟩, ?_⟩
  intro hfinished
  have hstart := Shared.agrees_start calls store
  have hsequential := Shared.run_inOrder calls order (.start store)
  have heq : s = (Shared.start store).inOrder calls order :=
    (hstart.run hcalls hrun).eq (hstart.run hcalls hsequential) hfinished
      fun i => Shared.answered_inOrder (hall i)
  rw [heq]
  exact Shared.inOrder_waiting hnodup fun _ _ => rfl

/-- Two systems and a stack, of which two have one name. -/
def webCallsAtOnce : Fin 3 → SyncCall
  | 0 => .labels "web" ⟨"server", none, .empty⟩
  | 1 => .labels "db" ⟨"server", none, .empty⟩
  | 2 => .selectors "web" ⟨"group", none, ⟨.ofList [("zone", ["a"])], .empty⟩⟩

/-- A store with a module for one of them that cannot be read. -/
def corruptStore : Policies :=
  .singleton (labelsPath "db") (.singleton Labels.fragment "package")

/-- The calls with all reads before any write. -/
def readsFirst : Shared (Fin 3) :=
  [0, 1, 2, 2, 0].foldl (Shared.advance webCallsAtOnce) (.start corruptStore)

theorem interleaving_eq_sequential_web :
    Function.Injective (fun i => (webCallsAtOnce i).resource) ∧
      Shared.Run webCallsAtOnce (.start corruptStore) readsFirst ∧ readsFirst.Finished ∧
      readsFirst.store =
        [2, 0, 1].foldl (fun store i => ((webCallsAtOnce i).run store).2) corruptStore ∧
      List.Forall₂ (fun i r => readsFirst.progress i = .answered r.1) [2, 0, 1]
        (trace (fun i => (webCallsAtOnce i).run) [2, 0, 1] corruptStore) := by
  have hdistinct : ∀ i j, (webCallsAtOnce i).resource = (webCallsAtOnce j).resource → i = j := by
    decide
  have hinjective : Function.Injective fun i => (webCallsAtOnce i).resource :=
    fun i j h => hdistinct i j h
  have hrun : Shared.Run webCallsAtOnce (.start corruptStore) readsFirst :=
    .trans (.trans (.trans (.trans (Shared.run_advance _ _ 0) (Shared.run_advance _ _ 1))
      (Shared.run_advance _ _ 2)) (Shared.run_advance _ _ 2)) (Shared.run_advance _ _ 0)
  have hfinished : readsFirst.Finished := by
    intro i
    match i with
    | 0 => exact ⟨_, rfl⟩
    | 1 => exact ⟨_, rfl⟩
    | 2 => exact ⟨_, rfl⟩
  have hnodup : [(2 : Fin 3), 0, 1].Nodup := by decide
  have hall : ∀ i, i ∈ [(2 : Fin 3), 0, 1] := by decide
  have hsequential := (interleaving_eq_sequential hinjective hnodup hall hrun).2 hfinished
  exact ⟨hinjective, hrun, hfinished, hsequential⟩

end PolicySync
