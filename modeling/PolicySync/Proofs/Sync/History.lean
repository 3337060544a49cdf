import PolicySync.Proofs.Store.Laws

/-!
# Syncs in a history of the store

A history is any sequence of syncs, reads, writes and failures that are planned for the next read or
write, over one store with any contents. Wherever a sync stands in it, it reads once, writes at most
once, and either puts its own module alone at its path or leaves all policies as they are.
-/

namespace PolicySync

open PolicySync.Policy

/-- What a sync came to: its answer, the calls that it made, and the store after it. -/
structure Attempt where
  answer : Except SyncError SyncOutcome
  calls : List StoreCall
  after : FaultyPolicies

namespace SyncCall

def path (c : SyncCall) : String := policyPath c.resource

def file : SyncCall → String
  | labels _ _ => Labels.fragment
  | selectors _ _ => Selectors.fragment

/-- The text of the module that a call asks for. -/
def rendered : SyncCall → String
  | labels id spec => Labels.render id spec.desiredLabels
  | selectors id spec => Selectors.render id spec.selectors

/-- What a call is told about its module when it reads the store. -/
def found (c : SyncCall) (s : FaultyPolicies) : Except StoreError (Option String) :=
  (faultyStore.get c.path s).1.map fun observed =>
    observed.bind fun modules => modules.get? c.file

def IsCorrupt : SyncCall → String → Prop
  | labels id _, source => ∃ e, Labels.decode id source = .error e
  | selectors _ _, source => ∃ e, Selectors.decode source = .error e

/-- Whether a text decodes to something else than what a call asks for. -/
def IsOutdated : SyncCall → String → Prop
  | labels id spec, source => ∃ stored, Labels.decode id source = .ok stored ∧
      stored ≠ spec.desiredLabels
  | selectors _ spec, source => ∃ stored, Selectors.decode source = .ok stored ∧
      stored.sets ≠ spec.selectors.sets

def attempt (c : SyncCall) (s : FaultyPolicies) : Attempt :=
  let (answer, after, calls) := c.wanted.sync (recording faultyStore) (s, [])
  ⟨answer, calls, after⟩

/-- What holds of every sync: which calls it makes, when it fails and with what, and what is stored
afterwards. -/
structure IsAllOrNothing (c : SyncCall) (s : FaultyPolicies) (a : Attempt) : Prop where
  /-- Keeping a list of the calls changes nothing. -/
  unobserved : c.wanted.sync faultyStore s = (a.answer, a.after)
  calls_path : ∀ call ∈ a.calls, call.path = c.path
  reads_once : (a.calls.filter fun call => call.method = .get) =
    [⟨.get, c.path, (c.found s).isOk⟩]
  writes_once : (a.calls.filter fun call => call.method = .put).length ≤ 1
  writes_iff : (∃ call ∈ a.calls, call.method = .put) ↔
    c.found s = .ok none ∨ ∃ source, c.found s = .ok (some source) ∧ c.IsOutdated source
  storeError_iff : (∃ e, a.answer = .error (.store e)) ↔ ∃ call ∈ a.calls, call.accepted = false
  policyError_iff : (∃ e, a.answer = .error (.policy e)) ↔
    ∃ source, c.found s = .ok (some source) ∧ c.IsCorrupt source
  unchanged : a.answer ≠ .ok .updated → a.after.policies = s.policies
  replaced : a.answer = .ok .updated →
    a.after.policies.get? c.path = some (.singleton c.file c.rendered) ∧
      ∀ path, path ≠ c.path → a.after.policies.get? path = s.policies.get? path

variable {c : SyncCall} {s : FaultyPolicies} {a : Attempt} {source : String}

/-! ## What a stored text says to a call -/

theorem wanted_modules (c : SyncCall) : c.wanted.modules = .singleton c.file c.rendered := by
  cases c <;> rfl

theorem wanted_file (c : SyncCall) : c.wanted.file = c.file := by
  cases c <;> rfl

theorem isCorrupt_iff :
    c.IsCorrupt source ↔ ∃ e, c.wanted.isCurrent source = .error e := by
  cases c with
  | labels id spec =>
    change _ ↔ ∃ e, (Labels.decode id source).map _ = .error e
    cases hdecode : Labels.decode id source <;> simp [IsCorrupt, hdecode, Except.map]
  | selectors id spec =>
    change _ ↔ ∃ e, (Selectors.decode source).map _ = .error e
    cases hdecode : Selectors.decode source <;> simp [IsCorrupt, hdecode, Except.map]

theorem isOutdated_iff : c.IsOutdated source ↔ c.wanted.isCurrent source = .ok false := by
  cases c with
  | labels id spec =>
    change _ ↔ (Labels.decode id source).map _ = .ok false
    cases hdecode : Labels.decode id source with
    | error e => simp [IsOutdated, hdecode, Except.map]
    | ok stored =>
      have hsame : stored ≠ spec.desiredLabels ↔ stored.same spec.desiredLabels = false := by
        rw [ne_eq, ← Labels.same_iff, Bool.not_eq_true]
      simp [IsOutdated, hdecode, Except.map, hsame]
  | selectors id spec =>
    change _ ↔ (Selectors.decode source).map _ = .ok false
    cases hdecode : Selectors.decode source with
    | error e => simp [IsOutdated, hdecode, Except.map]
    | ok stored =>
      have hsame : stored.sets ≠ spec.selectors.sets ↔ stored.same spec.selectors = false := by
        rw [ne_eq, ← Selectors.same_iff, Bool.not_eq_true]
      simp [IsOutdated, hdecode, Except.map, hsame]

/-! ## The ways a sync can go -/

/-- All that a sync can come to. -/
inductive ComesTo (c : SyncCall) (s : FaultyPolicies) : Attempt → Prop
  | unread (e : StoreError) (hfound : c.found s = .error e) :
      c.ComesTo s ⟨.error (.store e), [⟨.get, c.path, false⟩], { s with getRefusal := none }⟩
  | unreadable (source : String) (e : PolicyError) (hfound : c.found s = .ok (some source))
      (hcurrent : c.wanted.isCurrent source = .error e) :
      c.ComesTo s ⟨.error (.policy e), [⟨.get, c.path, true⟩], s⟩
  | current (source : String) (hfound : c.found s = .ok (some source))
      (hcurrent : c.wanted.isCurrent source = .ok true) :
      c.ComesTo s ⟨.ok .upToDate, [⟨.get, c.path, true⟩], s⟩
  | unwritten (e : StoreError) (found : Option String) (hfound : c.found s = .ok found)
      (hdue : ∀ source ∈ found, c.wanted.isCurrent source = .ok false) :
      c.ComesTo s ⟨.error (.store e), [⟨.get, c.path, true⟩, ⟨.put, c.path, false⟩],
        { s with putRefusal := none }⟩
  | written (found : Option String) (hfound : c.found s = .ok found)
      (hdue : ∀ source ∈ found, c.wanted.isCurrent source = .ok false) :
      c.ComesTo s ⟨.ok .updated, [⟨.get, c.path, true⟩, ⟨.put, c.path, true⟩],
        { s with policies := s.policies.insert c.path (.singleton c.file c.rendered) }⟩

section

variable {policies : Policies} {putRefusal : Option Refusal}

private theorem attempt_settled {answer : Except SyncError SyncOutcome}
    (h : c.wanted.afterGet (.ok (policies.get? c.path)) = some answer) :
    c.attempt ⟨policies, none, putRefusal⟩ =
      ⟨answer, [⟨.get, c.path, true⟩], ⟨policies, none, putRefusal⟩⟩ := by
  simp only [attempt, WantedPolicy.sync, recording_get, faultyStore, wanted_path]
  rw [← path, h]
  rfl

private theorem attempt_writing (h : c.wanted.afterGet (.ok (policies.get? c.path)) = none) :
    c.attempt ⟨policies, none, putRefusal⟩ =
      match putRefusal with
      | some r => ⟨.error (.store (r.error c.path)),
          [⟨.get, c.path, true⟩, ⟨.put, c.path, false⟩], ⟨policies, none, none⟩⟩
      | none => ⟨.ok .updated, [⟨.get, c.path, true⟩, ⟨.put, c.path, true⟩],
          ⟨policies.insert c.path (.singleton c.file c.rendered), none, none⟩⟩ := by
  simp only [attempt, WantedPolicy.sync, recording_get, recording_put, faultyStore, wanted_path]
  rw [← path, h, ← wanted_modules]
  cases putRefusal <;> rfl

private theorem comesTo_writing {found : Option String}
    (hfound : c.found ⟨policies, none, putRefusal⟩ = .ok found)
    (hdue : ∀ source ∈ found, c.wanted.isCurrent source = .ok false)
    (h : c.wanted.afterGet (.ok (policies.get? c.path)) = none) :
    c.ComesTo ⟨policies, none, putRefusal⟩ (c.attempt ⟨policies, none, putRefusal⟩) := by
  rw [attempt_writing h]
  cases putRefusal with
  | some r => exact .unwritten (r.error c.path) found hfound hdue
  | none => exact .written found hfound hdue

end

theorem comesTo_attempt (c : SyncCall) (s : FaultyPolicies) : c.ComesTo s (c.attempt s) := by
  obtain ⟨policies, getRefusal, putRefusal⟩ := s
  cases getRefusal with
  | some r =>
    have hattempt : c.attempt ⟨policies, some r, putRefusal⟩ =
        ⟨.error (.store (r.error c.path)), [⟨.get, c.path, false⟩],
          ⟨policies, none, putRefusal⟩⟩ := by
      simp only [attempt, WantedPolicy.sync, recording_get, faultyStore, wanted_path]
      rfl
    rw [hattempt]
    exact .unread (r.error c.path) rfl
  | none =>
    have hfound : c.found ⟨policies, none, putRefusal⟩ =
        .ok ((policies.get? c.path).bind fun modules => modules.get? c.file) := rfl
    cases hstored : (policies.get? c.path).bind fun modules => modules.get? c.file with
    | none =>
      rw [hstored] at hfound
      rw [← wanted_file] at hstored
      have hafter : c.wanted.afterGet (.ok (policies.get? c.path)) = none := by
        simp only [WantedPolicy.afterGet, hstored]
      exact comesTo_writing hfound
        (fun source h => absurd h (Option.some_ne_none source).symm) hafter
    | some source =>
      rw [hstored] at hfound
      rw [← wanted_file] at hstored
      cases hcurrent : c.wanted.isCurrent source with
      | error e =>
        have hafter : c.wanted.afterGet (.ok (policies.get? c.path)) =
            some (.error (.policy e)) := by
          simp only [WantedPolicy.afterGet, hstored, hcurrent]
        rw [attempt_settled hafter]
        exact .unreadable source e hfound hcurrent
      | ok same => cases same with
        | true =>
          have hafter : c.wanted.afterGet (.ok (policies.get? c.path)) =
              some (.ok .upToDate) := by
            simp only [WantedPolicy.afterGet, hstored, hcurrent]
          rw [attempt_settled hafter]
          exact .current source hfound hcurrent
        | false =>
          have hafter : c.wanted.afterGet (.ok (policies.get? c.path)) = none := by
            simp only [WantedPolicy.afterGet, hstored, hcurrent]
          refine comesTo_writing hfound (fun other h => ?_) hafter
          obtain rfl := Option.some.inj h
          exact hcurrent

namespace ComesTo

theorem writes_iff (h : c.ComesTo s a) :
    (∃ call ∈ a.calls, call.method = .put) ↔
      c.found s = .ok none ∨ ∃ source, c.found s = .ok (some source) ∧ c.IsOutdated source := by
  simp only [isOutdated_iff]
  -- a write is made when what was read is due for replacement, and then only
  have hwrites {found : Option String} (hfound : c.found s = .ok found)
      (hdue : ∀ source ∈ found, c.wanted.isCurrent source = .ok false) :
      c.found s = .ok none ∨
        ∃ source, c.found s = .ok (some source) ∧ c.wanted.isCurrent source = .ok false := by
    cases found with
    | none => exact .inl hfound
    | some source => exact .inr ⟨source, hfound, hdue source rfl⟩
  cases h with
  | unread e hfound => simp [hfound]
  | unreadable source e hfound hcurrent => simp [hfound, hcurrent]
  | current source hfound hcurrent => simp [hfound, hcurrent]
  | unwritten e found hfound hdue => exact ⟨fun _ => hwrites hfound hdue, fun _ => by simp⟩
  | written found hfound hdue => exact ⟨fun _ => hwrites hfound hdue, fun _ => by simp⟩

theorem policyError_iff (h : c.ComesTo s a) :
    (∃ e, a.answer = .error (.policy e)) ↔
      ∃ source, c.found s = .ok (some source) ∧ c.IsCorrupt source := by
  simp only [isCorrupt_iff]
  -- a module that is due for replacement could be read
  have hreadable {found : Option String} (hfound : c.found s = .ok found)
      (hdue : ∀ source ∈ found, c.wanted.isCurrent source = .ok false) :
      ¬ ∃ source, c.found s = .ok (some source) ∧ ∃ e, c.wanted.isCurrent source = .error e := by
    rintro ⟨source, hsource, e, hcorrupt⟩
    obtain rfl := Except.ok.inj (hfound.symm.trans hsource)
    rw [hdue source rfl] at hcorrupt
    cases hcorrupt
  cases h with
  | unread e hfound => simp [hfound]
  | unreadable source e hfound hcurrent => simp [hfound, hcurrent]
  | current source hfound hcurrent => simp [hfound, hcurrent]
  | unwritten e found hfound hdue => simp [hreadable hfound hdue]
  | written found hfound hdue => simp [hreadable hfound hdue]

theorem unchanged (h : c.ComesTo s a) (hanswer : a.answer ≠ .ok .updated) :
    a.after.policies = s.policies := by
  cases h with
  | unread | unreadable | current | unwritten => rfl
  | written => exact absurd rfl hanswer

theorem replaced (h : c.ComesTo s a) (hanswer : a.answer = .ok .updated) :
    a.after.policies.get? c.path = some (.singleton c.file c.rendered) ∧
      ∀ path, path ≠ c.path → a.after.policies.get? path = s.policies.get? path := by
  cases h with
  | unread | unreadable | current | unwritten => cases hanswer
  | written =>
    refine ⟨?_, fun path hpath => ?_⟩
    · rw [SortedMap.get?_insert, if_pos rfl]
    · rw [SortedMap.get?_insert, if_neg hpath.symm]

end ComesTo

theorem attempt_unobserved (c : SyncCall) (s : FaultyPolicies) :
    c.wanted.sync faultyStore s = ((c.attempt s).answer, (c.attempt s).after) := by
  simp only [attempt, WantedPolicy.sync, recording_get, recording_put]
  cases c.wanted.afterGet (faultyStore.get c.wanted.path s).1 <;> rfl

theorem isAllOrNothing_attempt (c : SyncCall) (s : FaultyPolicies) :
    c.IsAllOrNothing s (c.attempt s) := by
  have hunobserved := c.attempt_unobserved s
  have hcomes := c.comesTo_attempt s
  generalize c.attempt s = a at hunobserved hcomes
  have hcalls : (∀ call ∈ a.calls, call.path = c.path) ∧
      (a.calls.filter fun call => call.method = .get) = [⟨.get, c.path, (c.found s).isOk⟩] ∧
      (a.calls.filter fun call => call.method = .put).length ≤ 1 := by
    cases hcomes with
    | unread e hfound => simp [hfound, Except.isOk, Except.toBool]
    | unreadable source e hfound => simp [hfound, Except.isOk, Except.toBool]
    | current source hfound => simp [hfound, Except.isOk, Except.toBool]
    | unwritten e found hfound => simp [hfound, Except.isOk, Except.toBool]
    | written found hfound => simp [hfound, Except.isOk, Except.toBool]
  have hrefused : (∃ e, a.answer = .error (.store e)) ↔
      ∃ call ∈ a.calls, call.accepted = false := by
    cases hcomes with
    | unread | unreadable | current | unwritten | written => simp
  exact ⟨hunobserved, hcalls.1, hcalls.2.1, hcalls.2.2, hcomes.writes_iff, hrefused,
    hcomes.policyError_iff, hcomes.unchanged, hcomes.replaced⟩

end SyncCall

/-! ## Histories -/

/-- What can be done to a store. A failure that is planned waits for the next call of its kind. -/
inductive StoreAction where
  | sync (c : SyncCall)
  | get (path : String)
  | put (path : String) (modules : PolicyModules)
  | failGet (r : Refusal)
  | failPut (r : Refusal)

/-- What was done, and what came of it. -/
inductive StoreEvent where
  | synced (c : SyncCall) (before : FaultyPolicies) (a : Attempt)
  | got (path : String) (answer : Except StoreError (Option PolicyModules))
  | put (path : String) (modules : PolicyModules) (answer : Except StoreError Unit)
  | planned

/-- The policy that an event replaced: a sync says so by its answer. -/
def StoreEvent.write? : StoreEvent → Option (String × PolicyModules)
  | .synced c _ ⟨.ok .updated, _, _⟩ => some (c.path, .singleton c.file c.rendered)
  | .put path modules (.ok ()) => some (path, modules)
  | _ => none

def StoreAction.run (s : FaultyPolicies) : StoreAction → StoreEvent × FaultyPolicies
  | .sync c => (.synced c s (c.attempt s), (c.attempt s).after)
  | .get path =>
    let (answer, t) := faultyStore.get path s
    (.got path answer, t)
  | .put path modules =>
    let (answer, t) := faultyStore.put path modules s
    (.put path modules answer, t)
  | .failGet r => (.planned, { s with getRefusal := some r })
  | .failPut r => (.planned, { s with putRefusal := some r })

/-- The events of actions one after the other, and the store at the end. -/
def history : List StoreAction → FaultyPolicies → List StoreEvent × FaultyPolicies
  | [], s => ([], s)
  | action :: rest, s =>
    let (event, t) := action.run s
    let (events, last) := history rest t
    (event :: events, last)

theorem StoreAction.run_policies (action : StoreAction) (s : FaultyPolicies) :
    (action.run s).2.policies =
      match (action.run s).1.write? with
      | none => s.policies
      | some (path, modules) => s.policies.insert path modules := by
  cases action with
  | sync c =>
    have hcomes := c.comesTo_attempt s
    simp only [run]
    generalize c.attempt s = a at hcomes
    cases hcomes with
    | unread | unreadable | current | unwritten | written => rfl
  | get path =>
    simp only [run, faultyStore]
    cases s.getRefusal <;> rfl
  | put path modules =>
    simp only [run, faultyStore]
    cases s.putRefusal <;> rfl
  | failGet r => rfl
  | failPut r => rfl

theorem history_policies (actions : List StoreAction) (s : FaultyPolicies) :
    (history actions s).2.policies =
      ((history actions s).1.filterMap StoreEvent.write?).foldl (fun policies w =>
        policies.insert w.1 w.2) s.policies := by
  induction actions generalizing s with
  | nil => rfl
  | cons action rest ih =>
    have hstep := action.run_policies s
    simp only [history, List.filterMap_cons]
    rw [ih, hstep]
    cases (action.run s).1.write? <;> rfl

theorem attempt_of_mem_history {actions : List StoreAction} {s t : FaultyPolicies} {c : SyncCall}
    {a : Attempt} (h : .synced c t a ∈ (history actions s).1) : a = c.attempt t := by
  induction actions generalizing s with
  | nil => cases h
  | cons action rest ih =>
    rcases List.mem_cons.mp h with hfirst | hrest
    · cases action with
      | sync d =>
        cases hfirst
        rfl
      | get | put | failGet | failPut => cases hfirst
    · exact ih hrest

/-- Whatever came before it and whatever is stored, a sync reads once, writes at most once and fails
exactly when a call of its own or the stored module does; it leaves its own module alone at its
path, or all policies as they are. What a history leaves is what its accepted writes put there. -/
theorem sync_all_or_nothing (actions : List StoreAction) (s : FaultyPolicies) :
    (∀ c t a, .synced c t a ∈ (history actions s).1 → c.IsAllOrNothing t a) ∧
      (history actions s).2.policies =
        ((history actions s).1.filterMap StoreEvent.write?).foldl (fun policies w =>
          policies.insert w.1 w.2) s.policies := by
  refine ⟨fun c t a h => ?_, history_policies actions s⟩
  rw [attempt_of_mem_history h]
  exact c.isAllOrNothing_attempt t

/-- A system whose module cannot be read, and a stack whose first write fails. -/
def unluckyActions : List StoreAction :=
  [.sync (.labels "db" ⟨"server", none, .empty⟩),
    .failPut ⟨503, "busy"⟩,
    .sync (.selectors "web" ⟨"group", none, .empty⟩),
    .sync (.selectors "web" ⟨"group", none, .empty⟩)]

def brokenPolicies : FaultyPolicies :=
  ⟨.singleton (labelsPath "db") (.singleton Labels.fragment "package"), none, none⟩

theorem sync_all_or_nothing_unlucky :
    ∃ t a, .synced (.selectors "web" ⟨"group", none, .empty⟩) t a ∈
        (history unluckyActions brokenPolicies).1 ∧
      a.answer = .error (.store (.status (selectorsPath "web") 503 "busy")) ∧
      SyncCall.IsAllOrNothing (.selectors "web" ⟨"group", none, .empty⟩) t a := by
  have hmem : .synced (.selectors "web" ⟨"group", none, .empty⟩)
      { brokenPolicies with putRefusal := some ⟨503, "busy"⟩ }
      ⟨.error (.store (.status (selectorsPath "web") 503 "busy")),
        [⟨.get, selectorsPath "web", true⟩, ⟨.put, selectorsPath "web", false⟩], brokenPolicies⟩ ∈
      (history unluckyActions brokenPolicies).1 := .tail _ (.tail _ (.head _))
  exact ⟨_, _, hmem, rfl, (sync_all_or_nothing unluckyActions brokenPolicies).1 _ _ _ hmem⟩

example : ((history unluckyActions brokenPolicies).1.filterMap fun
      | .synced _ _ a => some a.answer
      | _ => none) =
    [.error (.policy (.malformed Labels.fragment)),
      .error (.store (.status (selectorsPath "web") 503 "busy")), .ok .updated] := by
  rfl

end PolicySync
