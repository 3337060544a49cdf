import Mathlib.Logic.Function.Basic
import PolicySync.Proofs.Equivalence
import PolicySync.Proofs.Labels.RoundTrip
import PolicySync.Proofs.Selectors.RoundTrip
import PolicySync.Store.Memory
import PolicySync.Sync

/-!
# Syncing refines a store of values

Beside a store in memory stands a machine that keeps labels by system and sets of values by stack.
Calls of any kind in any order get the same answers from both, and what is stored at a path decodes
to what the machine keeps under the id.
-/

namespace PolicySync

open PolicySync.Policy

section

variable {α β : Type} {decode : String → Except PolicyError α} {view : α → β}

/-- Whether a store holds, at a path and in a file, a module that decodes to an entry; without entry
nothing is there. -/
def Stored (decode : String → Except PolicyError α) (view : α → β) (path file : String)
    (store : Policies) : Option β → Prop
  | none => store.get? path = none
  | some b => ∃ modules source a, store.get? path = some modules ∧
      modules.get? file = some source ∧ decode source = .ok a ∧ view a = b

/-- Whether a wanted policy is the one for a value: its source decodes to the value, and a source is
current when it decodes to the value. -/
structure WantedPolicy.IsFor (w : WantedPolicy) (decode : String → Except PolicyError α)
    (view : α → β) (desired : β) : Prop where
  source : ∃ a, decode w.source = .ok a ∧ view a = desired
  current : ∀ {source a}, decode source = .ok a →
    ∃ same, w.isCurrent source = .ok same ∧ (same = true ↔ view a = desired)

variable {w : WantedPolicy} {desired : β} {store : Policies} {path file : String}
  {entry : Option β}

theorem Stored.insert_self (hw : w.IsFor decode view desired) :
    Stored decode view w.path w.file (store.insert w.path w.modules) (some desired) := by
  obtain ⟨a, hdecode, hview⟩ := hw.source
  refine ⟨w.modules, w.source, a, ?_, SortedMap.get?_singleton _ _, hdecode, hview⟩
  rw [SortedMap.get?_insert, if_pos rfl]

theorem Stored.insert_ne (hpath : w.path ≠ path) (h : Stored decode view path file store entry) :
    Stored decode view path file (store.insert w.path w.modules) entry := by
  have hget : (store.insert w.path w.modules).get? path = store.get? path := by
    rw [SortedMap.get?_insert, if_neg hpath]
  cases entry with
  | none => exact hget.trans h
  | some b =>
    obtain ⟨modules, source, a, hmodules, hrest⟩ := h
    exact ⟨modules, source, a, hget.trans hmodules, hrest⟩

/-- A sync answers by comparing the entry with the value, and writes unless they are the same. -/
theorem WantedPolicy.sync_stored [DecidableEq β] (hw : w.IsFor decode view desired)
    (h : Stored decode view w.path w.file store entry) :
    w.sync memoryStore store =
      if entry = some desired then (.ok .upToDate, store)
      else (.ok .updated, store.insert w.path w.modules) := by
  rw [sync, memoryStore_get]
  cases entry with
  | none =>
    have hget : store.get? w.path = none := h
    rw [hget]
    rfl
  | some b =>
    obtain ⟨modules, source, a, hmodules, hsource, hdecode, rfl⟩ := h
    obtain ⟨same, hcurrent, hsame⟩ := hw.current hdecode
    rw [hmodules]
    simp only [afterGet, Option.bind_some, hsource, hcurrent, Option.some.injEq, ← hsame]
    cases same <;> rfl

end

/-- A request to bring one policy in line. -/
inductive SyncCall where
  | labels (id : String) (spec : SystemSpec)
  | selectors (id : String) (spec : StackSpec)

namespace SyncCall

def id : SyncCall → String
  | labels id _ => id
  | selectors id _ => id

def wanted : SyncCall → WantedPolicy
  | labels id spec => spec.wanted id
  | selectors id spec => spec.wanted id

def run (c : SyncCall) (store : Policies) : Except SyncError SyncOutcome × Policies :=
  c.wanted.sync memoryStore store

end SyncCall

/-- What was asked for last: labels by system, and sets of values by stack. -/
structure Registry where
  labels : String → Option Labels
  selectors : String → Option (ValueSets × ValueSets)

namespace Registry

def empty : Registry := ⟨fun _ => none, fun _ => none⟩

/-- A call replaces the entry of its id unless it is there already. -/
def step (r : Registry) : SyncCall → SyncOutcome × Registry
  | .labels id spec =>
    if r.labels id = some spec.desiredLabels then (.upToDate, r)
    else (.updated, { r with labels := Function.update r.labels id (some spec.desiredLabels) })
  | .selectors id spec =>
    if r.selectors id = some spec.selectors.sets then (.upToDate, r)
    else
      (.updated, { r with selectors := Function.update r.selectors id (some spec.selectors.sets) })

end Registry

/-- Whether a store holds what a registry says, for every id. -/
structure Represents (store : Policies) (r : Registry) : Prop where
  labels : ∀ name, Stored (Labels.decode name) id (labelsPath name) Labels.fragment store
    (r.labels name)
  selectors : ∀ name, Stored Selectors.decode Selectors.sets (selectorsPath name)
    Selectors.fragment store (r.selectors name)

/-- The answers of calls one after the other, each with the state after it. -/
def trace {γ σ α : Type} (step : γ → σ → α × σ) : List γ → σ → List (α × σ)
  | [], _ => []
  | c :: rest, s => step c s :: trace step rest (step c s).2

theorem isFor_labels {name : String} (hres : reservedWords.contains name = false)
    (hplain : name.toList.all Text.Quoted.isPlain = true) (spec : SystemSpec) :
    (spec.wanted name).IsFor (Labels.decode name) id spec.desiredLabels where
  source := by
    refine ⟨spec.desiredLabels, ?_, rfl⟩
    change Labels.decode name (Labels.render name spec.desiredLabels) = _
    rw [Labels.decode_render, hres, if_neg Bool.false_ne_true, if_pos hplain]
  current {source stored} h := by
    refine ⟨stored.same spec.desiredLabels, ?_, Labels.same_iff⟩
    change (Labels.decode name source).map _ = _
    rw [h]
    rfl

theorem isFor_selectors {name : String} (hres : reservedWords.contains name = false)
    (spec : StackSpec) :
    (spec.wanted name).IsFor Selectors.decode Selectors.sets spec.selectors.sets where
  source := by
    refine ⟨spec.selectors, ?_, rfl⟩
    change Selectors.decode (Selectors.render name spec.selectors) = _
    rw [Selectors.decode_render, hres, if_neg Bool.false_ne_true]
  current {source stored} h := by
    refine ⟨stored.same spec.selectors, ?_, Selectors.same_iff⟩
    change (Selectors.decode source).map _ = _
    rw [h]
    rfl

theorem represents_empty : Represents .empty .empty :=
  ⟨fun _ => rfl, fun _ => rfl⟩

private theorem Represents.insert_labels {store : Policies} {r : Registry} {name : String}
    (hname : IsResourceName name) (spec : SystemSpec) (h : Represents store r) :
    Represents (store.insert (labelsPath name) (spec.wanted name).modules)
      { r with labels := Function.update r.labels name (some spec.desiredLabels) } where
  labels other := by
    dsimp only
    by_cases heq : other = name
    · subst heq
      rw [Function.update_self]
      exact Stored.insert_self (isFor_labels hname.unreserved hname.plain spec)
    · rw [Function.update_of_ne heq]
      exact Stored.insert_ne (w := spec.wanted name)
        (fun hpath => heq (labelsPath_inj hpath).symm) (h.labels other)
  selectors other :=
    Stored.insert_ne (w := spec.wanted name) (labelsPath_ne_selectorsPath name other)
      (h.selectors other)

private theorem Represents.insert_selectors {store : Policies} {r : Registry} {name : String}
    (hname : IsResourceName name) (spec : StackSpec) (h : Represents store r) :
    Represents (store.insert (selectorsPath name) (spec.wanted name).modules)
      { r with selectors := Function.update r.selectors name (some spec.selectors.sets) } where
  labels other :=
    Stored.insert_ne (w := spec.wanted name)
      (fun hpath => labelsPath_ne_selectorsPath other name hpath.symm) (h.labels other)
  selectors other := by
    dsimp only
    by_cases heq : other = name
    · subst heq
      rw [Function.update_self]
      exact Stored.insert_self (isFor_selectors hname.unreserved spec)
    · rw [Function.update_of_ne heq]
      exact Stored.insert_ne (w := spec.wanted name)
        (fun hpath => heq (selectorsPath_inj hpath).symm) (h.selectors other)

/-- One call gets the same answer from the store and the registry, and keeps them in line. -/
theorem SyncCall.run_refines {store : Policies} {r : Registry} {c : SyncCall}
    (hc : IsResourceName c.id) (h : Represents store r) :
    (c.run store).1 = .ok (r.step c).1 ∧ Represents (c.run store).2 (r.step c).2 := by
  cases c with
  | labels name spec =>
    have hsync : (SyncCall.labels name spec).run store = _ :=
      WantedPolicy.sync_stored (isFor_labels hc.unreserved hc.plain spec) (h.labels name)
    rw [hsync, Registry.step]
    split
    · exact ⟨rfl, h⟩
    · exact ⟨rfl, h.insert_labels hc spec⟩
  | selectors name spec =>
    have hsync : (SyncCall.selectors name spec).run store = _ :=
      WantedPolicy.sync_stored (isFor_selectors hc.unreserved spec) (h.selectors name)
    rw [hsync, Registry.step]
    split
    · exact ⟨rfl, h⟩
    · exact ⟨rfl, h.insert_selectors hc spec⟩

private theorem trace_refines {store : Policies} {r : Registry} {calls : List SyncCall}
    (hcalls : ∀ c ∈ calls, IsResourceName c.id) (h : Represents store r) :
    List.Forall₂ (fun concrete abstract => concrete.1 = .ok abstract.1 ∧
        Represents concrete.2 abstract.2)
      (trace SyncCall.run calls store) (trace (fun c r => r.step c) calls r) := by
  induction calls generalizing store r with
  | nil => exact .nil
  | cons c rest ih =>
    have hstep := SyncCall.run_refines (hcalls c List.mem_cons_self) h
    exact .cons hstep (ih (fun d hd => hcalls d (List.mem_cons_of_mem _ hd)) hstep.2)

/-- From an empty store, no call fails, each is answered as the registry answers it, and after each
the modules that are stored decode to the entries of the registry. -/
theorem sync_refines (calls : List SyncCall) (hcalls : ∀ c ∈ calls, IsResourceName c.id) :
    List.Forall₂ (fun concrete abstract => concrete.1 = .ok abstract.1 ∧
        Represents concrete.2 abstract.2)
      (trace SyncCall.run calls .empty) (trace (fun c r => r.step c) calls .empty) :=
  trace_refines hcalls represents_empty

/-- Calls for a system and a stack of one name, with a change and a repetition. -/
def webCalls : List SyncCall :=
  [.labels "web-1.a" ⟨"server", none, .empty⟩,
    .selectors "web-1.a" ⟨"group", none, ⟨.ofList [("zone", ["a", "b", "a"])], .empty⟩⟩,
    .labels "web-1.a" ⟨"proxy", none, .empty⟩,
    .selectors "web-1.a" ⟨"group", none, ⟨.ofList [("zone", ["b", "a"])], .empty⟩⟩]

theorem sync_refines_web :
    (∀ c ∈ webCalls, IsResourceName c.id) ∧
      List.Forall₂ (fun concrete abstract => concrete.1 = .ok abstract.1 ∧
          Represents concrete.2 abstract.2)
        (trace SyncCall.run webCalls .empty) (trace (fun c r => r.step c) webCalls .empty) :=
  ⟨by decide, sync_refines webCalls (by decide)⟩

end PolicySync
