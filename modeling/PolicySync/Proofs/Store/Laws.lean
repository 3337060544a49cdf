import PolicySync.Proofs.Sync.Call
import PolicySync.Store.Http

/-!
# What stores have in common

A store keeps policies when a read shows what is there and a write that is accepted puts one policy
in its place. It is local when each of its operations sees and changes nothing but what belongs to
one path. A store that refuses some requests for good is both, and stays local when its calls are
recorded.
-/

namespace PolicySync

variable {σ γ : Type}

/-- Whether a store keeps the policies that a view shows. Calls that it refuses change nothing. -/
structure PolicyStore.KeepsPolicies (store : PolicyStore σ) (view : σ → Policies) : Prop where
  get_ok : ∀ {path s observed}, (store.get path s).1 = .ok observed →
    observed = (view s).get? path
  get_view : ∀ path s, view (store.get path s).2 = view s
  put_ok : ∀ {path modules s}, (store.put path modules s).1 = .ok () →
    view (store.put path modules s).2 = (view s).insert path modules
  put_error : ∀ {path modules s e}, (store.put path modules s).1 = .error e →
    view (store.put path modules s).2 = view s

/-- Whether the operations at a path leave the cells of all other paths as they are. -/
structure PolicyStore.LeavesOthers (store : PolicyStore σ) (cell : String → σ → γ) : Prop where
  get_frame : ∀ {path other : String}, path ≠ other → ∀ s,
    cell other (store.get path s).2 = cell other s
  put_frame : ∀ {path other : String}, path ≠ other → ∀ modules s,
    cell other (store.put path modules s).2 = cell other s

/-- Whether, besides, they depend on nothing but the cell of the path. -/
structure PolicyStore.IsLocal (store : PolicyStore σ) (cell : String → σ → γ) : Prop extends
    store.LeavesOthers cell where
  get_congr : ∀ {path s t}, cell path s = cell path t →
    (store.get path s).1 = (store.get path t).1 ∧
      cell path (store.get path s).2 = cell path (store.get path t).2
  put_congr : ∀ {path s t}, cell path s = cell path t → ∀ modules,
    (store.put path modules s).1 = (store.put path modules t).1 ∧
      cell path (store.put path modules s).2 = cell path (store.put path modules t).2

theorem PolicyStore.KeepsPolicies.leavesOthers {store : PolicyStore σ} {view : σ → Policies}
    (h : store.KeepsPolicies view) : store.LeavesOthers fun path s => (view s).get? path where
  get_frame {path other} _ s := by rw [h.get_view]
  put_frame {path other} hne modules s := by
    cases hput : (store.put path modules s).1 with
    | error e => rw [h.put_error hput]
    | ok u => rw [h.put_ok hput, SortedMap.get?_insert, if_neg hne]

/-- The requests that are refused, with what they are told. -/
structure Refusals where
  get : String → Option StoreError
  put : String → Option StoreError

/-- The policies behind refusals that never end. -/
def refusingStore (refusals : Refusals) : PolicyStore Policies where
  get path policies :=
    match refusals.get path with
    | some e => (.error e, policies)
    | none => memoryStore.get path policies
  put path modules policies :=
    match refusals.put path with
    | some e => (.error e, policies)
    | none => memoryStore.put path modules policies

theorem keepsPolicies_memoryStore : memoryStore.KeepsPolicies id where
  get_ok h := (Except.ok.inj h).symm
  get_view _ _ := rfl
  put_ok _ := rfl
  put_error h := nomatch h

theorem keepsPolicies_refusingStore (refusals : Refusals) :
    (refusingStore refusals).KeepsPolicies id where
  get_ok {path s observed} h := by
    simp only [refusingStore] at h
    split at h
    · cases h
    · exact keepsPolicies_memoryStore.get_ok h
  get_view path s := by
    simp only [refusingStore]
    split <;> rfl
  put_ok {path modules s} h := by
    simp only [refusingStore] at h ⊢
    split at h
    · cases h
    · rfl
  put_error {path modules s e} h := by
    simp only [refusingStore] at h ⊢
    split at h
    · rfl
    · cases h

theorem isLocal_refusingStore (refusals : Refusals) :
    (refusingStore refusals).IsLocal fun path policies => policies.get? path where
  toLeavesOthers := (keepsPolicies_refusingStore refusals).leavesOthers
  get_congr {path s t} h := by
    simp only [refusingStore]
    cases refusals.get path with
    | some e => exact ⟨rfl, h⟩
    | none => exact ⟨congrArg Except.ok h, h⟩
  put_congr {path s t} h modules := by
    simp only [refusingStore]
    cases refusals.put path with
    | some e => exact ⟨rfl, h⟩
    | none =>
      refine ⟨rfl, ?_⟩
      simp only [memoryStore_put, SortedMap.get?_insert, if_pos]

/-- A call that came in, and whether it was accepted. -/
structure StoreCall where
  method : Method
  path : String
  accepted : Bool
  deriving DecidableEq, Repr

namespace StoreCall

def ofGet (path : String) (answer : Except StoreError (Option PolicyModules)) : StoreCall :=
  ⟨.get, path, answer.isOk⟩

def ofPut (path : String) (answer : Except StoreError Unit) : StoreCall :=
  ⟨.put, path, answer.isOk⟩

def isWrite (c : StoreCall) : Bool := c.method = .put && c.accepted

end StoreCall

/-- A store that keeps a list of the calls. -/
def recording (store : PolicyStore σ) : PolicyStore (σ × List StoreCall) where
  get path s :=
    let (answer, t) := store.get path s.1
    (answer, t, s.2 ++ [.ofGet path answer])
  put path modules s :=
    let (answer, t) := store.put path modules s.1
    (answer, t, s.2 ++ [.ofPut path answer])

section

variable (store : PolicyStore σ) (path : String) (modules : PolicyModules)
  (s : σ × List StoreCall)

theorem recording_get : (recording store).get path s =
    ((store.get path s.1).1, (store.get path s.1).2, s.2 ++ [.ofGet path (store.get path s.1).1]) :=
  rfl

theorem recording_put : (recording store).put path modules s =
    ((store.put path modules s.1).1, (store.put path modules s.1).2,
      s.2 ++ [.ofPut path (store.put path modules s.1).1]) :=
  rfl

end

def callsAt (path : String) (calls : List StoreCall) : List StoreCall :=
  calls.filter (·.path = path)

theorem callsAt_append (path : String) (calls : List StoreCall) (c : StoreCall) :
    callsAt path (calls ++ [c]) = callsAt path calls ++ if c.path = path then [c] else [] := by
  by_cases h : c.path = path <;> simp [callsAt, List.filter_append, h]

variable {store : PolicyStore σ}

/-- To the cell of a path belong the calls at the path. -/
theorem PolicyStore.IsLocal.recording {cell : String → σ → γ} (h : store.IsLocal cell) :
    (recording store).IsLocal fun path s => (cell path s.1, callsAt path s.2) where
  get_congr {path s t} hcell := by
    obtain ⟨hpolicy, hcalls⟩ := Prod.mk.inj hcell
    obtain ⟨hanswer, hafter⟩ := h.get_congr hpolicy
    simp only [recording_get, callsAt_append, hanswer, hafter, hcalls, and_self]
  get_frame {path other} hne s := by
    simp only [recording_get, callsAt_append, StoreCall.ofGet, h.get_frame hne, if_neg hne,
      List.append_nil]
  put_congr {path s t} hcell modules := by
    obtain ⟨hpolicy, hcalls⟩ := Prod.mk.inj hcell
    obtain ⟨hanswer, hafter⟩ := h.put_congr hpolicy modules
    simp only [recording_put, callsAt_append, hanswer, hafter, hcalls, and_self]
  put_frame {path other} hne modules s := by
    simp only [recording_put, callsAt_append, StoreCall.ofPut, h.put_frame hne, if_neg hne,
      List.append_nil]

end PolicySync
