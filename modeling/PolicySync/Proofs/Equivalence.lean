import Mathlib.Data.Finset.Basic
import PolicySync.Labels
import PolicySync.Proofs.Data.SortedMap
import PolicySync.Selectors

/-!
# When two policies say the same

Labels say the same when they are the same map. Selectors say the same when each key stands for the
same set of values in both.
-/

namespace PolicySync

theorem Labels.same_iff {a b : Labels} : a.same b = true ↔ a = b := by
  constructor
  · intro h
    rw [Labels.same, Bool.and_eq_true, decide_eq_true_eq, List.all_eq_true] at h
    refine SortedMap.eq_of_subset h.1 fun e he => ?_
    exact SortedMap.get?_eq_some.mp (of_decide_eq_true (h.2 e he))
  · rintro rfl
    rw [Labels.same, Bool.and_eq_true, decide_eq_true_eq, List.all_eq_true]
    exact ⟨rfl, fun e he => decide_eq_true (SortedMap.get?_eq_some.mpr he)⟩

/-- Sets of values by key. -/
abbrev ValueSets := SortedMap (Finset String)

namespace Selector

/-- A selector without the order and the number of its values. -/
def sets (s : Selector) : ValueSets := s.mapValues fun _ values => values.toFinset

theorem sameMembers_iff {a b : List String} :
    sameMembers a b = true ↔ a.toFinset = b.toFinset := by
  simp only [sameMembers, Bool.and_eq_true, List.all_eq_true, List.contains_iff_mem,
    Finset.ext_iff, List.mem_toFinset]
  constructor
  · intro h v
    exact ⟨h.1 v, h.2 v⟩
  · intro h
    exact ⟨fun v hv => (h v).mp hv, fun v hv => (h v).mpr hv⟩

private theorem get?_sets (s : Selector) (key : String) :
    s.sets.get? key = (s.get? key).map List.toFinset :=
  SortedMap.get?_mapValues _ s key

private theorem mem_sets {s : Selector} {e : String × List String} (h : e ∈ s.entries) :
    (e.1, e.2.toFinset) ∈ s.sets.entries := by
  rw [← SortedMap.get?_eq_some, get?_sets, SortedMap.get?_eq_some.mpr h]
  rfl

theorem same_iff {a b : Selector} : a.same b = true ↔ a.sets = b.sets := by
  rw [same, Bool.and_eq_true, decide_eq_true_eq, List.all_eq_true]
  have hsize (s : Selector) : s.sets.size = s.size := List.length_map _
  constructor
  · rintro ⟨hs, hall⟩
    -- keys are distinct, so that one inclusion between maps of one size is enough
    refine SortedMap.eq_of_subset (by rw [hsize, hsize, hs]) fun f hf => ?_
    obtain ⟨e, he, rfl⟩ := List.mem_map.mp hf
    have hsame := hall e he
    cases hget : b.get? e.1 with
    | none => rw [hget] at hsame; cases hsame
    | some values =>
      rw [hget] at hsame
      change (e.1, e.2.toFinset) ∈ b.sets.entries
      rw [sameMembers_iff.mp hsame]
      exact mem_sets (SortedMap.get?_eq_some.mp hget)
  · intro h
    refine ⟨by rw [← hsize, ← hsize, h], fun e he => ?_⟩
    have hget : (b.get? e.1).map List.toFinset = some e.2.toFinset := by
      rw [← get?_sets, ← h, SortedMap.get?_eq_some]
      exact mem_sets he
    obtain ⟨values, hvalues, hset⟩ := Option.map_eq_some_iff.mp hget
    rw [hvalues]
    exact sameMembers_iff.mpr hset.symm

end Selector

namespace Selectors

/-- Both groups as sets. -/
def sets (s : Selectors) : ValueSets × ValueSets := (s.incl.sets, s.excl.sets)

theorem same_iff {a b : Selectors} : a.same b = true ↔ a.sets = b.sets := by
  rw [same, Bool.and_eq_true, Selector.same_iff, Selector.same_iff, sets, sets, Prod.mk.injEq]

theorem same_equivalence : Equivalence fun a b : Selectors => a.same b = true where
  refl _ := same_iff.mpr rfl
  symm h := same_iff.mpr (same_iff.mp h).symm
  trans h₁ h₂ := same_iff.mpr ((same_iff.mp h₁).trans (same_iff.mp h₂))

end Selectors

theorem Labels.same_equivalence : Equivalence fun a b : Labels => a.same b = true where
  refl _ := same_iff.mpr rfl
  symm h := same_iff.mpr (same_iff.mp h).symm
  trans h₁ h₂ := same_iff.mpr ((same_iff.mp h₁).trans (same_iff.mp h₂))

namespace Selector

/-- Whether two selectors have the same keys, and under each key the same values. -/
structure Agrees (a b : Selector) : Prop where
  keys : ∀ key, a.contains key = b.contains key
  values : ∀ key as bs, a.get? key = some as → b.get? key = some bs → ∀ v, v ∈ as ↔ v ∈ bs

theorem sets_eq_iff {a b : Selector} : a.sets = b.sets ↔ a.Agrees b := by
  constructor
  · intro h
    have hget (key : String) : (a.get? key).map List.toFinset = (b.get? key).map List.toFinset := by
      rw [← get?_sets, ← get?_sets, h]
    refine ⟨fun key => ?_, fun key as bs ha hb v => ?_⟩
    · have hisSome := congrArg Option.isSome (hget key)
      rwa [Option.isSome_map, Option.isSome_map] at hisSome
    · have hsets := hget key
      rw [ha, hb] at hsets
      have hset : as.toFinset = bs.toFinset := Option.some.inj hsets
      rw [← List.mem_toFinset, hset, List.mem_toFinset]
  · intro h
    apply SortedMap.ext_get?
    intro key
    rw [get?_sets, get?_sets]
    have hkeys := h.keys key
    rw [SortedMap.contains, SortedMap.contains] at hkeys
    cases ha : a.get? key with
    | none =>
      rw [ha, Option.isSome_none] at hkeys
      rw [Option.isSome_eq_false_iff.mp hkeys.symm |> Option.isNone_iff_eq_none.mp]
    | some as =>
      rw [ha, Option.isSome_some] at hkeys
      obtain ⟨bs, hb⟩ := Option.isSome_iff_exists.mp hkeys.symm
      rw [hb]
      refine congrArg some (Finset.ext fun v => ?_)
      rw [List.mem_toFinset, List.mem_toFinset]
      exact h.values key as bs ha hb v

end Selector

/-! ## Other orders, and single changes -/

/-- Whether a list has the values of another in any order, some of them once more or more often. -/
def Rearranges (a b : List String) : Prop :=
  ∃ again, again ⊆ a ∧ b.Perm (again ++ a)

theorem Rearranges.toFinset_eq {a b : List String} (h : Rearranges a b) :
    b.toFinset = a.toFinset := by
  obtain ⟨again, hsubset, hperm⟩ := h
  ext v
  rw [List.mem_toFinset, List.mem_toFinset, hperm.mem_iff, List.mem_append]
  constructor
  · intro hv
    exact hv.elim (fun hagain => hsubset hagain) id
  · intro hv
    exact Or.inr hv

/-- One change to a map: a key is added, removed or replaced by another, or its value changes. -/
inductive SortedMap.Edit {α : Type} (changes : α → α → Prop) : SortedMap α → SortedMap α → Prop
  | add {m : SortedMap α} {key : String} (value : α) (h : m.get? key = none) :
      Edit changes m (m.insert key value)
  | remove {m : SortedMap α} {key : String} (value : α) (h : m.get? key = none) :
      Edit changes (m.insert key value) m
  | rename {m : SortedMap α} {key other : String} (value : α) (h : m.get? key = none)
      (hother : m.get? other = none) (hne : key ≠ other) :
      Edit changes (m.insert key value) (m.insert other value)
  | change (m : SortedMap α) (key : String) {v w : α} (h : changes v w) :
      Edit changes (m.insert key v) (m.insert key w)

/-- A change shows under its key, however values are looked at, when it does so in the values. -/
theorem SortedMap.Edit.mapValues_ne {α β : Type} {changes : α → α → Prop} {m n : SortedMap α}
    {f : α → β} (hf : ∀ v w, changes v w → f v ≠ f w) (h : Edit changes m n) :
    (m.mapValues fun _ => f) ≠ n.mapValues fun _ => f := by
  have hshows (key : String) (hne : (m.get? key).map f ≠ (n.get? key).map f) :
      (m.mapValues fun _ => f) ≠ n.mapValues fun _ => f := by
    intro heq
    apply hne
    rw [← get?_mapValues (fun _ => f), ← get?_mapValues (fun _ => f), heq]
  cases h with
  | @add m key value hnone => exact hshows key (by simp [get?_insert, hnone])
  | @remove m key value hnone => exact hshows key (by simp [get?_insert, hnone])
  | @rename m key other value hnone hother hne =>
    exact hshows key (by simp [get?_insert, hnone, Ne.symm hne])
  | @change m key v w hchange => exact hshows key (by simpa [get?_insert] using hf v w hchange)

/-- One change to a set of values that is written as a list. -/
inductive ChangesMember : List String → List String → Prop
  | add {a b : List String} {v : String} (hv : v ∉ a) (hb : b.toFinset = insert v a.toFinset) :
      ChangesMember a b
  | remove {a b : List String} {v : String} (hv : v ∈ a) (hb : b.toFinset = a.toFinset.erase v) :
      ChangesMember a b
  | replace {a b : List String} {v w : String} (hv : v ∈ a) (hne : v ≠ w)
      (hb : b.toFinset = insert w (a.toFinset.erase v)) : ChangesMember a b

theorem ChangesMember.toFinset_ne {a b : List String} (h : ChangesMember a b) :
    a.toFinset ≠ b.toFinset := by
  intro heq
  cases h with
  | @add v hv hb =>
    rw [hb] at heq
    have hmem : v ∈ a.toFinset := heq ▸ Finset.mem_insert_self v a.toFinset
    exact hv (List.mem_toFinset.mp hmem)
  | @remove v hv hb =>
    rw [hb] at heq
    have hmem := List.mem_toFinset.mpr hv
    rw [heq] at hmem
    exact Finset.notMem_erase v a.toFinset hmem
  | @replace v w hv hne hb =>
    rw [hb] at heq
    have hmem := List.mem_toFinset.mpr hv
    rw [heq] at hmem
    simp [hne] at hmem

abbrev Labels.Edit (a b : Labels) : Prop := SortedMap.Edit (· ≠ ·) a b

/-- One change to a selector, in its keys or in the values of one key. -/
abbrev Selector.Edit (a b : Selector) : Prop := SortedMap.Edit ChangesMember a b

/-- One change in one of the groups. -/
inductive Selectors.Edit : Selectors → Selectors → Prop
  | incl {a b : Selector} (excl : Selector) (h : a.Edit b) : Edit ⟨a, excl⟩ ⟨b, excl⟩
  | excl {a b : Selector} (incl : Selector) (h : a.Edit b) : Edit ⟨incl, a⟩ ⟨incl, b⟩

theorem Labels.Edit.ne {a b : Labels} (h : a.Edit b) : a ≠ b := by
  intro heq
  exact SortedMap.Edit.mapValues_ne (f := id) (fun _ _ hne => hne) h (by rw [heq])

theorem Selectors.Edit.sets_ne {a b : Selectors} (h : Edit a b) : a.sets ≠ b.sets := by
  have hgroup {s t : Selector} (hst : s.Edit t) : s.sets ≠ t.sets :=
    SortedMap.Edit.mapValues_ne (fun _ _ hchange => hchange.toFinset_ne) hst
  intro heq
  cases h with
  | incl excl hincl => exact hgroup hincl (congrArg Prod.fst heq)
  | excl incl hexcl => exact hgroup hexcl (congrArg Prod.snd heq)

/-- Whether two selectors have the same keys, each with the values of the other rearranged. -/
def Selector.Rearranges (a b : Selector) : Prop :=
  List.Forall₂ (fun e f => e.1 = f.1 ∧ PolicySync.Rearranges e.2 f.2) a.entries b.entries

theorem Selector.Rearranges.sets_eq {a b : Selector} (h : a.Rearranges b) : b.sets = a.sets := by
  apply SortedMap.ext_entries
  change (b.entries.map fun e => (e.1, e.2.toFinset)) = a.entries.map fun e => (e.1, e.2.toFinset)
  have hentries : ∀ {es fs : List (String × List String)},
      List.Forall₂ (fun e f => e.1 = f.1 ∧ PolicySync.Rearranges e.2 f.2) es fs →
      (fs.map fun e => (e.1, e.2.toFinset)) = es.map fun e => (e.1, e.2.toFinset) := by
    intro es fs hall
    induction hall with
    | nil => rfl
    | @cons e f es fs hef _ ih =>
      have hvalues : f.2.toFinset = e.2.toFinset := hef.2.toFinset_eq
      rw [List.map_cons, List.map_cons, ih, hvalues, hef.1]
  exact hentries h

def Selectors.Rearranges (a b : Selectors) : Prop :=
  a.incl.Rearranges b.incl ∧ a.excl.Rearranges b.excl

theorem Selectors.Rearranges.sets_eq {a b : Selectors} (h : a.Rearranges b) : b.sets = a.sets := by
  rw [sets, sets, h.1.sets_eq, h.2.sets_eq]

/-- The comparison holds exactly of labels that are the same map, and of selectors whose two groups
each have the same keys and the same values under every key. It is an equivalence, it does not look
at the order and the number of values, and any single change on one side makes it fail. -/
theorem same_isExtensional :
    (∀ a b : Labels, a.same b = true ↔ a = b) ∧
    (∀ a b : Selectors, a.same b = true ↔ a.incl.Agrees b.incl ∧ a.excl.Agrees b.excl) ∧
    ((Equivalence fun a b : Labels => a.same b = true) ∧
      Equivalence fun a b : Selectors => a.same b = true) ∧
    (∀ a a' b b' : Selectors, a.Rearranges a' → b.Rearranges b' → a'.same b' = a.same b) ∧
    (∀ a b c : Labels, a.same b = true → b.Edit c → a.same c = false ∧ c.same a = false) ∧
    ∀ a b c : Selectors, a.same b = true → b.Edit c → a.same c = false ∧ c.same a = false := by
  refine ⟨fun a b => Labels.same_iff, fun a b => ?_,
    ⟨Labels.same_equivalence, Selectors.same_equivalence⟩, ?_, ?_, ?_⟩
  · rw [Selectors.same_iff, Selectors.sets, Selectors.sets, Prod.mk.injEq, Selector.sets_eq_iff,
      Selector.sets_eq_iff]
  · intro a a' b b' ha hb
    rw [Bool.eq_iff_iff, Selectors.same_iff, Selectors.same_iff, ha.sets_eq, hb.sets_eq]
  · intro a b c hab hbc
    have hne : a ≠ c := (Labels.same_iff.mp hab).symm ▸ hbc.ne
    rw [← Bool.not_eq_true, ← Bool.not_eq_true, Labels.same_iff, Labels.same_iff]
    exact ⟨hne, hne.symm⟩
  · intro a b c hab hbc
    have hne : a.sets ≠ c.sets := (Selectors.same_iff.mp hab).symm ▸ hbc.sets_ne
    rw [← Bool.not_eq_true, ← Bool.not_eq_true, Selectors.same_iff, Selectors.same_iff]
    exact ⟨hne, hne.symm⟩

theorem same_tier_and_zone :
    let two : Selector := .singleton "tier" ["a", "b"]
    let three : Selector := .singleton "tier" ["b", "a", "b"]
    let zoned := two.insert "zone" []
    Selectors.same ⟨three, two⟩ ⟨two, three⟩ = Selectors.same ⟨two, two⟩ ⟨two, two⟩ ∧
    Selectors.same ⟨two, two⟩ ⟨two, zoned⟩ = false := by
  intro two three zoned
  obtain ⟨-, -, -, hrearranges, -, hedit⟩ := same_isExtensional
  have hkept : two.Rearranges two := .cons ⟨rfl, [], List.nil_subset _, .refl _⟩ .nil
  have hrepeated : two.Rearranges three :=
    .cons ⟨rfl, ["b"], by simp, .refl _⟩ .nil
  have hextended : two.Edit zoned := .add [] (by decide)
  constructor
  · exact hrearranges ⟨two, two⟩ _ ⟨two, two⟩ _ ⟨hrepeated, hkept⟩ ⟨hkept, hrepeated⟩
  · exact (hedit ⟨two, two⟩ ⟨two, two⟩ _ (by decide) (.excl two hextended)).1

end PolicySync
