import Mathlib.Data.List.Induction
import Mathlib.Data.List.Nodup
import Mathlib.Data.List.Perm.Subperm
import PolicySync.Data.SortedMap

/-!
# Laws of maps with text keys

Reading the entries of a map back into a map changes nothing. Two maps of one size are the same as
soon as one holds every entry of the other.
-/

namespace PolicySync

private theorem insertEntry_last {α : Type} {key : String} {value : α} {l : List (String × α)}
    (h : ∀ e ∈ l, e.1 < key) : insertEntry key value l = l ++ [(key, value)] := by
  induction l with
  | nil => rfl
  | cons e rest ih =>
    have he : e.1 < key := h e List.mem_cons_self
    have hlt : ¬ key < e.1 := fun hk => String.lt_irrefl _ (String.lt_trans he hk)
    have hne : key ≠ e.1 := fun hk => String.lt_irrefl key (hk ▸ he)
    rw [insertEntry, if_neg hlt, if_neg hne, ih fun e' h' => h e' (List.mem_cons_of_mem _ h')]
    rfl

private theorem lookupEntry_eq_some {α : Type} {key : String} {value : α}
    {l : List (String × α)} (h : l.Pairwise fun a b => a.1 < b.1) :
    lookupEntry key l = some value ↔ (key, value) ∈ l := by
  induction l with
  | nil => simp [lookupEntry]
  | cons e rest ih =>
    obtain ⟨k, v⟩ := e
    obtain ⟨hk, hr⟩ := List.pairwise_cons.mp h
    rw [lookupEntry, List.mem_cons]
    by_cases heq : k = key
    · subst heq
      have hrest : (k, value) ∉ rest := fun hm => String.lt_irrefl k (hk _ hm)
      simp [hrest, eq_comm]
    · simp [heq, Ne.symm heq, ih hr]

namespace SortedMap

variable {α β : Type}

private theorem foldl_insert_entries (m : SortedMap α) (l : List (String × α))
    (h : (m.entries ++ l).Pairwise fun a b => a.1 < b.1) :
    (l.foldl (fun m e => m.insert e.1 e.2) m).entries = m.entries ++ l := by
  induction l generalizing m with
  | nil => simp
  | cons e rest ih =>
    have hlast : (m.insert e.1 e.2).entries = m.entries ++ [e] :=
      insertEntry_last fun x hx => (List.pairwise_append.mp h).2.2 x hx e List.mem_cons_self
    have hassoc : m.entries ++ e :: rest = (m.insert e.1 e.2).entries ++ rest := by
      rw [hlast, List.append_assoc, List.singleton_append]
    rw [List.foldl_cons, hassoc]
    exact ih _ (hassoc ▸ h)

/-- Entries that are in order are kept as they are. -/
theorem entries_ofList {l : List (String × α)} (h : l.Pairwise fun a b => a.1 < b.1) :
    (ofList l).entries = l := by
  change (l.foldl (fun m e => m.insert e.1 e.2) empty).entries = l
  exact foldl_insert_entries empty l h

theorem entries_ofList_swap {a b : String × α} (h : b.1 < a.1) :
    (ofList [a, b]).entries = [b, a] := by
  change insertEntry b.1 b.2 [a] = _
  rw [insertEntry, if_pos h]

@[simp] theorem ofList_entries (m : SortedMap α) : ofList m.entries = m :=
  ext_entries (entries_ofList m.sorted)

@[simp] theorem entries_singleton (key : String) (value : α) :
    (singleton key value).entries = [(key, value)] := rfl

@[simp] theorem get?_singleton (key : String) (value : α) :
    (singleton key value).get? key = some value := by
  change lookupEntry key [(key, value)] = _
  simp [lookupEntry]

theorem get?_eq_some {m : SortedMap α} {key : String} {value : α} :
    m.get? key = some value ↔ (key, value) ∈ m.entries :=
  lookupEntry_eq_some m.sorted

/-- Of several entries with one key, the last is found. -/
theorem get?_ofList (l : List (String × α)) (key : String) :
    (ofList l).get? key = lookupEntry key l.reverse := by
  induction l using List.reverseRecOn with
  | nil => rfl
  | append_singleton l e ih =>
    have hinsert : ofList (l ++ [e]) = (ofList l).insert e.1 e.2 := by
      rw [ofList, List.foldl_append]
      rfl
    rw [hinsert, get?_insert, ih, List.reverse_append]
    rfl

theorem lookupEntry_filterMap (f : β → Option (String × α)) (l : List β) (key : String) :
    lookupEntry key (l.filterMap f) =
      l.findSome? fun x => (f x).bind fun e => if e.1 = key then some e.2 else none := by
  induction l with
  | nil => rfl
  | cons x rest ih =>
    rw [List.findSome?_cons]
    cases hx : f x with
    | none => rw [List.filterMap_cons_none hx, ih]; rfl
    | some e =>
      rw [List.filterMap_cons_some hx, Option.bind_some, lookupEntry, ih]
      by_cases hkey : e.1 = key <;> simp [hkey]

theorem mem_of_lookupEntry {key : String} {value : α} {l : List (String × α)}
    (h : lookupEntry key l = some value) : (key, value) ∈ l := by
  induction l with
  | nil => cases h
  | cons e rest ih =>
    rw [lookupEntry] at h
    split at h
    · next heq =>
      cases h
      rw [← heq]
      exact List.mem_cons_self
    · exact List.mem_cons_of_mem _ (ih h)

/-- Reading entries into a map adds none. -/
theorem mem_of_mem_ofList {l : List (String × α)} {e : String × α} (h : e ∈ (ofList l).entries) :
    e ∈ l := by
  have hget := get?_eq_some.mpr h
  rw [get?_ofList] at hget
  exact List.mem_reverse.mp (mem_of_lookupEntry hget)

private theorem lookupEntry_eq_some_of_nodup {key : String} {value : α} {l : List (String × α)}
    (h : (l.map (·.1)).Nodup) : lookupEntry key l = some value ↔ (key, value) ∈ l := by
  induction l with
  | nil => simp [lookupEntry]
  | cons e rest ih =>
    obtain ⟨k, v⟩ := e
    obtain ⟨hk, hrest⟩ := List.nodup_cons.mp h
    by_cases heq : k = key
    · subst heq
      have hnone : (k, value) ∉ rest := fun hmem => hk (List.mem_map.mpr ⟨(k, value), hmem, rfl⟩)
      simp [lookupEntry, hnone, eq_comm]
    · have hne : key ≠ k := Ne.symm heq
      simp [lookupEntry, heq, hne, ih hrest]

/-- Entries with different keys are all kept. -/
theorem mem_entries_ofList {l : List (String × α)} (h : (l.map (·.1)).Nodup) {e : String × α} :
    e ∈ (ofList l).entries ↔ e ∈ l := by
  have hreverse : (l.reverse.map (·.1)).Nodup := by
    rw [List.map_reverse, List.nodup_reverse]
    exact h
  rw [← get?_eq_some, get?_ofList, lookupEntry_eq_some_of_nodup hreverse, List.mem_reverse]

theorem nodup_entries (m : SortedMap α) : m.entries.Nodup := by
  refine m.sorted.imp fun {a b} h heq => ?_
  exact String.lt_irrefl b.1 (heq ▸ h)

/-- Maps of one size are the same when one holds the entries of the other. -/
theorem eq_of_subset {a b : SortedMap α} (hsize : a.size = b.size)
    (h : a.entries ⊆ b.entries) : a = b := by
  have hperm : a.entries.Perm b.entries :=
    (a.nodup_entries.subperm h).perm_of_length_le (Nat.le_of_eq hsize.symm)
  refine ext_entries (hperm.eq_of_pairwise (fun x y _ _ hxy hyx => ?_) a.sorted b.sorted)
  exact absurd (String.lt_trans hxy hyx) (String.lt_irrefl _)

/-- Maps in which every look-up gives the same are the same. -/
theorem ext_get? {a b : SortedMap α} (h : ∀ key, a.get? key = b.get? key) : a = b := by
  have hmem (e : String × α) : e ∈ a.entries ↔ e ∈ b.entries := by
    rw [← get?_eq_some, ← get?_eq_some, h]
  have hperm : a.entries.Perm b.entries :=
    (List.perm_ext_iff_of_nodup a.nodup_entries b.nodup_entries).mpr hmem
  exact eq_of_subset hperm.length_eq fun e he => (hmem e).mp he

/-- Entries with different keys give the same map in any order. -/
theorem ofList_perm {l l' : List (String × α)} (hkeys : (l.map (·.1)).Nodup) (h : l.Perm l') :
    ofList l = ofList l' := by
  have hkeys' : (l'.map (·.1)).Nodup := (h.map (·.1)).nodup_iff.mp hkeys
  apply ext_get?
  intro key
  apply Option.ext
  intro value
  rw [get?_eq_some, get?_eq_some, mem_entries_ofList hkeys, mem_entries_ofList hkeys', h.mem_iff]

private theorem lookupEntry_map (f : String → α → β) (l : List (String × α)) (key : String) :
    lookupEntry key (l.map fun e => (e.1, f e.1 e.2)) = (lookupEntry key l).map (f key) := by
  induction l with
  | nil => rfl
  | cons e rest ih =>
    by_cases hk : e.1 = key
    · simp [lookupEntry, hk]
    · simp [lookupEntry, hk, ih]

theorem get?_mapValues (f : String → α → β) (m : SortedMap α) (key : String) :
    (m.mapValues f).get? key = (m.get? key).map (f key) :=
  lookupEntry_map f m.entries key

/-- Values may be changed before or after the entries are read into a map. -/
theorem mapValues_ofList (f : α → β) (l : List (String × α)) :
    (ofList l).mapValues (fun _ => f) = ofList (l.map fun e => (e.1, f e.2)) := by
  apply ext_get?
  intro key
  rw [get?_mapValues, get?_ofList, get?_ofList, ← List.map_reverse, lookupEntry_map fun _ => f]

end SortedMap

end PolicySync
