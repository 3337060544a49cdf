/-!
# Maps with text keys in code point order

A map is its list of entries, strictly ascending by key. The keys are compared
code point by code point, so two maps with the same entries are the same value.
-/

namespace PolicySync

/-- Puts an entry into an ascending list; an entry with the same key is replaced. -/
def insertEntry {α : Type} (key : String) (value : α) : List (String × α) → List (String × α)
  | [] => [(key, value)]
  | (k, v) :: rest =>
    if key < k then (key, value) :: (k, v) :: rest
    else if key = k then (key, value) :: rest
    else (k, v) :: insertEntry key value rest

/-- The value of the first entry with a key. -/
def lookupEntry {α : Type} (key : String) : List (String × α) → Option α
  | [] => none
  | (k, v) :: rest => if k = key then some v else lookupEntry key rest

private theorem mem_insertEntry {α : Type} {key : String} {value : α} {e : String × α}
    {l : List (String × α)} (h : e ∈ insertEntry key value l) : e = (key, value) ∨ e ∈ l := by
  induction l with
  | nil => simpa [insertEntry] using h
  | cons x rest ih =>
    obtain ⟨k, v⟩ := x
    rw [insertEntry] at h
    split at h
    · simpa using h
    split at h
    · simp only [List.mem_cons] at h ⊢
      exact h.imp_right Or.inr
    · simp only [List.mem_cons] at h ⊢
      rcases h with h | h
      · exact Or.inr (Or.inl h)
      · exact (ih h).imp_right Or.inr

theorem insertEntry_sorted {α : Type} (key : String) (value : α) {l : List (String × α)}
    (h : l.Pairwise fun a b => a.1 < b.1) :
    (insertEntry key value l).Pairwise fun a b => a.1 < b.1 := by
  induction l with
  | nil => simp [insertEntry]
  | cons x rest ih =>
    obtain ⟨k, v⟩ := x
    obtain ⟨hk, hr⟩ := List.pairwise_cons.mp h
    rw [insertEntry]
    split
    · next hlt =>
      refine List.pairwise_cons.mpr ⟨fun e he => ?_, h⟩
      rcases List.mem_cons.mp he with rfl | he
      · exact hlt
      · exact String.lt_trans hlt (hk e he)
    split
    · next heq =>
      subst heq
      exact List.pairwise_cons.mpr ⟨hk, hr⟩
    · next hlt hne =>
      refine List.pairwise_cons.mpr ⟨fun e he => ?_, ih hr⟩
      rcases mem_insertEntry he with rfl | he
      · exact Std.lt_of_le_of_ne (String.not_lt.mp hlt) (Ne.symm hne)
      · exact hk e he

/-- A finite map from texts to values, its entries ascending by key. -/
structure SortedMap (α : Type) where
  entries : List (String × α)
  sorted : entries.Pairwise fun a b => a.1 < b.1

namespace SortedMap

variable {α β : Type}

theorem ext_entries {a b : SortedMap α} (h : a.entries = b.entries) : a = b := by
  cases a; cases b; cases h; rfl

instance [DecidableEq α] : DecidableEq (SortedMap α) := fun a b =>
  decidable_of_iff (a.entries = b.entries) ⟨ext_entries, fun h => h ▸ rfl⟩

def empty : SortedMap α := ⟨[], List.Pairwise.nil⟩

instance : Inhabited (SortedMap α) := ⟨empty⟩

/-- The map with `value` at `key`, whatever was there before. -/
def insert (m : SortedMap α) (key : String) (value : α) : SortedMap α :=
  ⟨insertEntry key value m.entries, insertEntry_sorted key value m.sorted⟩

def get? (m : SortedMap α) (key : String) : Option α :=
  lookupEntry key m.entries

def contains (m : SortedMap α) (key : String) : Bool :=
  (m.get? key).isSome

def size (m : SortedMap α) : Nat := m.entries.length

def keys (m : SortedMap α) : List String := m.entries.map (·.1)

/-- Of several entries with one key, the last is kept. -/
def ofList (entries : List (String × α)) : SortedMap α :=
  entries.foldl (fun m e => m.insert e.1 e.2) empty

def singleton (key : String) (value : α) : SortedMap α := ofList [(key, value)]

private theorem pairwise_map_values {f : String → α → β} {l : List (String × α)}
    (h : l.Pairwise fun a b => a.1 < b.1) :
    (l.map fun e => (e.1, f e.1 e.2)).Pairwise fun a b => a.1 < b.1 := by
  rw [List.pairwise_map]
  exact h

/-- Changes every value; the keys stay. -/
def mapValues (f : String → α → β) (m : SortedMap α) : SortedMap β :=
  ⟨m.entries.map fun e => (e.1, f e.1 e.2), pairwise_map_values m.sorted⟩

theorem lookupEntry_insertEntry (key k : String) (value : α) (l : List (String × α)) :
    lookupEntry k (insertEntry key value l) = if key = k then some value else lookupEntry k l := by
  induction l with
  | nil => rfl
  | cons x rest ih =>
    obtain ⟨k', v'⟩ := x
    rw [insertEntry]
    split
    · rfl
    split
    · next heq =>
      subst heq
      by_cases hkk : key = k <;> simp [lookupEntry, hkk]
    · next hne =>
      by_cases hkk : k' = k
      · subst hkk
        simp [lookupEntry, hne]
      · simp [lookupEntry, hkk, ih]

theorem get?_insert (m : SortedMap α) (key k : String) (value : α) :
    (m.insert key value).get? k = if key = k then some value else m.get? k :=
  lookupEntry_insertEntry key k value m.entries

@[simp] theorem get?_empty (key : String) : (empty : SortedMap α).get? key = none := rfl

end SortedMap

end PolicySync
