import PolicySync.Json.Field
import PolicySync.Proofs.Data.SortedMap
import PolicySync.Proofs.Json.Grammar

/-!
# Reading what was written

Readers of JSON values that go with a writer: what they read is written as it was, but for the order
of members, and is read again from there. Records keep their named fields, get defaults for those
that are missing, and lose all others.
-/

namespace PolicySync.Json

variable {α : Type} {read : Json → Option α} {write : α → Json}

/-- Whether what a reader reads is read again from what it is written as. -/
structure IsReadAgain (read : Json → Option α) (write : α → Json) : Prop where
  again : ∀ {j a}, read j = some a → read (write a) = some a
  /-- A null is left to stand for no value. -/
  null : read .null = none

/-- Whether what is read is also written as it was, but for the order of members. -/
structure IsCodec (read : Json → Option α) (write : α → Json) : Prop
    extends IsReadAgain read write where
  normal : ∀ {j a}, read j = some a → write a = j.normal

theorem isCodec_string : IsCodec string? .string where
  normal {j a} h := by
    cases j <;> cases h
    rfl
  again _ := rfl
  null := rfl

theorem isCodec_bool : IsCodec bool? .bool where
  normal {j a} h := by
    cases j <;> cases h
    rfl
  again _ := rfl
  null := rfl

theorem isCodec_int64 : IsCodec int64? ofInt where
  normal {j n} h := by
    unfold int64? at h
    split at h
    · split at h
      · cases h
        rfl
      · cases h
    · cases h
  again {j n} h := by
    unfold int64? at h
    split at h
    · split at h
      next hbound =>
        cases h
        exact if_pos hbound
      · cases h
    · cases h
  null := rfl

/-! ## Lists and maps -/

private theorem normalItems_of_mapM (h : IsCodec read write) {items : List Json} {values : List α}
    (hread : items.mapM read = some values) : values.map write = normalItems items := by
  induction items generalizing values with
  | nil =>
    cases hread
    rfl
  | cons item rest ih =>
    rw [List.mapM_cons] at hread
    obtain ⟨value, hvalue, hread⟩ := Option.bind_eq_some_iff.mp hread
    obtain ⟨more, hmore, hread⟩ := Option.bind_eq_some_iff.mp hread
    cases hread
    rw [List.map_cons, normalItems, h.normal hvalue, ih hmore]

private theorem mapM_again (h : IsCodec read write) {items : List Json} {values : List α}
    (hread : items.mapM read = some values) : (values.map write).mapM read = some values := by
  induction items generalizing values with
  | nil =>
    cases hread
    rfl
  | cons item rest ih =>
    rw [List.mapM_cons] at hread
    obtain ⟨value, hvalue, hread⟩ := Option.bind_eq_some_iff.mp hread
    obtain ⟨more, hmore, hread⟩ := Option.bind_eq_some_iff.mp hread
    cases hread
    rw [List.map_cons, List.mapM_cons, h.again hvalue, ih hmore]
    rfl

theorem IsCodec.list (h : IsCodec read write) :
    IsCodec (list? read) fun values => .array (values.map write) where
  normal {j values} hread := by
    cases j with
    | array items => exact congrArg Json.array (normalItems_of_mapM h hread)
    | _ => cases hread
  again {j values} hread := by
    cases j with
    | array items => exact mapM_again h hread
    | _ => cases hread
  null := rfl

private theorem normalMembers_of_readMembers (h : IsCodec read write)
    {members : List (String × Json)} {entries : List (String × α)}
    (hread : readMembers read members = some entries) :
    entries.map (fun e => (e.1, write e.2)) = normalMembers members := by
  induction members generalizing entries with
  | nil =>
    cases hread
    rfl
  | cons m rest ih =>
    obtain ⟨value, hvalue, hread⟩ := Option.bind_eq_some_iff.mp hread
    obtain ⟨more, hmore, hread⟩ := Option.bind_eq_some_iff.mp hread
    cases hread
    rw [List.map_cons, normalMembers, h.normal hvalue, ih hmore]

private theorem exists_of_readMembers {members : List (String × Json)} {entries : List (String × α)}
    (hread : readMembers read members = some entries) {e : String × α} (he : e ∈ entries) :
    ∃ j, read j = some e.2 := by
  induction members generalizing entries with
  | nil =>
    cases hread
    cases he
  | cons m rest ih =>
    obtain ⟨value, hvalue, hread⟩ := Option.bind_eq_some_iff.mp hread
    obtain ⟨more, hmore, hread⟩ := Option.bind_eq_some_iff.mp hread
    cases hread
    rcases List.mem_cons.mp he with rfl | he
    · exact ⟨m.2, hvalue⟩
    · exact ih hmore he

private theorem readMembers_map {entries : List (String × α)}
    (h : ∀ e ∈ entries, read (write e.2) = some e.2) :
    readMembers read (entries.map fun e => (e.1, write e.2)) = some entries := by
  induction entries with
  | nil => rfl
  | cons e rest ih =>
    obtain ⟨he, hrest⟩ := List.forall_mem_cons.mp h
    simp [readMembers, he, ih hrest]

theorem IsCodec.map (h : IsCodec read write) :
    IsCodec (map? read) fun m => ofMap (m.mapValues fun _ => write) where
  normal {j m} hread := by
    cases j with
    | object members =>
      obtain ⟨entries, hentries, rfl⟩ := Option.map_eq_some_iff.mp hread
      rw [Json.normal, ← normalMembers_of_readMembers h hentries, ofMembers, ofMap,
        SortedMap.mapValues_ofList]
    | _ => cases hread
  again {j m} hread := by
    cases j with
    | object members =>
      obtain ⟨entries, hentries, rfl⟩ := Option.map_eq_some_iff.mp hread
      have hagain : ∀ e ∈ (SortedMap.ofList entries).entries, read (write e.2) = some e.2 := by
        intro e he
        obtain ⟨j, hj⟩ := exists_of_readMembers hentries (SortedMap.mem_of_mem_ofList he)
        exact h.again hj
      rw [ofMap, map?, SortedMap.mapValues, readMembers_map hagain, Option.map_some,
        SortedMap.ofList_entries]
    | _ => cases hread
  null := rfl

/-! ## Fields -/

section

variable {fields : List (String × Json)} {name : String} {a fallback : α} {o : Option α}

/-- A required field is written as it was. -/
theorem IsCodec.required_normal (h : IsCodec read write)
    (hread : required? fields name read = some a) (missing : Json) :
    ((lookupEntry name fields).getD missing).normal = write a := by
  obtain ⟨j, hj, hread⟩ := Option.bind_eq_some_iff.mp hread
  rw [hj, Option.getD_some, h.normal hread]

theorem IsReadAgain.required_again (h : IsReadAgain read write)
    (hread : required? fields name read = some a) : read (write a) = some a := by
  obtain ⟨j, -, hread⟩ := Option.bind_eq_some_iff.mp hread
  exact h.again hread

/-- An optional field that is read is missing or null, or has the value that is read. -/
theorem optional?_cases (hread : optional? fields name read = some o) :
    o = none ∧ (lookupEntry name fields = none ∨ lookupEntry name fields = some .null) ∨
      ∃ j a, o = some a ∧ lookupEntry name fields = some j ∧ read j = some a := by
  unfold optional? at hread
  split at hread
  next hnone =>
    cases hread
    exact .inl ⟨rfl, .inl hnone⟩
  next j hj =>
    unfold nullable? at hread
    split at hread
    · cases hread
      exact .inl ⟨rfl, .inr hj⟩
    · obtain ⟨a, ha, rfl⟩ := Option.map_eq_some_iff.mp hread
      exact .inr ⟨j, a, rfl, hj, ha⟩

/-- An optional field is written as it was, and as a null when it was missing. -/
theorem IsCodec.optional_normal (h : IsCodec read write)
    (hread : optional? fields name read = some o) :
    ((lookupEntry name fields).getD .null).normal = ofOption (o.map write) := by
  rcases optional?_cases hread with ⟨rfl, hnone | hnull⟩ | ⟨j, a, rfl, hj, hvalue⟩
  · rw [hnone]
    rfl
  · rw [hnull]
    rfl
  · rw [hj]
    exact (h.normal hvalue).symm

theorem IsReadAgain.optional_again (h : IsReadAgain read write)
    (hread : optional? fields name read = some o) :
    nullable? read (ofOption (o.map write)) = some o := by
  rcases optional?_cases hread with ⟨rfl, -⟩ | ⟨j, a, rfl, -, hvalue⟩
  · rfl
  have hagain := h.again hvalue
  have hne : write a ≠ .null := by
    intro hnull
    rw [hnull, h.null] at hagain
    cases hagain
  rw [Option.map_some, ofOption, nullable?, hagain, Option.map_some]
  exact hne

/-- A field with a default is written as it was, and as its default when it was missing. -/
theorem IsCodec.defaulted_normal (h : IsCodec read write) {missing : Json}
    (hmissing : missing.normal = write fallback)
    (hread : defaulted? fields name fallback read = some a) :
    ((lookupEntry name fields).getD missing).normal = write a := by
  unfold defaulted? at hread
  split at hread
  next hnone =>
    cases hread
    rw [hnone]
    exact hmissing
  next j hj => rw [hj, Option.getD_some, h.normal hread]

theorem IsReadAgain.defaulted_again (h : IsReadAgain read write)
    (hfallback : read (write fallback) = some fallback)
    (hread : defaulted? fields name fallback read = some a) : read (write a) = some a := by
  unfold defaulted? at hread
  split at hread
  · cases hread
    exact hfallback
  · exact h.again hread

end

/-! ## Records -/

section

variable {members : List (String × Json)} {name : String} {j : Json}

private theorem lookupEntry_written (h : lookupEntry name members.reverse = some j) :
    lookupEntry name (SortedMap.ofList members).entries = some j :=
  (SortedMap.get?_ofList members name).trans h

theorem required?_written (h : lookupEntry name members.reverse = some j) :
    required? (SortedMap.ofList members).entries name read = read j := by
  rw [required?, lookupEntry_written h, Option.bind_some]

theorem optional?_written (h : lookupEntry name members.reverse = some j) :
    optional? (SortedMap.ofList members).entries name read = nullable? read j := by
  rw [optional?, lookupEntry_written h]

theorem defaulted?_written {fallback : α} (h : lookupEntry name members.reverse = some j) :
    defaulted? (SortedMap.ofList members).entries name fallback read = read j := by
  rw [defaulted?, lookupEntry_written h]

end

/-- The named fields of a record, with what stands for those that are missing. -/
def filled (missing : List (String × Json)) (fields : List (String × Json)) : Json :=
  .object (missing.map fun m => (m.1, (lookupEntry m.1 fields).getD m.2))

/-- Whether what is read is written as its named fields, with defaults for those that are
missing. -/
structure IsRecordCodec (missing : List (String × Json)) (needed : Nat) (read : Json → Option α)
    (write : α → Json) : Prop extends IsReadAgain read write where
  filled : ∀ {j a}, read j = some a →
    ∃ fields, record? (missing.map (·.1)) needed j = some fields ∧
      write a = (filled missing fields).normal

/-- What becomes of a record `j`, read as `a`, once it is written back. -/
structure SurvivesWriting (missing : List (String × Json)) (needed : Nat) (read : Json → Option α)
    (write : α → Json) (j : Json) (a : α) : Prop where
  again : read (write a) = some a
  writtenAgain : ∀ b, read (write a) = some b → write b = write a
  filled : ∃ fields, record? (missing.map (·.1)) needed j = some fields ∧
    write a = (filled missing fields).normal

theorem IsRecordCodec.survives {missing : List (String × Json)} {needed : Nat}
    (h : IsRecordCodec missing needed read write) {j : Json} {a : α} (hread : read j = some a) :
    SurvivesWriting missing needed read write j a where
  again := h.again hread
  writtenAgain b hb := by rw [← Option.some.inj ((h.again hread).symm.trans hb)]
  filled := h.filled hread

/-- A record with another value in one of its fields. -/
def setField (j : Json) (names : List String) (name : String) (value : Json) : Json :=
  match j with
  | .object members => .object (insertEntry name value members)
  | .array items => .array (items.set (names.idxOf name) value)
  | j => j

private theorem lookupEntry_zip_set {names : List String} {name : String} (value : Json)
    (hname : name ∈ names) {items : List Json} (hlength : items.length = names.length)
    (key : String) :
    lookupEntry key (names.zip (items.set (names.idxOf name) value)) =
      if name = key then some value else lookupEntry key (names.zip items) := by
  induction names generalizing items with
  | nil => cases hname
  | cons first names ih =>
    cases items with
    | nil => cases hlength
    | cons item items =>
      by_cases hfirst : first = name
      · subst hfirst
        rw [List.idxOf_cons_self, List.set_cons_zero, List.zip_cons_cons, List.zip_cons_cons,
          lookupEntry, lookupEntry]
        by_cases hkey : first = key <;> simp [hkey]
      · have hrest : name ∈ names := (List.mem_cons.mp hname).resolve_left (Ne.symm hfirst)
        rw [List.idxOf_cons_ne _ hfirst, List.set_cons_succ, List.zip_cons_cons, List.zip_cons_cons,
          lookupEntry, lookupEntry, ih hrest (Nat.succ.inj hlength)]
        by_cases hkey : first = key
        · have hne : name ≠ key := fun h => hfirst (hkey.trans h.symm)
          simp [hkey, hne]
        · simp [hkey]

/-- Setting a field of a record with all its fields changes that field alone. -/
theorem record?_setField {names : List String} {name : String} (value : Json)
    (hname : name ∈ names) {j : Json} {fields : List (String × Json)}
    (h : record? names names.length j = some fields) :
    ∃ fields', record? names names.length (j.setField names name value) = some fields' ∧
      ∀ key, lookupEntry key fields' =
        if name = key then some value else lookupEntry key fields := by
  cases j with
  | object members =>
    cases h
    exact ⟨_, rfl, fun key => SortedMap.lookupEntry_insertEntry name key value _⟩
  | array items =>
    rw [record?] at h
    split at h
    next hbounds =>
      cases h
      have hlength : items.length = names.length := Nat.le_antisymm hbounds.2 hbounds.1
      refine ⟨_, ?_, lookupEntry_zip_set value hname hlength⟩
      exact if_pos (by simp [hlength])
    · cases h
  | _ => cases h

end PolicySync.Json
