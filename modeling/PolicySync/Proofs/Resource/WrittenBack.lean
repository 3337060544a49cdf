import PolicySync.Proofs.Json.Codec
import PolicySync.Resource.Basic

/-!
# Resources written back

The spec and the status of a resource are read again from what they are written as, with the same
value, whatever the resource was read from. What is written are the fields that the resource had,
with defaults for those that were missing.
-/

namespace PolicySync

/-! ## Specs and statuses -/

theorem isCodec_texts : Json.IsCodec Json.texts? .ofTexts := Json.isCodec_string.map

theorem isCodec_selector : Json.IsCodec Selector.ofJson? Selector.toJson :=
  Json.isCodec_string.list.map

namespace SystemSpec

/-- What stands for the fields of a system that are missing. -/
def missing : List (String × Json) :=
  [("type", .null), ("description", .null), ("labels", .object [])]

theorem ofJson?_eq_some {j : Json} {s : SystemSpec} :
    ofJson? j = some s ↔ ∃ fields, Json.record? fieldNames 2 j = some fields ∧
      Json.required? fields "type" Json.string? = some s.type ∧
      Json.optional? fields "description" Json.string? = some s.description ∧
      Json.defaulted? fields "labels" .empty Json.texts? = some s.labels := by
  constructor
  · intro h
    obtain ⟨fields, hfields, h⟩ := Option.bind_eq_some_iff.mp h
    obtain ⟨type, htype, h⟩ := Option.bind_eq_some_iff.mp h
    obtain ⟨description, hdescription, h⟩ := Option.bind_eq_some_iff.mp h
    obtain ⟨labels, hlabels, h⟩ := Option.bind_eq_some_iff.mp h
    cases h
    exact ⟨fields, hfields, htype, hdescription, hlabels⟩
  · rintro ⟨fields, hfields, htype, hdescription, hlabels⟩
    simp [ofJson?, hfields, htype, hdescription, hlabels]

theorem isRecordCodec : Json.IsRecordCodec missing 2 ofJson? toJson where
  filled {j s} h := by
    obtain ⟨fields, hfields, htype, hdescription, hlabels⟩ := ofJson?_eq_some.mp h
    refine ⟨fields, hfields, ?_⟩
    simp only [Json.filled, missing, List.map_cons, List.map_nil, Json.normal, Json.normalMembers]
    rw [Json.isCodec_string.required_normal htype, Json.isCodec_string.optional_normal hdescription,
      isCodec_texts.defaulted_normal rfl hlabels]
    rfl
  again {j s} h := by
    obtain ⟨fields, -, htype, hdescription, hlabels⟩ := ofJson?_eq_some.mp h
    refine ofJson?_eq_some.mpr ⟨_, rfl, ?_, ?_, ?_⟩
    · rw [Json.required?_written rfl, Json.isCodec_string.required_again htype]
    · rw [Json.optional?_written rfl, Json.isCodec_string.optional_again hdescription]
    · rw [Json.defaulted?_written rfl, isCodec_texts.defaulted_again rfl hlabels]
  null := rfl

end SystemSpec

namespace StackSpec

/-- What stands for the fields of a stack that are missing. -/
def missing : List (String × Json) :=
  [("type", .null), ("description", .null), ("selectorInclude", .object []),
    ("selectorExclude", .object [])]

theorem ofJson?_eq_some {j : Json} {s : StackSpec} :
    ofJson? j = some s ↔ ∃ fields, Json.record? fieldNames 2 j = some fields ∧
      Json.required? fields "type" Json.string? = some s.type ∧
      Json.optional? fields "description" Json.string? = some s.description ∧
      Json.defaulted? fields "selectorInclude" .empty Selector.ofJson? = some s.selectors.incl ∧
      Json.defaulted? fields "selectorExclude" .empty Selector.ofJson? = some s.selectors.excl := by
  constructor
  · intro h
    obtain ⟨fields, hfields, h⟩ := Option.bind_eq_some_iff.mp h
    obtain ⟨type, htype, h⟩ := Option.bind_eq_some_iff.mp h
    obtain ⟨description, hdescription, h⟩ := Option.bind_eq_some_iff.mp h
    obtain ⟨incl, hincl, h⟩ := Option.bind_eq_some_iff.mp h
    obtain ⟨excl, hexcl, h⟩ := Option.bind_eq_some_iff.mp h
    cases h
    exact ⟨fields, hfields, htype, hdescription, hincl, hexcl⟩
  · rintro ⟨fields, hfields, htype, hdescription, hincl, hexcl⟩
    simp [ofJson?, hfields, htype, hdescription, hincl, hexcl]

theorem isRecordCodec : Json.IsRecordCodec missing 2 ofJson? toJson where
  filled {j s} h := by
    obtain ⟨fields, hfields, htype, hdescription, hincl, hexcl⟩ := ofJson?_eq_some.mp h
    refine ⟨fields, hfields, ?_⟩
    simp only [Json.filled, missing, List.map_cons, List.map_nil, Json.normal, Json.normalMembers]
    rw [Json.isCodec_string.required_normal htype, Json.isCodec_string.optional_normal hdescription,
      isCodec_selector.defaulted_normal rfl hincl, isCodec_selector.defaulted_normal rfl hexcl]
    rfl
  again {j s} h := by
    obtain ⟨fields, -, htype, hdescription, hincl, hexcl⟩ := ofJson?_eq_some.mp h
    refine ofJson?_eq_some.mpr ⟨_, rfl, ?_, ?_, ?_, ?_⟩
    · rw [Json.required?_written rfl, Json.isCodec_string.required_again htype]
    · rw [Json.optional?_written rfl, Json.isCodec_string.optional_again hdescription]
    · rw [Json.defaulted?_written rfl, isCodec_selector.defaulted_again rfl hincl]
    · rw [Json.defaulted?_written rfl, isCodec_selector.defaulted_again rfl hexcl]
  null := rfl

end StackSpec

namespace SyncStatus

/-- What stands for the fields of a status that are missing. -/
def missing : List (String × Json) :=
  [("policyPath", .null), ("upToDate", .null), ("lastSynced", .null),
    ("observedGeneration", .null), ("message", .null)]

theorem ofJson?_eq_some {j : Json} {s : SyncStatus} :
    ofJson? j = some s ↔ ∃ fields, Json.record? fieldNames 5 j = some fields ∧
      Json.required? fields "policyPath" Json.string? = some s.policyPath ∧
      Json.required? fields "upToDate" Json.bool? = some s.upToDate ∧
      Json.optional? fields "lastSynced" Json.string? = some s.lastSynced ∧
      Json.optional? fields "observedGeneration" Json.int64? = some s.observedGeneration ∧
      Json.optional? fields "message" Json.string? = some s.message := by
  constructor
  · intro h
    obtain ⟨fields, hfields, h⟩ := Option.bind_eq_some_iff.mp h
    obtain ⟨policyPath, hpath, h⟩ := Option.bind_eq_some_iff.mp h
    obtain ⟨upToDate, hupToDate, h⟩ := Option.bind_eq_some_iff.mp h
    obtain ⟨lastSynced, hsynced, h⟩ := Option.bind_eq_some_iff.mp h
    obtain ⟨generation, hgeneration, h⟩ := Option.bind_eq_some_iff.mp h
    obtain ⟨message, hmessage, h⟩ := Option.bind_eq_some_iff.mp h
    cases h
    exact ⟨fields, hfields, hpath, hupToDate, hsynced, hgeneration, hmessage⟩
  · rintro ⟨fields, hfields, hpath, hupToDate, hsynced, hgeneration, hmessage⟩
    simp [ofJson?, hfields, hpath, hupToDate, hsynced, hgeneration, hmessage]

theorem isRecordCodec : Json.IsRecordCodec missing 5 ofJson? toJson where
  filled {j s} h := by
    obtain ⟨fields, hfields, hpath, hupToDate, hsynced, hgeneration, hmessage⟩ :=
      ofJson?_eq_some.mp h
    refine ⟨fields, hfields, ?_⟩
    simp only [Json.filled, missing, List.map_cons, List.map_nil, Json.normal, Json.normalMembers]
    rw [Json.isCodec_string.required_normal hpath, Json.isCodec_bool.required_normal hupToDate,
      Json.isCodec_string.optional_normal hsynced, Json.isCodec_int64.optional_normal hgeneration,
      Json.isCodec_string.optional_normal hmessage]
    rfl
  again {j s} h := by
    obtain ⟨fields, -, hpath, hupToDate, hsynced, hgeneration, hmessage⟩ := ofJson?_eq_some.mp h
    refine ofJson?_eq_some.mpr ⟨_, rfl, ?_, ?_, ?_, ?_, ?_⟩
    · rw [Json.required?_written rfl, Json.isCodec_string.required_again hpath]
    · rw [Json.required?_written rfl, Json.isCodec_bool.required_again hupToDate]
    · rw [Json.optional?_written rfl, Json.isCodec_string.optional_again hsynced]
    · rw [Json.optional?_written rfl, Json.isCodec_int64.optional_again hgeneration]
    · rw [Json.optional?_written rfl, Json.isCodec_string.optional_again hmessage]
  null := rfl

end SyncStatus

/-! ## Resources -/

namespace Resource

def fieldNames : List String := ["metadata", "spec", "status"]

variable {α : Type} {readSpec : Json → Option α} {writeSpec : α → Json}
  {missing : List (String × Json)} {needed : Nat}

theorem ofJson?_eq_some {j : Json} {r : Resource α} :
    ofJson? readSpec j = some r ↔ ∃ fields, Json.record? fieldNames 3 j = some fields ∧
      Json.required? fields "metadata" Metadata.ofJson? = some r.metadata ∧
      Json.required? fields "spec" readSpec = some r.spec ∧
      Json.optional? fields "status" SyncStatus.ofJson? = some r.status := by
  constructor
  · intro h
    obtain ⟨fields, hfields, h⟩ := Option.bind_eq_some_iff.mp h
    obtain ⟨metadata, hmetadata, h⟩ := Option.bind_eq_some_iff.mp h
    obtain ⟨spec, hspec, h⟩ := Option.bind_eq_some_iff.mp h
    obtain ⟨status, hstatus, h⟩ := Option.bind_eq_some_iff.mp h
    cases h
    exact ⟨fields, hfields, hmetadata, hspec, hstatus⟩
  · rintro ⟨fields, hfields, hmetadata, hspec, hstatus⟩
    simp only [fieldNames] at hfields
    simp [ofJson?, hfields, hmetadata, hspec, hstatus]

/-- The status as it is written, a null when there is none. -/
def writtenStatus (r : Resource α) : Json := .ofOption (r.status.map SyncStatus.toJson)

/-- A value with the spec of a resource written in its place. -/
def putSpec (writeSpec : α → Json) (r : Resource α) (j : Json) : Json :=
  j.setField fieldNames "spec" (writeSpec r.spec)

def putStatus (r : Resource α) (j : Json) : Json := j.setField fieldNames "status" r.writtenStatus

theorem ofJson?_putSpec (hcodec : Json.IsRecordCodec missing needed readSpec writeSpec) {j : Json}
    {r : Resource α} (h : ofJson? readSpec j = some r) :
    ofJson? readSpec (r.putSpec writeSpec j) = some r := by
  obtain ⟨fields, hfields, hmetadata, hspec, hstatus⟩ := ofJson?_eq_some.mp h
  obtain ⟨fields', hfields', hlookup⟩ :=
    Json.record?_setField (writeSpec r.spec) (by decide : "spec" ∈ fieldNames) hfields
  obtain ⟨spec, -, hread⟩ := Option.bind_eq_some_iff.mp hspec
  refine ofJson?_eq_some.mpr ⟨fields', hfields', ?_, ?_, ?_⟩
  · simpa [Json.required?, hlookup] using hmetadata
  · simpa [Json.required?, hlookup] using hcodec.again hread
  · simpa [Json.optional?, hlookup] using hstatus

theorem ofJson?_putStatus {j : Json} {r : Resource α} (h : ofJson? readSpec j = some r) :
    ofJson? readSpec (r.putStatus j) = some r := by
  obtain ⟨fields, hfields, hmetadata, hspec, hstatus⟩ := ofJson?_eq_some.mp h
  obtain ⟨fields', hfields', hlookup⟩ :=
    Json.record?_setField r.writtenStatus (by decide : "status" ∈ fieldNames) hfields
  refine ofJson?_eq_some.mpr ⟨fields', hfields', ?_, ?_, ?_⟩
  · simpa [Json.required?, hlookup] using hmetadata
  · simpa [Json.required?, hlookup] using hspec
  · simpa [Json.optional?, hlookup, writtenStatus] using
      SyncStatus.isRecordCodec.optional_again hstatus

/-- A field of a value that a resource is read from. -/
def field? (name : String) (j : Json) : Option Json :=
  (Json.record? fieldNames 3 j).bind (lookupEntry name)

/-- What becomes of a value `j`, read as a resource, once spec and status are written back. -/
structure SurvivesWriting (missing : List (String × Json)) (needed : Nat)
    (readSpec : Json → Option α) (writeSpec : α → Json) (j : Json) (r : Resource α) : Prop where
  spec : ∃ spec, field? "spec" j = some spec ∧
    Json.SurvivesWriting missing needed readSpec writeSpec spec r.spec
  status : ∀ s, r.status = some s → ∃ status, field? "status" j = some status ∧
    Json.SurvivesWriting SyncStatus.missing 5 SyncStatus.ofJson? SyncStatus.toJson status s
  noStatus : r.status = none →
    (field? "status" j = none ∨ field? "status" j = some .null) ∧ r.writtenStatus = .null
  putSpec : ofJson? readSpec (r.putSpec writeSpec j) = some r
  putStatus : ofJson? readSpec (r.putStatus j) = some r
  putBoth : ofJson? readSpec (r.putStatus (r.putSpec writeSpec j)) = some r
  writtenAgain : ∀ r', ofJson? readSpec (r.putStatus (r.putSpec writeSpec j)) = some r' →
    writeSpec r'.spec = writeSpec r.spec ∧ r'.writtenStatus = r.writtenStatus

theorem survivesWriting_of_ofJson? (hcodec : Json.IsRecordCodec missing needed readSpec writeSpec)
    {j : Json} {r : Resource α} (h : ofJson? readSpec j = some r) :
    SurvivesWriting missing needed readSpec writeSpec j r := by
  obtain ⟨fields, hfields, -, hspec, hstatus⟩ := ofJson?_eq_some.mp h
  have hfield : ∀ name, field? name j = lookupEntry name fields := by
    intro name
    rw [field?, hfields, Option.bind_some]
  have hboth := ofJson?_putStatus (ofJson?_putSpec hcodec h)
  refine ⟨?spec, ?status, ?noStatus, ofJson?_putSpec hcodec h, ofJson?_putStatus h, hboth, ?again⟩
  case spec =>
    obtain ⟨spec, hlookup, hread⟩ := Option.bind_eq_some_iff.mp hspec
    exact ⟨spec, (hfield _).trans hlookup, hcodec.survives hread⟩
  case status =>
    intro s hs
    rcases Json.optional?_cases hstatus with ⟨hnone, -⟩ | ⟨status, s', hs', hlookup, hread⟩
    · rw [hs] at hnone
      cases hnone
    · obtain rfl : s = s' := Option.some.inj (hs.symm.trans hs')
      exact ⟨status, (hfield _).trans hlookup, SyncStatus.isRecordCodec.survives hread⟩
  case noStatus =>
    intro hnone
    rcases Json.optional?_cases hstatus with ⟨-, hlookup⟩ | ⟨status, s, hs, -⟩
    · exact ⟨by rwa [hfield], by rw [writtenStatus, hnone]; rfl⟩
    · rw [hnone] at hs
      cases hs
  case again =>
    intro r' hr'
    obtain rfl : r = r' := Option.some.inj (hboth.symm.trans hr')
    exact ⟨rfl, rfl⟩

/-- Whatever systems, stacks and statuses are read from survives being written back: the value
is the same, and so is what is written the next time. -/
theorem survivesWriting :
    (∀ j r, SystemResource.ofJson? j = some r →
      SurvivesWriting SystemSpec.missing 2 SystemSpec.ofJson? SystemSpec.toJson j r) ∧
    (∀ j r, StackResource.ofJson? j = some r →
      SurvivesWriting StackSpec.missing 2 StackSpec.ofJson? StackSpec.toJson j r) ∧
    ∀ j s, SyncStatus.ofJson? j = some s →
      Json.SurvivesWriting SyncStatus.missing 5 SyncStatus.ofJson? SyncStatus.toJson j s :=
  ⟨fun _ _ => survivesWriting_of_ofJson? SystemSpec.isRecordCodec,
    fun _ _ => survivesWriting_of_ofJson? StackSpec.isRecordCodec,
    fun _ _ => SyncStatus.isRecordCodec.survives⟩

/-- A system with a field that nobody knows and without labels, and a stack with a value twice. -/
theorem survivesWriting_system_and_stack :
    SurvivesWriting SystemSpec.missing 2 SystemSpec.ofJson? SystemSpec.toJson
        (.object [("metadata", .object [("name", .string "payments")]),
          ("spec", .object [("team", .string "a"), ("type", .string "kubernetes")]),
          ("status", .array [.string "systems/payments", .bool true, .null, .ofInt 7, .null])])
        ⟨⟨some "payments", none, none, none, none, none⟩, ⟨"kubernetes", none, .empty⟩,
          some ⟨"systems/payments", true, none, some 7, none⟩⟩ ∧
      SurvivesWriting StackSpec.missing 2 StackSpec.ofJson? StackSpec.toJson
        (.object [("metadata", .object []),
          ("spec", .object
            [("selectorInclude", .object [("team", .array [.string "a", .string "a"])]),
              ("type", .string "kubernetes")])])
        ⟨⟨none, none, none, none, none, none⟩,
          ⟨"kubernetes", none, ⟨.singleton "team" ["a", "a"], .empty⟩⟩, none⟩ ∧
      Json.SurvivesWriting SyncStatus.missing 5 SyncStatus.ofJson? SyncStatus.toJson
        (.object [("policyPath", .string "stacks/edge"), ("upToDate", .bool false)])
        ⟨"stacks/edge", false, none, none, none⟩ :=
  ⟨survivesWriting.1 _ _ rfl, survivesWriting.2.1 _ _ rfl, survivesWriting.2.2 _ _ rfl⟩

end Resource

end PolicySync
