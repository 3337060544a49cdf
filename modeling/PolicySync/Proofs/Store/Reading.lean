import PolicySync.Proofs.Json.ReadBack
import PolicySync.Proofs.Store.Address

/-!
# What an answer of the policy API says

Every answer to a read is told by its status and its body: there is no policy, there are these
modules, or there is one error, which names the first module that is no text. An answer that is
malformed in any place is never taken for an absent or a smaller policy.
-/

namespace PolicySync

open PolicySync.Text

namespace Json

/-- Whether a text is JSON that can be read, and what it holds. -/
def IsDocument (text : String) (j : Json) : Prop :=
  ∃ w, Shows text w ∧ w.nesting ≤ maxNesting ∧ w.normal = j

/-- What a policy document has for its modules. -/
def modules? (document : Json) : Option Json :=
  (document.member? "result").bind fun result => result.member? "modules"

variable {w v : Json} {key : String} {members : List (String × Json)}

private theorem mem_normalMembers {m : String × Json} (h : m ∈ normalMembers members) :
    ∃ w : Json, m.2 = w.normal := by
  induction members with
  | nil => cases h
  | cons e rest ih =>
    rw [normalMembers] at h
    rcases List.mem_cons.mp h with rfl | h
    · exact ⟨e.2, rfl⟩
    · exact ih h

/-- A member of a value in normal form is in normal form. -/
theorem member?_normal (h : w.normal.member? key = some v) : ∃ w' : Json, v = w'.normal := by
  cases w with
  | object members =>
    have hget : (SortedMap.ofList (normalMembers members)).get? key = some v := h
    exact mem_normalMembers (SortedMap.mem_of_mem_ofList (SortedMap.get?_eq_some.mp hget))
  | _ => cases h

/-- The members of an object in normal form are sorted by key. -/
theorem sorted_normal (h : w.normal = .object members) :
    members.Pairwise fun a b => a.1 < b.1 := by
  cases w with
  | object unsorted =>
    rw [normal, ofMembers] at h
    cases h
    exact SortedMap.sorted _
  | _ => cases h

theorem sorted_modules? {document : Json} {text : String} (hdocument : IsDocument text document)
    (h : document.modules? = some (.object members)) :
    members.Pairwise fun a b => a.1 < b.1 := by
  obtain ⟨w, -, -, rfl⟩ := hdocument
  obtain ⟨result, hresult, hmodules⟩ := Option.bind_eq_some_iff.mp h
  obtain ⟨w', rfl⟩ := member?_normal hresult
  obtain ⟨w'', hobject⟩ := member?_normal hmodules
  exact sorted_normal hobject.symm

end Json

namespace Reply

variable {path : String} {r : Reply}

/-- What an answer to a read says about the policy at a path. -/
inductive Says (path : String) (r : Reply) : Except StoreError (Option PolicyModules) → Prop
  | absent (hstatus : r.status = 404) : Says path r (.ok none)
  | present {document : Json} {modules : PolicyModules} (hsuccess : r.isSuccess = true)
      (hdocument : Json.IsDocument r.body document)
      (hmodules : document.modules? = some (.ofTexts modules)) : Says path r (.ok (some modules))
  | noModules {document : Json} (hsuccess : r.isSuccess = true)
      (hdocument : Json.IsDocument r.body document)
      (hmodules : ∀ members, document.modules? ≠ some (.object members)) :
      Says path r (.error (.missingModules path))
  | nonText {document value : Json} {members : List (String × Json)} {file : String}
      (hsuccess : r.isSuccess = true) (hdocument : Json.IsDocument r.body document)
      (hmodules : document.modules? = some (.object members)) (hmem : (file, value) ∈ members)
      (hvalue : value.string? = none) (hfirst : ∀ m ∈ members, m.2.string? = none → file ≤ m.1) :
      Says path r (.error (.nonTextModule path file))
  | unreadable (hsuccess : r.isSuccess = true)
      (hbody : ¬ ∃ document, Json.IsDocument r.body document) : Says path r (.error .request)
  | refused (hstatus : r.status ≠ 404) (hsuccess : r.isSuccess = false) :
      Says path r (.error (.status path r.status r.body))

theorem textMembers_ofTexts (path : String) (entries : List (String × String)) :
    textMembers path (entries.map fun e => (e.1, .string e.2)) = .ok entries := by
  induction entries with
  | nil => rfl
  | cons e rest ih =>
    rw [List.map_cons, textMembers, ih]
    rfl

private theorem textMembers_nonText {before after : List (String × Json)} {file : String}
    {value : Json} (hbefore : ∀ m ∈ before, m.2.string? ≠ none) (hvalue : value.string? = none) :
    textMembers path (before ++ (file, value) :: after) = .error (.nonTextModule path file) := by
  induction before with
  | nil =>
    cases value with
    | string s => cases hvalue
    | _ => rfl
  | cons m rest ih =>
    obtain ⟨hm, hrest⟩ := List.forall_mem_cons.mp hbefore
    obtain ⟨name, shown⟩ := m
    cases shown with
    | string s =>
      rw [List.cons_append, textMembers, ih hrest]
      rfl
    | _ => exact absurd rfl hm

/-- Members are all texts, or there is a first that is none. -/
private theorem texts_or_nonText (members : List (String × Json)) :
    (∃ entries : List (String × String), members = entries.map fun e => (e.1, .string e.2)) ∨
    ∃ before file value after, members = before ++ (file, value) :: after ∧
      (∀ m ∈ before, m.2.string? ≠ none) ∧ value.string? = none := by
  induction members with
  | nil => exact .inl ⟨[], rfl⟩
  | cons m rest ih =>
    obtain ⟨name, shown⟩ := m
    cases hshown : shown.string? with
    | none => exact .inr ⟨[], name, shown, rest, rfl, by simp, hshown⟩
    | some s =>
      rcases ih with ⟨entries, rfl⟩ | ⟨before, file, value, after, rfl, hbefore, hvalue⟩
      · cases shown with
        | string t => exact .inl ⟨(name, t) :: entries, rfl⟩
        | _ => cases hshown
      · refine .inr ⟨(name, shown) :: before, file, value, after, rfl, ?_, hvalue⟩
        exact List.forall_mem_cons.mpr ⟨by simp [hshown], hbefore⟩

/-- In sorted members, the first that is no text has the least name of those. -/
private theorem first_nonText {before after : List (String × Json)} {file : String} {value : Json}
    (hsorted : (before ++ (file, value) :: after).Pairwise fun a b => a.1 < b.1)
    (hbefore : ∀ m ∈ before, m.2.string? ≠ none) {m : String × Json}
    (hm : m ∈ before ++ (file, value) :: after) (hnone : m.2.string? = none) :
    m = (file, value) ∨ file < m.1 := by
  rcases List.mem_append.mp hm with hm | hm
  · exact absurd hnone (hbefore m hm)
  rcases List.mem_cons.mp hm with rfl | hm
  · exact .inl rfl
  · have hafter := (List.pairwise_cons.mp (List.pairwise_append.mp hsorted).2.1).1
    exact .inr (hafter m hm)

private theorem status_ne_of_isSuccess (h : r.isSuccess = true) : r.status ≠ 404 := by
  intro hstatus
  rw [isSuccess, hstatus] at h
  cases h

private theorem readGet_of_document {document : Json} (hsuccess : r.isSuccess = true)
    (hdocument : Json.IsDocument r.body document) :
    r.readGet path = (modules path document).map some := by
  have hparse : Json.parse? r.body = some document := Json.parse?_iff.mpr hdocument
  rw [readGet, if_neg (status_ne_of_isSuccess hsuccess), hsuccess, hparse]
  rfl

private theorem modules_object {document : Json} {members : List (String × Json)}
    (h : document.modules? = some (.object members)) :
    modules path document = (textMembers path members).map SortedMap.ofList := by
  rw [Json.modules?] at h
  rw [modules, h]

private theorem modules_noObject {document : Json}
    (h : ∀ members, document.modules? ≠ some (.object members)) :
    modules path document = .error (.missingModules path) := by
  rw [modules]
  split
  · next members heq => exact absurd heq (h members)
  · rfl

/-- Whatever an answer is, it says what is read from it. -/
theorem says_readGet (path : String) (r : Reply) : r.Says path (r.readGet path) := by
  by_cases hstatus : r.status = 404
  · rw [readGet, if_pos hstatus]
    exact .absent hstatus
  cases hsuccess : r.isSuccess with
  | false =>
    rw [readGet, if_neg hstatus, hsuccess]
    exact .refused hstatus hsuccess
  | true =>
    cases hparse : Json.parse? r.body with
    | none =>
      rw [readGet, if_neg hstatus, hsuccess, hparse]
      refine .unreadable hsuccess ?_
      rintro ⟨document, hdocument⟩
      have hsome : Json.parse? r.body = some document := Json.parse?_iff.mpr hdocument
      rw [hparse] at hsome
      cases hsome
    | some document =>
      have hdocument : Json.IsDocument r.body document := Json.parse?_iff.mp hparse
      rw [readGet_of_document hsuccess hdocument]
      by_cases hobject : ∃ members, document.modules? = some (.object members)
      · obtain ⟨members, hmodules⟩ := hobject
        rw [modules_object hmodules]
        rcases texts_or_nonText members with ⟨entries, rfl⟩ |
          ⟨before, file, value, after, rfl, hbefore, hvalue⟩
        · rw [textMembers_ofTexts]
          have hsorted := Json.sorted_modules? hdocument hmodules
          rw [List.pairwise_map] at hsorted
          refine .present hsuccess hdocument (hmodules.trans ?_)
          rw [Json.ofTexts, SortedMap.entries_ofList hsorted]
        · rw [textMembers_nonText hbefore hvalue]
          have hsorted := Json.sorted_modules? hdocument hmodules
          refine .nonText hsuccess hdocument hmodules (by simp) hvalue fun m hm hnone => ?_
          rcases first_nonText hsorted hbefore hm hnone with rfl | hlt
          · exact String.le_refl _
          · exact Std.le_of_lt hlt
      · have hnone : ∀ members, document.modules? ≠ some (.object members) := by
          intro members heq
          exact hobject ⟨members, heq⟩
        rw [modules_noObject hnone]
        exact .noModules hsuccess hdocument hnone

theorem readGet_of_says {answer : Except StoreError (Option PolicyModules)}
    (h : r.Says path answer) : r.readGet path = answer := by
  cases h with
  | absent hstatus => rw [readGet, if_pos hstatus]
  | present hsuccess hdocument hmodules =>
    rw [readGet_of_document hsuccess hdocument, modules_object hmodules, textMembers_ofTexts]
    exact congrArg (fun m => Except.ok (some m)) (SortedMap.ofList_entries _)
  | noModules hsuccess hdocument hmodules =>
    rw [readGet_of_document hsuccess hdocument, modules_noObject hmodules]
    rfl
  | @nonText document value members file hsuccess hdocument hmodules hmem hvalue hfirst =>
    rw [readGet_of_document hsuccess hdocument, modules_object hmodules]
    rcases texts_or_nonText members with ⟨entries, rfl⟩ |
      ⟨before, file', value', after, rfl, hbefore, hvalue'⟩
    · obtain ⟨e, -, heq⟩ := List.mem_map.mp hmem
      cases heq
      cases hvalue
    · -- the member that is reported is the first, and the one in the answer has the least name
      have hsorted := Json.sorted_modules? hdocument hmodules
      have hle : file ≤ file' := hfirst (file', value') (by simp) hvalue'
      have heq : file = file' := by
        rcases first_nonText hsorted hbefore hmem hvalue with heq | hlt
        · exact congrArg Prod.fst heq
        · exact absurd hlt (String.not_lt.mpr hle)
      rw [textMembers_nonText hbefore hvalue', heq]
      rfl
  | unreadable hsuccess hbody =>
    have hparse : Json.parse? r.body = none := by
      rw [Option.eq_none_iff_forall_ne_some]
      intro document hsome
      exact hbody ⟨document, Json.parse?_iff.mp hsome⟩
    rw [readGet, if_neg (status_ne_of_isSuccess hsuccess), hsuccess, hparse]
    rfl
  | refused hstatus hsuccess =>
    rw [readGet, if_neg hstatus, hsuccess]
    rfl

/-- What is read from an answer is what it says, and nothing else. -/
theorem readGet_eq_iff {answer : Except StoreError (Option PolicyModules)} :
    r.readGet path = answer ↔ r.Says path answer := by
  constructor
  · rintro rfl
    exact says_readGet path r
  · intro h
    exact readGet_of_says h

theorem isSuccess_iff : r.isSuccess = true ↔ 200 ≤ r.status ∧ r.status ≤ 299 := by
  rw [isSuccess, Bool.and_eq_true, decide_eq_true_eq, decide_eq_true_eq]
  omega

theorem readGet_absent : r.readGet path = .ok none ↔ r.status = 404 := by
  rw [readGet_eq_iff]
  constructor
  · intro h
    cases h with
    | absent hstatus => exact hstatus
  · exact .absent

theorem readGet_present {modules : PolicyModules} :
    r.readGet path = .ok (some modules) ↔ r.isSuccess = true ∧
      ∃ document, Json.IsDocument r.body document ∧
        document.modules? = some (.ofTexts modules) := by
  rw [readGet_eq_iff]
  constructor
  · intro h
    cases h with
    | present hsuccess hdocument hmodules => exact ⟨hsuccess, _, hdocument, hmodules⟩
  · rintro ⟨hsuccess, document, hdocument, hmodules⟩
    exact .present hsuccess hdocument hmodules

theorem readGet_noModules : r.readGet path = .error (.missingModules path) ↔ r.isSuccess = true ∧
    ∃ document, Json.IsDocument r.body document ∧
      ∀ members, document.modules? ≠ some (.object members) := by
  rw [readGet_eq_iff]
  constructor
  · intro h
    cases h with
    | noModules hsuccess hdocument hmodules => exact ⟨hsuccess, _, hdocument, hmodules⟩
  · rintro ⟨hsuccess, document, hdocument, hmodules⟩
    exact .noModules hsuccess hdocument hmodules

theorem readGet_nonText {file : String} : r.readGet path = .error (.nonTextModule path file) ↔
    r.isSuccess = true ∧ ∃ document members value, Json.IsDocument r.body document ∧
      document.modules? = some (.object members) ∧ (file, value) ∈ members ∧
      value.string? = none ∧ ∀ m ∈ members, m.2.string? = none → file ≤ m.1 := by
  rw [readGet_eq_iff]
  constructor
  · intro h
    cases h with
    | nonText hsuccess hdocument hmodules hmem hvalue hfirst =>
      exact ⟨hsuccess, _, _, _, hdocument, hmodules, hmem, hvalue, hfirst⟩
  · rintro ⟨hsuccess, document, members, value, hdocument, hmodules, hmem, hvalue, hfirst⟩
    exact .nonText hsuccess hdocument hmodules hmem hvalue hfirst

theorem readGet_unreadable : r.readGet path = .error .request ↔
    r.isSuccess = true ∧ ¬ ∃ document, Json.IsDocument r.body document := by
  rw [readGet_eq_iff]
  constructor
  · intro h
    cases h with
    | unreadable hsuccess hbody => exact ⟨hsuccess, hbody⟩
  · rintro ⟨hsuccess, hbody⟩
    exact .unreadable hsuccess hbody

theorem readGet_refused : r.readGet path = .error (.status path r.status r.body) ↔
    r.status ≠ 404 ∧ ¬ r.isSuccess = true := by
  rw [readGet_eq_iff, Bool.not_eq_true]
  constructor
  · intro h
    cases h with
    | refused hstatus hsuccess => exact ⟨hstatus, hsuccess⟩
  · rintro ⟨hstatus, hsuccess⟩
    exact .refused hstatus hsuccess

end Reply

/-! ## Documents that nest too deep -/

namespace Json

/-- Arrays in arrays, one inside the other. -/
def nested : Nat → Json
  | 0 => .array []
  | n + 1 => .array [nested n]

theorem isWhole_nested (n : Nat) : (nested n).isWhole = true := by
  induction n with
  | zero => rfl
  | succ n ih =>
    rw [nested, isWhole, allWhole, ih]
    rfl

private theorem text_nested (n : Nat) :
    (nested n).text.toList = List.replicate (n + 1) '[' ++ List.replicate (n + 1) ']' := by
  induction n with
  | zero => rfl
  | succ n ih =>
    have hclose : List.replicate (n + 2) ']' = List.replicate (n + 1) ']' ++ [']'] :=
      List.replicate_succ'
    have hopen : List.replicate (n + 2) '[' = '[' :: List.replicate (n + 1) '[' := rfl
    rw [nested, text, itemsText, String.toList_append, String.toList_append, ih, hopen, hclose]
    simp

private theorem scanValue_nested {fuel depth n : Nat} (h : depth ≤ n) (rest : List Char) :
    scanValue fuel depth (List.replicate (n + 1) '[' ++ rest) = none := by
  induction n generalizing fuel depth with
  | zero =>
    obtain rfl : depth = 0 := Nat.le_zero.mp h
    cases fuel <;> rfl
  | succ n ih =>
    have hopen : List.replicate (n + 2) '[' ++ rest =
        '[' :: '[' :: (List.replicate n '[' ++ rest) := rfl
    rw [hopen]
    cases fuel with
    | zero => rfl
    | succ fuel =>
      cases depth with
      | zero => rfl
      | succ depth =>
        have hitems : scanItems fuel depth ('[' :: (List.replicate n '[' ++ rest)) = none := by
          cases fuel with
          | zero => rfl
          | succ fuel =>
            have hitem : scanValue fuel depth (List.replicate (n + 1) '[' ++ rest) = none :=
              ih (by omega)
            rw [List.replicate_succ, List.cons_append] at hitem
            rw [scanItems, hitem]
            rfl
        rw [scanValue, skipSpace_cons rfl]
        simp only [skipSpace_cons (show isSpace '[' = false from rfl)]
        change ((scanItems fuel depth _).bind _) = _
        rw [hitems]
        rfl

/-- Arrays that nest deeper than allowed are no document. -/
theorem parse?_nested {n : Nat} (h : maxNesting ≤ n) : parse? (nested n).text = none := by
  rw [parse?, parseWithin?, text_nested]
  change ((scanValue _ _ _).bind _) = _
  rw [scanValue_nested h]
  rfl

end Json

/-- An answer to a read is told by its status and its body. There is no policy exactly for the
status 404. For a status of success, the modules are exactly those of the document in the body, or
the answer is refused: for a document without modules, for the first module that is no text, or for
a body that is no document. For any other status the answer is refused with that status and body. -/
theorem get_classified {σ : Type} (c : HttpClient) (x : Exchange σ) {path : String} {s t : σ}
    {r : Reply} (hanswer : x.send (c.getRequest? path) s = (some r, t)) :
    let answer := ((httpStore c x).get path s).1
    let success := 200 ≤ r.status ∧ r.status ≤ 299
    (answer = .ok none ↔ r.status = 404) ∧
    (∀ modules, answer = .ok (some modules) ↔ success ∧
      ∃ document, Json.IsDocument r.body document ∧ document.modules? = some (.ofTexts modules)) ∧
    (answer = .error (.missingModules path) ↔ success ∧
      ∃ document, Json.IsDocument r.body document ∧
        ∀ members, document.modules? ≠ some (.object members)) ∧
    (∀ file, answer = .error (.nonTextModule path file) ↔ success ∧
      ∃ document members value, Json.IsDocument r.body document ∧
        document.modules? = some (.object members) ∧ (file, value) ∈ members ∧
        value.string? = none ∧ ∀ m ∈ members, m.2.string? = none → file ≤ m.1) ∧
    (answer = .error .request ↔ success ∧ ¬ ∃ document, Json.IsDocument r.body document) ∧
    (answer = .error (.status path r.status r.body) ↔ r.status ≠ 404 ∧ ¬ success) ∧
    r.Says path answer := by
  have hget : ((httpStore c x).get path s).1 = r.readGet path := by
    rw [httpStore_get_answer, hanswer]
  intro answer success
  have hanswer : answer = r.readGet path := hget
  have hsuccess : success ↔ r.isSuccess = true := Reply.isSuccess_iff.symm
  rw [hanswer, hsuccess]
  exact ⟨Reply.readGet_absent, fun _ => Reply.readGet_present, Reply.readGet_noModules,
    fun _ => Reply.readGet_nonText, Reply.readGet_unreadable, Reply.readGet_refused,
    Reply.says_readGet path r⟩

theorem get_classified_nonText :
    let w := Json.object [("result", .object [("modules", .object [("c", .ofInt 1), ("b", .null),
      ("a", .string "x"), ("b", .array [])])])]
    let x : Exchange Unit := fun _ s => (some ⟨200, w.text⟩, s)
    x.send ((HttpClient.mk "" none).getRequest? "metadata/a/labels") () =
        (some ⟨200, w.text⟩, ()) ∧
      ((httpStore ⟨"", none⟩ x).get "metadata/a/labels" ()).1 =
        .error (.nonTextModule "metadata/a/labels" "b") := by
  intro w x
  have hanswer : x.send ((HttpClient.mk "" none).getRequest? "metadata/a/labels") () =
      (some ⟨200, w.text⟩, ()) := rfl
  have hnil : Json.IsSpaces [] := rfl
  have hshows : Json.Shows w.text w := .bare hnil (Json.written_text hnil w rfl)
  have hnormal : w.normal = .object [("result", .object [("modules", .object [
      ("a", .string "x"), ("b", .array []), ("c", .ofInt 1)])])] := by
    rfl
  have hdocument : Json.IsDocument w.text _ := ⟨w, hshows, by decide, hnormal⟩
  have hnonText := (get_classified ⟨"", none⟩ x hanswer).2.2.2.1 "b"
  refine ⟨hanswer, hnonText.mpr ⟨by decide, _, _, .array [], hdocument, rfl, by simp, rfl, ?_⟩⟩
  simp [Json.string?, Json.ofInt]

/-- A body can be JSON and still be refused as unreadable, because its arrays nest too deep. -/
theorem get_unreadable_json :
    let body := (Json.nested 127).text
    let x : Exchange Unit := fun _ s => (some ⟨200, body⟩, s)
    (∃ w, Json.Shows body w) ∧
      ((httpStore ⟨"", none⟩ x).get "metadata/a/labels" ()).1 = .error .request := by
  intro body x
  have hnil : Json.IsSpaces [] := rfl
  have hshows := Json.written_text hnil (Json.nested 127) (Json.isWhole_nested 127)
  refine ⟨⟨Json.nested 127, .bare hnil hshows⟩, ?_⟩
  have hnone : ¬ ∃ document, Json.IsDocument body document := by
    rintro ⟨document, hdocument⟩
    have hparse : Json.parse? (Json.nested 127).text = some document :=
      Json.parse?_iff.mpr hdocument
    rw [Json.parse?_nested (n := 127) (Nat.le_refl _)] at hparse
    cases hparse
  rw [httpStore_get_answer]
  exact Reply.readGet_unreadable.mpr ⟨rfl, hnone⟩

end PolicySync
