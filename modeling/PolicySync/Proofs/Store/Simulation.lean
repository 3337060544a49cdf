import PolicySync.Proofs.Store.Reading

/-!
# A policy API answers as memory does

A policy API keeps modules by request target, sends them as JSON and takes them from the JSON it is
sent. Through such an API the policies of resources are kept as in memory: the same reads and writes
get the same answers, as long as their URLs and headers can be built and stay apart.
-/

namespace PolicySync

/-- A policy API. How it spells a document is left open, and so are the bodies that say nothing. -/
structure PolicyApi where
  shown : PolicyModules → String
  parse?_shown : ∀ modules, Json.parse? (shown modules) = some (PolicyService.document modules)
  absentBody : String
  storedBody : String

namespace PolicyApi

/-- The modules in the body of a write. -/
def sentModules? (body : String) : Option PolicyModules :=
  ((Json.parse? body).bind fun document => document.member? "modules").bind Json.texts?

/-- Answers from the modules at the target of a request. -/
def serve (api : PolicyApi) : Exchange Policies := fun r stored =>
  match r.method with
  | .get =>
    match stored.get? r.target with
    | none => (some ⟨404, api.absentBody⟩, stored)
    | some modules => (some ⟨200, api.shown modules⟩, stored)
  | .put =>
    match (r.body.map Json.text).bind sentModules? with
    | none => (some ⟨400, ""⟩, stored)
    | some modules => (some ⟨200, api.storedBody⟩, stored.insert r.target modules)

end PolicyApi

/-! ## Bodies -/

theorem PolicyApi.sentModules?_putBody (modules : PolicyModules) :
    sentModules? (HttpClient.putBody modules).text = some modules := by
  have hreads : Json.ReadsBack Json.maxNesting (HttpClient.putBody modules) :=
    Json.readsBack_singleton "modules" (Json.readsBack_ofTexts 125 modules)
  rw [sentModules?, Json.parse?_text hreads]
  exact Json.texts?_ofTexts modules

/-- The API that writes documents without blanks. -/
def PolicyApi.plain : PolicyApi where
  shown modules := (PolicyService.document modules).text
  parse?_shown modules :=
    Json.parse?_text (Json.readsBack_singleton "result"
      (Json.readsBack_singleton "modules" (Json.readsBack_ofTexts 124 modules)))
  absentBody := ""
  storedBody := ""

theorem readGet_shown (api : PolicyApi) (path : String) (modules : PolicyModules) :
    Reply.readGet path ⟨200, api.shown modules⟩ = .ok (some modules) := by
  have hdocument : Json.IsDocument (api.shown modules) (PolicyService.document modules) :=
    Json.parse?_iff.mp (api.parse?_shown modules)
  exact Reply.readGet_present.mpr ⟨rfl, _, hdocument, rfl⟩

/-! ## Requests -/

/-- A read or a write of the policy of a resource. -/
inductive PolicyRequest where
  | get (r : ResourceKind × String)
  | put (r : ResourceKind × String) (modules : PolicyModules)

inductive PolicyAnswer where
  | got (answer : Except StoreError (Option PolicyModules))
  | put (answer : Except StoreError Unit)
  deriving DecidableEq

namespace PolicyRequest

def resource : PolicyRequest → ResourceKind × String
  | get r => r
  | put r _ => r

def run {σ : Type} (store : PolicyStore σ) (s : σ) : PolicyRequest → PolicyAnswer × σ
  | get r =>
    let (answer, t) := store.get (policyPath r) s
    (.got answer, t)
  | put r modules =>
    let (answer, t) := store.put (policyPath r) modules s
    (.put answer, t)

variable {σ : Type} (store : PolicyStore σ) (s : σ) (r : ResourceKind × String)

theorem run_get : (get r).run store s =
    (.got (store.get (policyPath r) s).1, (store.get (policyPath r) s).2) := rfl

theorem run_put (modules : PolicyModules) : (put r modules).run store s =
    (.put (store.put (policyPath r) modules s).1, (store.put (policyPath r) modules s).2) := rfl

end PolicyRequest

/-- What requests are answered one after the other. -/
def answers {σ : Type} (store : PolicyStore σ) : List PolicyRequest → σ → List PolicyAnswer
  | [], _ => []
  | q :: rest, s => (q.run store s).1 :: answers store rest (q.run store s).2

/-- Whether the policies of resources that are kept by target are those that are kept by path. -/
def SameContents (c : HttpClient) (stored policies : Policies) : Prop :=
  ∀ r : ResourceKind × String, isObjectName r.2 = true → ∀ t, c.target? (policyPath r) = some t →
    stored.get? t = policies.get? (policyPath r)

section

variable {c : HttpClient} {stored policies : Policies} {path t : String}
  {authorization : Option String}

theorem HttpClient.request?_eq (htarget : c.target? path = some t)
    (hauthorization : c.authorization? = some authorization) (method : Method)
    (body : Option Json) :
    c.request? method path body = some ⟨method, t, authorization, body⟩ := by
  rw [request?, htarget, hauthorization]
  rfl

theorem httpStore_get_serve (api : PolicyApi) (stored : Policies)
    (htarget : c.target? path = some t) (hauthorization : c.authorization? = some authorization) :
    (httpStore c api.serve).get path stored = (.ok (stored.get? t), stored) := by
  have hrequest := HttpClient.request?_eq htarget hauthorization .get none
  simp only [httpStore, HttpClient.getRequest?, hrequest, Exchange.send, PolicyApi.serve]
  cases stored.get? t with
  | none => rfl
  | some modules =>
    change (Reply.readGet path _, stored) = _
    rw [readGet_shown]

theorem httpStore_put_serve (api : PolicyApi) (stored : Policies)
    (htarget : c.target? path = some t) (hauthorization : c.authorization? = some authorization)
    (modules : PolicyModules) :
    (httpStore c api.serve).put path modules stored = (.ok (), stored.insert t modules) := by
  have hrequest :=
    HttpClient.request?_eq htarget hauthorization .put (some (HttpClient.putBody modules))
  simp only [httpStore, HttpClient.putRequest?, hrequest, Exchange.send, PolicyApi.serve,
    Option.map_some, Option.bind_some, PolicyApi.sentModules?_putBody]
  rfl

theorem SameContents.insert (hbase : '#' ∉ c.base.toList) (h : SameContents c stored policies)
    {r : ResourceKind × String} (hname : isObjectName r.2 = true)
    (htarget : c.target? (policyPath r) = some t) (modules : PolicyModules) :
    SameContents c (stored.insert t modules) (policies.insert (policyPath r) modules) := by
  intro other hother u hu
  rw [SortedMap.get?_insert, SortedMap.get?_insert]
  by_cases hpath : policyPath r = policyPath other
  · have htu : t = u := Option.some.inj ((htarget.symm.trans (congrArg _ hpath)).trans hu)
    rw [if_pos htu, if_pos hpath]
  · have htu : t ≠ u := by
      rintro rfl
      exact hpath (HttpClient.target?_inj hbase
        (isPlainPath_policyPath (.of_isObjectName hname))
        (isPlainPath_policyPath (.of_isObjectName hother)) htarget hu)
    rw [if_neg htu, if_neg hpath]
    exact h other hother u hu

theorem HttpClient.authorization?_isSome
    (h : ∀ token, c.token = some token → isHeaderText token = true) :
    c.authorization?.isSome = true := by
  rw [authorization?]
  cases htoken : c.token with
  | none => rfl
  | some token => simp only [h token htoken, if_true, Option.isSome_some]

/-- Whether the requests for a resource can be built. -/
structure HttpClient.Reaches (c : HttpClient) (r : ResourceKind × String) : Prop where
  url : (c.target? (policyPath r)).isSome = true
  header : c.authorization?.isSome = true

/-- One request is answered alike, and leaves the same contents. -/
theorem PolicyRequest.run_simulates (api : PolicyApi) (hbase : '#' ∉ c.base.toList)
    (h : SameContents c stored policies) {q : PolicyRequest}
    (hname : isObjectName q.resource.2 = true) (hreaches : c.Reaches q.resource) :
    (q.run (httpStore c api.serve) stored).1 = (q.run memoryStore policies).1 ∧
      SameContents c (q.run (httpStore c api.serve) stored).2 (q.run memoryStore policies).2 := by
  obtain ⟨authorization, hauthorization⟩ := Option.isSome_iff_exists.mp hreaches.header
  obtain ⟨t, htarget⟩ := Option.isSome_iff_exists.mp hreaches.url
  cases q with
  | get r =>
    have hget := httpStore_get_serve api stored htarget hauthorization
    have hstored : stored.get? t = policies.get? (policyPath r) := h r hname t htarget
    rw [resource] at hget
    rw [run_get, run_get, hget, memoryStore_get, hstored]
    exact ⟨rfl, h⟩
  | put r modules =>
    have hput := httpStore_put_serve api stored htarget hauthorization modules
    rw [resource] at hput
    rw [run_put, run_put, hput, memoryStore_put]
    exact ⟨rfl, h.insert hbase hname htarget modules⟩

/-- Any reads and writes of the policies of objects are answered through a policy API as they are in
memory, from the same contents, when the base URL has no fragment, takes the paths, and the token,
if any, may stand in a header. -/
theorem answers_httpStore_eq_memoryStore (api : PolicyApi) (hbase : '#' ∉ c.base.toList)
    (htoken : ∀ token, c.token = some token → HttpClient.isHeaderText token = true)
    (requests : List PolicyRequest)
    (hnames : ∀ q ∈ requests, isObjectName q.resource.2 = true)
    (hurls : ∀ q ∈ requests, (c.target? (policyPath q.resource)).isSome = true)
    (h : SameContents c stored policies) :
    answers (httpStore c api.serve) requests stored = answers memoryStore requests policies := by
  induction requests generalizing stored policies with
  | nil => rw [answers, answers]
  | cons q rest ih =>
    have hreaches : c.Reaches q.resource :=
      ⟨hurls q List.mem_cons_self, HttpClient.authorization?_isSome htoken⟩
    obtain ⟨hanswer, hcontents⟩ :=
      PolicyRequest.run_simulates api hbase h (hnames q List.mem_cons_self) hreaches
    have hrest := ih (fun p hp => hnames p (List.mem_cons_of_mem q hp))
      (fun p hp => hurls p (List.mem_cons_of_mem q hp)) hcontents
    rw [answers, answers, hanswer, hrest]

end

/-- Modules whose file name and text have quotes, line ends and characters beyond ASCII. -/
def oddModules : PolicyModules := .ofList [("é \"q\".rego", "package p\n\"\\\t\u2028")]

/-- Two resources are written, one of them again, and all are read. -/
theorem answers_httpStore_eq_memoryStore_tenant :
    let c : HttpClient := ⟨"/tenant/", some "t0k"⟩
    let requests : List PolicyRequest :=
      [.get (.system, "web"), .put (.system, "web") oddModules, .put (.stack, "web") .empty,
        .get (.system, "web"), .get (.stack, "web"), .get (.system, "db.prod")]
    ('#' ∉ c.base.toList ∧ (∀ token, c.token = some token → HttpClient.isHeaderText token = true) ∧
      (∀ q ∈ requests, isObjectName q.resource.2 = true) ∧
      (∀ q ∈ requests, (c.target? (policyPath q.resource)).isSome = true) ∧
      SameContents c .empty .empty) ∧
    answers (httpStore c PolicyApi.plain.serve) requests .empty =
      [.got (.ok none), .put (.ok ()), .put (.ok ()), .got (.ok (some oddModules)),
        .got (.ok (some .empty)), .got (.ok none)] := by
  intro c requests
  have hbase : '#' ∉ c.base.toList := by decide
  have htoken : ∀ token, c.token = some token → HttpClient.isHeaderText token = true := by
    intro token htoken
    cases htoken
    decide
  have hnames : ∀ q ∈ requests, isObjectName q.resource.2 = true := by decide
  have hurls : ∀ q ∈ requests, (c.target? (policyPath q.resource)).isSome = true :=
    fun q _ => HttpClient.target?_isSome (by decide) _
  have hcontents : SameContents c .empty .empty := fun _ _ _ _ => rfl
  refine ⟨⟨hbase, htoken, hnames, hurls, hcontents⟩, ?_⟩
  rw [answers_httpStore_eq_memoryStore PolicyApi.plain hbase htoken requests hnames hurls hcontents]
  decide

/-- When the base URL has a fragment, all policies have one target, and are kept as one. -/
theorem answers_of_fragment :
    let c : HttpClient := ⟨"/#", none⟩
    let modules : PolicyModules := .ofList [("labels.rego", "a")]
    let requests : List PolicyRequest := [.put (.system, "a") modules, .get (.system, "b")]
    answers (httpStore c PolicyApi.plain.serve) requests .empty =
        [.put (.ok ()), .got (.ok (some modules))] ∧
      answers memoryStore requests .empty = [.put (.ok ()), .got (.ok none)] := by
  intro c modules requests
  have htarget : ∀ r, (r = (.system, "a") ∨ r = (.system, "b")) →
      c.target? (policyPath r) = some "/" := by
    rintro r (rfl | rfl) <;> decide
  have htoken : c.authorization? = some none := rfl
  have hput := httpStore_put_serve PolicyApi.plain .empty
    (htarget (.system, "a") (.inl rfl)) htoken modules
  have hget := httpStore_get_serve PolicyApi.plain (SortedMap.insert .empty "/" modules)
    (htarget (.system, "b") (.inr rfl)) htoken
  refine ⟨?_, by decide⟩
  simp only [requests, answers, PolicyRequest.run_put, PolicyRequest.run_get, hput, hget,
    SortedMap.get?_insert, if_true]

end PolicySync
