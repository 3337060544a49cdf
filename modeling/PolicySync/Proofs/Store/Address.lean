import PolicySync.Proofs.Store.Target
import PolicySync.Proofs.Sync.Call
import PolicySync.Store.Service

/-!
# Addresses of policies

Two plain paths have different targets. What is stored for a resource is then out of reach of
requests for another.
-/

namespace PolicySync

/-- An id that stands in a URL as it is, but for escapes. -/
structure IsAddressable (id : String) : Prop where
  literal : id.toList.all Target.isLiteral = true
  names : (Target.segments id.toList).all Target.isName = true

instance (id : String) : Decidable (IsAddressable id) :=
  decidable_of_iff (id.toList.all Target.isLiteral = true ∧
    (Target.segments id.toList).all Target.isName = true) ⟨fun h => ⟨h.1, h.2⟩, fun h => ⟨h.1, h.2⟩⟩

/-- The names that objects of the cluster can have are addressable. -/
theorem IsAddressable.of_isObjectName {id : String} (h : isObjectName id = true) :
    IsAddressable id := by
  rw [isObjectName, Bool.and_eq_true, Bool.and_eq_true, List.all_eq_true] at h
  obtain ⟨⟨hchars, hhead⟩, -⟩ := h
  have hliteral : id.toList.all Target.isLiteral = true := by
    refine List.all_eq_true.mpr fun c hc => ?_
    by_contra hspecial
    have hchar := hchars c hc
    simp only [Target.isLiteral, Bool.not_eq_true', Bool.not_eq_false, List.contains_iff_mem,
      List.mem_cons, List.not_mem_nil, or_false] at hspecial
    rcases hspecial with rfl | rfl | rfl | rfl | rfl | rfl | rfl <;> revert hchar <;> decide
  have hwhole : Target.segments id.toList = [id.toList] := by
    refine Target.segments_of_no_separator fun c hc hseparator => ?_
    have hchar := hchars c hc
    rcases hseparator with rfl | rfl <;> revert hchar <;> decide
  refine ⟨hliteral, ?_⟩
  rw [hwhole, List.all_cons, List.all_nil, Bool.and_true, Target.isName, Bool.and_eq_true,
    decide_eq_true_eq, decide_eq_true_eq]
  constructor
  · intro hdot
    rw [hdot] at hhead
    cases hhead
  · intro hdots
    rw [hdots] at hhead
    cases hhead

theorem isPlainPath_policyPath {r : ResourceKind × String} (h : IsAddressable r.2) :
    Target.IsPlainPath (policyPath r).toList := by
  obtain ⟨kind, id⟩ := r
  cases kind with
  | system =>
    have hpath : (policyPath (.system, id)).toList =
        "metadata".toList ++ '/' :: (id.toList ++ '/' :: "labels".toList) := by
      simp [policyPath, labelsPath]
    rw [hpath]
    exact .between ⟨rfl, rfl, rfl⟩ h.literal h.names ⟨rfl, rfl, rfl⟩
  | stack =>
    have hpath : (policyPath (.stack, id)).toList =
        "stacks".toList ++ '/' :: (id.toList ++ '/' :: "selectors".toList) := by
      simp [policyPath, selectorsPath]
    rw [hpath]
    exact .between ⟨rfl, rfl, rfl⟩ h.literal h.names ⟨rfl, rfl, rfl⟩

namespace HttpClient

variable {c : HttpClient}

private theorem root_prefix (c : HttpClient) : c.root <+: c.base.toList := by
  have hsuffix := List.dropWhile_suffix (fun d => decide (d = '/')) (l := c.base.toList.reverse)
  rw [← List.reverse_prefix, List.reverse_reverse] at hsuffix
  exact hsuffix

/-- Every policy has a target when the base URL has nothing or a path after the authority. -/
theorem target?_isSome (hbase : c.base.toList.head?.all (· = '/') = true) (path : String) :
    (c.target? path).isSome = true := by
  have hslash : ∃ rest, c.tail path = String.ofList ('/' :: rest) := by
    have htail : c.tail path = String.ofList (c.root ++ ("/v1/policies/".toList ++ path.toList)) := by
      simp [tail, ← String.toList_inj]
    obtain ⟨rest, hrest⟩ := c.root_prefix
    cases hroot : c.root with
    | nil =>
      rw [hroot] at htail
      exact ⟨_, htail⟩
    | cons d ds =>
      rw [← hrest, hroot] at hbase
      have hd : d = '/' := by simpa using hbase
      rw [hroot, hd] at htail
      exact ⟨_, htail⟩
  obtain ⟨rest, hrest⟩ := hslash
  rw [target?, hrest]
  exact Target.ofTail?_slash rest

theorem target?_eq (hbase : '#' ∉ c.base.toList) :
    ∃ (shown : Option (List Char)) (isEscaped : Char → Bool), ∀ path : String,
      Target.IsPlainPath path.toList → c.target? path =
        shown.map fun cs => String.ofList (cs ++ Target.encodeWith isEscaped path.toList) := by
  have hfront : '#' ∉ c.root ++ "/v1/policies".toList := by
    intro hmem
    rcases List.mem_append.mp hmem with hmem | hmem
    · exact hbase (c.root_prefix.subset hmem)
    · revert hmem
      decide
  obtain ⟨shown, isEscaped, h⟩ := Target.ofTail?_append hfront
  refine ⟨shown, isEscaped, fun path hpath => ?_⟩
  have htail : c.tail path =
      String.ofList (c.root ++ "/v1/policies".toList ++ '/' :: path.toList) := by
    simp [tail, ← String.toList_inj]
  rw [target?, htail]
  exact h path.toList hpath

/-- Plain paths have different targets. -/
theorem target?_inj (hbase : '#' ∉ c.base.toList) {p q : String}
    (hp : Target.IsPlainPath p.toList) (hq : Target.IsPlainPath q.toList) {t : String}
    (hpt : c.target? p = some t) (hqt : c.target? q = some t) : p = q := by
  obtain ⟨shown, isEscaped, h⟩ := target?_eq hbase
  rw [h p hp] at hpt
  rw [h q hq] at hqt
  obtain ⟨f, hf, hft⟩ := Option.map_eq_some_iff.mp hpt
  obtain ⟨g, hg, hgt⟩ := Option.map_eq_some_iff.mp hqt
  obtain rfl : f = g := Option.some.inj (hf.symm.trans hg)
  have hencode := List.append_cancel_left (String.ofList_injective (hft.trans hgt.symm))
  exact String.toList_inj.mp
    (Target.encodeWith_inj (Target.notMem_of_literal hp.literal rfl)
      (Target.notMem_of_literal hq.literal rfl) hencode)

theorem request?_target {method : Method} {path : String} {body : Option Json} {q : Request}
    (h : c.request? method path body = some q) : c.target? path = some q.target := by
  simp only [request?, Option.bind_eq_bind, Option.bind_eq_some_iff, Option.pure_def,
    Option.some.injEq] at h
  obtain ⟨target, htarget, authorization, -, rfl⟩ := h
  exact htarget

theorem request?_target_ne {method method' : Method} {path path' : String}
    {body body' : Option Json} {q q' : Request}
    (h : ∀ t, c.target? path = some t → c.target? path' ≠ some t)
    (hq : c.request? method path body = some q) (hq' : c.request? method' path' body' = some q') :
    q.target ≠ q'.target := by
  intro heq
  have ht := request?_target hq
  rw [heq] at ht
  exact h _ ht (request?_target hq')

end HttpClient

namespace PolicyService

variable {root : List Char} {s : PolicyService}

private theorem toList_of_path? {t p : String} (h : path? root t = some p) :
    t.toList = root ++ "/v1/policies/".toList ++ p.toList := by
  simp only [path?] at h
  split at h
  · next hfront =>
    obtain ⟨rest, hrest⟩ := List.isPrefixOf_iff_prefix.mp hfront
    have hp := Option.some.inj h
    rw [← hrest, List.drop_left] at hp
    rw [← hrest, ← hp]
    exact congrArg _ String.toList_ofList.symm
  · cases h

theorem path?_inj {t u p : String} (ht : path? root t = some p) (hu : path? root u = some p) :
    t = u :=
  String.toList_inj.mp ((toList_of_path? ht).trans (toList_of_path? hu).symm)

/-- A request leaves alone what is stored at other paths, and the failures that are planned. -/
theorem serve_frame (root : List Char) (q : Request) (s : PolicyService) :
    (∀ path, path? root q.target ≠ some path →
        (serve root q s).2.policies.get? path = s.policies.get? path) ∧
      (serve root q s).2.failures = s.failures := by
  rw [serve]
  cases htarget : path? root q.target with
  | none => exact ⟨fun _ _ => rfl, rfl⟩
  | some stored =>
    simp only [answer]
    split
    · exact ⟨fun _ _ => rfl, rfl⟩
    · split
      · exact ⟨fun _ _ => rfl, rfl⟩
      · refine ⟨fun path hpath => ?_, rfl⟩
        have hne : stored ≠ path := fun heq => hpath (congrArg some heq)
        exact (SortedMap.get?_insert ..).trans (if_neg hne)

/-- What a request for a path is told depends on the modules that are stored there, and on the
failures that are planned. -/
theorem serve_congr (q : Request) {s s' : PolicyService}
    (hpolicies : ∀ path, path? root q.target = some path →
      s'.policies.get? path = s.policies.get? path)
    (hfailures : s'.failures = s.failures) : (serve root q s').1 = (serve root q s).1 := by
  simp only [serve]
  cases hpath : path? root q.target with
  | none => rfl
  | some path =>
    simp only [answer, note, hfailures, hpolicies path hpath]
    split
    · rfl
    · split <;> rfl

end PolicyService

open PolicyService

section

variable {σ : Type} (c : HttpClient) (x : Exchange σ)

theorem httpStore_get_answer (path : String) (s : σ) :
    ((httpStore c x).get path s).1 =
      match (x.send (c.getRequest? path) s).1 with
      | none => .error .request
      | some reply => reply.readGet path := by
  simp only [httpStore]
  rcases x.send (c.getRequest? path) s with ⟨_ | reply, s'⟩ <;> rfl

theorem httpStore_put_state (path : String) (modules : PolicyModules) (s : σ) :
    ((httpStore c x).put path modules s).2 = (x.send (c.putRequest? path modules) s).2 := by
  simp only [httpStore]
  rcases x.send (c.putRequest? path modules) s with ⟨_ | reply, s'⟩ <;> rfl

end

/-- A put leaves alone what a get for another target reads. -/
theorem httpStore_get_put {c : HttpClient} {root : List Char} {p p' : String}
    (h : ∀ t, c.target? p = some t → c.target? p' ≠ some t) (modules : PolicyModules)
    (s : PolicyService) :
    ((httpStore c (serve root)).get p' ((httpStore c (serve root)).put p modules s).2).1 =
      ((httpStore c (serve root)).get p' s).1 := by
  have hreply : ((serve root).send (c.getRequest? p')
        ((serve root).send (c.putRequest? p modules) s).2).1 =
      ((serve root).send (c.getRequest? p') s).1 := by
    cases hput : c.putRequest? p modules with
    | none => rfl
    | some q => cases hget : c.getRequest? p' with
      | none => rfl
      | some q' =>
        have hne := HttpClient.request?_target_ne h hput hget
        obtain ⟨hpolicies, hfailures⟩ := serve_frame root q s
        refine serve_congr q' (fun path hpath' => hpolicies path fun hpath => ?_) hfailures
        exact hne (path?_inj hpath hpath')
  rw [httpStore_get_answer, httpStore_get_answer, httpStore_put_state, hreply]

/-- Two resources never share an address: they have targets, at least when the base URL has nothing
but a path after the authority, requests for them go to different ones, and a service tells a get for
one of them the same before and after a put for the other. -/
theorem policyPath_target_ne {c : HttpClient} (hbase : '#' ∉ c.base.toList)
    {r r' : ResourceKind × String} (hne : r ≠ r') (hr : IsAddressable r.2)
    (hr' : IsAddressable r'.2) :
    (c.base.toList.head?.all (· = '/') = true → (c.target? (policyPath r)).isSome = true) ∧
      (∀ method method' body body' q q', c.request? method (policyPath r) body = some q →
          c.request? method' (policyPath r') body' = some q' → q.target ≠ q'.target) ∧
      ∀ root modules (s : PolicyService),
        ((httpStore c (serve root)).get (policyPath r')
            ((httpStore c (serve root)).put (policyPath r) modules s).2).1 =
          ((httpStore c (serve root)).get (policyPath r') s).1 := by
  have htarget : ∀ t, c.target? (policyPath r) = some t → c.target? (policyPath r') ≠ some t := by
    intro t ht ht'
    exact hne (policyPath_injective (HttpClient.target?_inj hbase (isPlainPath_policyPath hr)
      (isPlainPath_policyPath hr') ht ht'))
  refine ⟨fun hslash => HttpClient.target?_isSome hslash _, ?_, ?_⟩
  · intro method method' body body' q q' hq hq'
    exact HttpClient.request?_target_ne htarget hq hq'
  · intro root modules s
    exact httpStore_get_put htarget modules s

/-- A client of a service that does not stand at the root of its host. -/
def tenant : HttpClient := ⟨"/tenant/", none⟩

theorem policyPath_target_ne_web :
    '#' ∉ tenant.base.toList ∧ IsAddressable "web" ∧ IsAddressable "web/é \"x\"" ∧
      (tenant.target? (labelsPath "web")).isSome = true ∧
      ∃ q q', tenant.getRequest? (labelsPath "web") = some q ∧
        tenant.putRequest? (selectorsPath "web/é \"x\"") .empty = some q' ∧
        q.target ≠ q'.target := by
  have hbase : '#' ∉ tenant.base.toList := by decide
  have hne : ((.system, "web") : ResourceKind × String) ≠ (.stack, "web/é \"x\"") := by decide
  have hweb : IsAddressable "web" := by decide
  have hother : IsAddressable "web/é \"x\"" := by decide
  obtain ⟨hsome, htargets, -⟩ := policyPath_target_ne hbase hne hweb hother
  exact ⟨hbase, hweb, hother, hsome rfl, _, _, rfl, rfl, htargets .get .put _ _ _ _ rfl rfl⟩

/-- A number sign in an id cuts off the rest of the path, and dot segments lead to another
resource. -/
theorem policyPath_target_shared :
    (⟨"", none⟩ : HttpClient).target? (labelsPath "a#1") = some "/v1/policies/metadata/a" ∧
      (⟨"", none⟩ : HttpClient).target? (labelsPath "a#2") = some "/v1/policies/metadata/a" ∧
      (⟨"", none⟩ : HttpClient).target? (labelsPath "../stacks/x/selectors#") =
        some "/v1/policies/stacks/x/selectors" ∧
      (⟨"", none⟩ : HttpClient).target? (selectorsPath "x") =
        some "/v1/policies/stacks/x/selectors" := by
  decide

end PolicySync
