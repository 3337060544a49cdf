import PolicySync.Policy.Local
import PolicySync.Proofs.Policy.Term

/-!
# Occurrences of variables

The variables of a view, each as often as it stands in it, with whether it is declared where it
stands. Declarations are the left sides of `:=`, what follows `some`, and the key and the value of
`every`; of a pattern its variables, those in arrays included. The blank is never declared.
-/

namespace PolicySync.Policy

structure Occurrence where
  name : String
  declares : Bool
  deriving DecidableEq

/-- The same name where nothing is declared. -/
def Occurrence.used (o : Occurrence) : Occurrence := { o with declares := false }

mutual

def Term.occurrences : Term → List Occurrence
  | .scalar _ => []
  | .string _ => []
  | .var name => [⟨name, false⟩]
  | .ref parts => occurrencesInTerms parts
  | .call slots => occurrencesInTerms slots
  | .array items => occurrencesInTerms items
  | .set items => occurrencesInTerms items
  | .object fields => occurrencesInFields fields
  | .arrayCompr head body => occurrencesInBody body ++ head.occurrences
  | .setCompr head body => occurrencesInBody body ++ head.occurrences
  | .objectCompr key value body => occurrencesInBody body ++ (key.occurrences ++ value.occurrences)

def occurrencesInTerms : List Term → List Occurrence
  | [] => []
  | t :: rest => t.occurrences ++ occurrencesInTerms rest

def occurrencesInFields : List (Term × Term) → List Occurrence
  | [] => []
  | (key, value) :: rest => key.occurrences ++ (value.occurrences ++ occurrencesInFields rest)

/-- The occurrences in modifiers: a target is a path, which declares nothing. -/
def occurrencesInModifiers : List (Term × Term) → List Occurrence
  | [] => []
  | (target, value) :: rest =>
    target.occurrences.map Occurrence.used ++ (value.occurrences ++ occurrencesInModifiers rest)

/-- The occurrences in a pattern: its variables are declared. -/
def Term.patternOccurrences : Term → List Occurrence
  | .var name => [⟨name, name ≠ "_"⟩]
  | .array items => occurrencesInPatterns items
  | .scalar _ => []
  | .string _ => []
  | .ref parts => occurrencesInTerms parts
  | .call slots => occurrencesInTerms slots
  | .set items => occurrencesInTerms items
  | .object fields => occurrencesInFields fields
  | .arrayCompr head body => occurrencesInBody body ++ head.occurrences
  | .setCompr head body => occurrencesInBody body ++ head.occurrences
  | .objectCompr key value body => occurrencesInBody body ++ (key.occurrences ++ value.occurrences)

def occurrencesInPatterns : List Term → List Occurrence
  | [] => []
  | t :: rest => t.patternOccurrences ++ occurrencesInPatterns rest

def occurrencesInBody : List Clause → List Occurrence
  | [] => []
  | c :: rest => c.occurrences ++ occurrencesInBody rest

def Clause.occurrences : Clause → List Occurrence
  | .mk _ payload modifiers => payload.occurrences ++ occurrencesInModifiers modifiers

def Payload.occurrences : Payload → List Occurrence
  | .single t => t.occurrences
  | .call slots =>
    match slots with
    | [.ref [.var "assign"], lhs, rhs] =>
      ⟨"assign", false⟩ :: (rhs.occurrences ++ lhs.patternOccurrences)
    | slots => occurrencesInTerms slots
  | .declare vars none => occurrencesInPatterns vars
  | .declare vars (some domain) => domain.occurrences ++ occurrencesInPatterns vars
  | .every none value domain body =>
    domain.occurrences ++ (value.patternOccurrences ++ occurrencesInBody body)
  | .every (some key) value domain body =>
    domain.occurrences ++
      (key.patternOccurrences ++ (value.patternOccurrences ++ occurrencesInBody body))

end

mutual

/-- Puts other names for the variables of a term. -/
def Term.mapVars (f : String → String) : Term → Term
  | .scalar text => .scalar text
  | .string value => .string value
  | .var name => .var (f name)
  | .ref parts => .ref (mapTerms f parts)
  | .call slots => .call (mapTerms f slots)
  | .array items => .array (mapTerms f items)
  | .set items => .set (mapTerms f items)
  | .object fields => .object (mapFields f fields)
  | .arrayCompr head body => .arrayCompr (head.mapVars f) (mapBody f body)
  | .setCompr head body => .setCompr (head.mapVars f) (mapBody f body)
  | .objectCompr key value body =>
    .objectCompr (key.mapVars f) (value.mapVars f) (mapBody f body)

def mapTerms (f : String → String) : List Term → List Term
  | [] => []
  | t :: rest => t.mapVars f :: mapTerms f rest

def mapFields (f : String → String) : List (Term × Term) → List (Term × Term)
  | [] => []
  | (key, value) :: rest => (key.mapVars f, value.mapVars f) :: mapFields f rest

def mapBody (f : String → String) : List Clause → List Clause
  | [] => []
  | c :: rest => c.mapVars f :: mapBody f rest

def Clause.mapVars (f : String → String) : Clause → Clause
  | .mk negated payload modifiers =>
    .mk negated (payload.mapVars f) (mapFields f modifiers)

def Payload.mapVars (f : String → String) : Payload → Payload
  | .single t => .single (t.mapVars f)
  | .call slots => .call (mapTerms f slots)
  | .declare vars none => .declare (mapTerms f vars) none
  | .declare vars (some domain) => .declare (mapTerms f vars) (some (domain.mapVars f))
  | .every none value domain body =>
    .every none (value.mapVars f) (domain.mapVars f) (mapBody f body)
  | .every (some key) value domain body =>
    .every (some (key.mapVars f)) (value.mapVars f) (domain.mapVars f) (mapBody f body)

end

namespace Rule

/-- The occurrences in the bodies, and in the key and the value. -/
def bodyOccurrences (r : Rule) : List Occurrence :=
  r.bodies.flatMap occurrencesInBody ++
    (occurrencesInTerms r.key.toList ++ occurrencesInTerms r.value.toList)

def occurrences (r : Rule) : List Occurrence :=
  ⟨r.name, false⟩ :: (occurrencesInTerms r.args ++ r.bodyOccurrences)

def mapVars (f : String → String) (r : Rule) : Rule :=
  { r with
    name := f r.name
    args := mapTerms f r.args
    key := r.key.map (Term.mapVars f)
    value := r.value.map (Term.mapVars f)
    bodies := r.bodies.map (mapBody f) }

end Rule

namespace Import

def occurrences (i : Import) : List Occurrence :=
  occurrencesInTerms i.path ++ i.name.toList.map fun name => ⟨name, false⟩

def mapVars (f : String → String) (i : Import) : Import :=
  ⟨mapTerms f i.path, i.name.map f⟩

end Import

namespace Module

/-- The occurrences in a module: in its package, in its imports and in its rules. -/
def occurrences (m : Module) : List Occurrence :=
  occurrencesInTerms m.package ++
    (m.imports.flatMap Import.occurrences ++ m.rules.flatMap Rule.occurrences)

def mapVars (f : String → String) (m : Module) : Module where
  package := mapTerms f m.package
  imports := m.imports.map (Import.mapVars f)
  rules := m.rules.map (Rule.mapVars f)

end Module

/-! ## Names -/

/-- Whether all occurrences have a name of some kind. -/
def AllNames (p : String → Prop) (occurrences : List Occurrence) : Prop :=
  ∀ o ∈ occurrences, p o.name

namespace AllNames

variable {p : String → Prop}

theorem append {a b : List Occurrence} : AllNames p (a ++ b) ↔ AllNames p a ∧ AllNames p b :=
  List.forall_mem_append

theorem cons {o : Occurrence} {a : List Occurrence} :
    AllNames p (o :: a) ↔ p o.name ∧ AllNames p a :=
  List.forall_mem_cons

theorem one {o : Occurrence} : AllNames p [o] ↔ p o.name := List.forall_mem_singleton

theorem flatMap {α : Type} {l : List α} {g : α → List Occurrence} :
    AllNames p (l.flatMap g) ↔ ∀ x ∈ l, AllNames p (g x) :=
  List.forall_mem_flatMap

theorem terms {ts : List Term} :
    AllNames p (occurrencesInTerms ts) ↔ ∀ t ∈ ts, AllNames p t.occurrences := by
  induction ts with
  | nil => simp [occurrencesInTerms, AllNames]
  | cons t rest ih => rw [occurrencesInTerms, append, ih, List.forall_mem_cons]

theorem fields {es : List (Term × Term)} :
    AllNames p (occurrencesInFields es) ↔
      ∀ e ∈ es, AllNames p e.1.occurrences ∧ AllNames p e.2.occurrences := by
  induction es with
  | nil => simp [occurrencesInFields, AllNames]
  | cons e rest ih => rw [occurrencesInFields, append, append, ih, List.forall_mem_cons, and_assoc]

theorem used {a : List Occurrence} : AllNames p (a.map Occurrence.used) ↔ AllNames p a :=
  List.forall_mem_map

theorem modifiers {es : List (Term × Term)} :
    AllNames p (occurrencesInModifiers es) ↔
      ∀ e ∈ es, AllNames p e.1.occurrences ∧ AllNames p e.2.occurrences := by
  induction es with
  | nil => simp [occurrencesInModifiers, AllNames]
  | cons e rest ih =>
    rw [occurrencesInModifiers, append, append, used, ih, List.forall_mem_cons, and_assoc]

theorem body {cs : List Clause} :
    AllNames p (occurrencesInBody cs) ↔ ∀ c ∈ cs, AllNames p c.occurrences := by
  induction cs with
  | nil => simp [occurrencesInBody, AllNames]
  | cons c rest ih => rw [occurrencesInBody, append, ih, List.forall_mem_cons]

mutual

/-- A pattern has the names that it has as a term. -/
theorem pattern : ∀ t : Term, AllNames p t.patternOccurrences ↔ AllNames p t.occurrences
  | .var _ => by rw [Term.patternOccurrences, Term.occurrences, one, one]
  | .array items => patterns items
  | .scalar _ => Iff.rfl
  | .string _ => Iff.rfl
  | .ref _ => Iff.rfl
  | .call _ => Iff.rfl
  | .set _ => Iff.rfl
  | .object _ => Iff.rfl
  | .arrayCompr _ _ => Iff.rfl
  | .setCompr _ _ => Iff.rfl
  | .objectCompr _ _ _ => Iff.rfl

theorem patterns :
    ∀ ts : List Term, AllNames p (occurrencesInPatterns ts) ↔ AllNames p (occurrencesInTerms ts)
  | [] => Iff.rfl
  | t :: rest => by
    rw [occurrencesInPatterns, occurrencesInTerms, append, append, pattern t, patterns rest]

end

end AllNames

/-- A call that declares nothing. -/
def IsPlainCall (slots : List Term) : Prop :=
  ∀ lhs rhs, slots ≠ [.ref [.var "assign"], lhs, rhs]

theorem Payload.occurrences_call {slots : List Term} (h : IsPlainCall slots) :
    (Payload.call slots).occurrences = occurrencesInTerms slots := by
  rw [Payload.occurrences]
  exact h

theorem Payload.rename_call {scope : Scope} {names : Locals} {slots : List Term}
    (h : IsPlainCall slots) :
    (Payload.call slots).rename scope names =
      (.call (renameTerms scope slots names).1, scope, (renameTerms scope slots names).2) := by
  rw [Payload.rename]
  exact h

theorem Payload.occurrences_assign (lhs rhs : Term) :
    (Payload.call [.ref [.var "assign"], lhs, rhs]).occurrences =
      ⟨"assign", false⟩ :: (rhs.occurrences ++ lhs.patternOccurrences) := by
  rw [Payload.occurrences]

/-- A call has the names in its slots, whether it declares some of them or not. -/
theorem AllNames.call {p : String → Prop} {slots : List Term} :
    AllNames p (Payload.call slots).occurrences ↔ ∀ t ∈ slots, AllNames p t.occurrences := by
  by_cases h : ∃ lhs rhs, slots = [.ref [.var "assign"], lhs, rhs]
  · obtain ⟨lhs, rhs, rfl⟩ := h
    rw [Payload.occurrences_assign, cons, append, pattern]
    simp only [List.forall_mem_cons, List.not_mem_nil, false_implies, implies_true, and_true,
      Term.occurrences, terms, one]
    exact and_congr_right fun _ => and_comm
  · have hplain : IsPlainCall slots := fun lhs rhs heq => h ⟨lhs, rhs, heq⟩
    rw [Payload.occurrences_call hplain, terms]

/-- The names in the bodies, the keys and the values of the rules are among those of the module. -/
theorem AllNames.bodies {p : String → Prop} {m : Module} (h : AllNames p m.occurrences) {r : Rule}
    (hr : r ∈ m.rules) : AllNames p r.bodyOccurrences := by
  obtain ⟨-, hmore⟩ := AllNames.append.mp h
  obtain ⟨-, hrules⟩ := AllNames.append.mp hmore
  obtain ⟨-, hrule⟩ := AllNames.cons.mp (AllNames.flatMap.mp hrules r hr)
  exact (AllNames.append.mp hrule).2

/-! ## Other names -/

section

variable {f : String → String}

theorem mapTerms_eq_map (ts : List Term) : mapTerms f ts = ts.map (Term.mapVars f) := by
  induction ts with
  | nil => rfl
  | cons t rest ih => rw [mapTerms, ih, List.map_cons]

theorem mapFields_eq_map (es : List (Term × Term)) :
    mapFields f es = es.map fun e => (e.1.mapVars f, e.2.mapVars f) := by
  induction es with
  | nil => rfl
  | cons e rest ih => rw [mapFields, ih, List.map_cons]

theorem mapBody_eq_map (body : List Clause) : mapBody f body = body.map (Clause.mapVars f) := by
  induction body with
  | nil => rfl
  | cons c rest ih => rw [mapBody, ih, List.map_cons]

theorem mapTerms_eq_self {ts : List Term} (h : ∀ t ∈ ts, t.mapVars f = t) : mapTerms f ts = ts := by
  rw [mapTerms_eq_map, List.map_congr_left h, List.map_id']

theorem mapFields_eq_self {es : List (Term × Term)}
    (h : ∀ e ∈ es, e.1.mapVars f = e.1 ∧ e.2.mapVars f = e.2) : mapFields f es = es := by
  have hpairs : ∀ e ∈ es, (e.1.mapVars f, e.2.mapVars f) = e :=
    fun e he => Prod.ext (h e he).1 (h e he).2
  rw [mapFields_eq_map, List.map_congr_left hpairs, List.map_id']

theorem mapBody_eq_self {body : List Clause} (h : ∀ c ∈ body, c.mapVars f = c) :
    mapBody f body = body := by
  rw [mapBody_eq_map, List.map_congr_left h, List.map_id']

/-- A change of names that leaves the names of all occurrences alone changes nothing. -/
theorem mapVars_kept : TermInduction
    (fun t => AllNames (fun v => f v = v) t.occurrences → t.mapVars f = t)
    (fun c => AllNames (fun v => f v = v) c.occurrences → c.mapVars f = c)
    (fun p => AllNames (fun v => f v = v) p.occurrences → p.mapVars f = p) where
  scalar _ _ := rfl
  string _ _ := rfl
  var name h := congrArg Term.var (AllNames.one.mp h)
  ref parts ih h :=
    congrArg Term.ref (mapTerms_eq_self fun t ht => ih t ht (AllNames.terms.mp h t ht))
  call slots ih h :=
    congrArg Term.call (mapTerms_eq_self fun t ht => ih t ht (AllNames.terms.mp h t ht))
  array items ih h :=
    congrArg Term.array (mapTerms_eq_self fun t ht => ih t ht (AllNames.terms.mp h t ht))
  set items ih h :=
    congrArg Term.set (mapTerms_eq_self fun t ht => ih t ht (AllNames.terms.mp h t ht))
  object fields ih h := by
    have hfields := AllNames.fields.mp h
    rw [Term.mapVars, mapFields_eq_self fun e he =>
      ⟨(ih e he).1 (hfields e he).1, (ih e he).2 (hfields e he).2⟩]
  arrayCompr head body ihhead ihbody h := by
    obtain ⟨hbody, hhead⟩ := AllNames.append.mp h
    rw [Term.mapVars, ihhead hhead,
      mapBody_eq_self fun c hc => ihbody c hc (AllNames.body.mp hbody c hc)]
  setCompr head body ihhead ihbody h := by
    obtain ⟨hbody, hhead⟩ := AllNames.append.mp h
    rw [Term.mapVars, ihhead hhead,
      mapBody_eq_self fun c hc => ihbody c hc (AllNames.body.mp hbody c hc)]
  objectCompr key value body ihkey ihvalue ihbody h := by
    obtain ⟨hbody, hhead⟩ := AllNames.append.mp h
    obtain ⟨hkey, hvalue⟩ := AllNames.append.mp hhead
    rw [Term.mapVars, ihkey hkey, ihvalue hvalue,
      mapBody_eq_self fun c hc => ihbody c hc (AllNames.body.mp hbody c hc)]
  clause negated payload modifiers ihpayload ihmodifiers h := by
    obtain ⟨hpayload, hmodifiers⟩ := AllNames.append.mp h
    have hpairs := AllNames.modifiers.mp hmodifiers
    rw [Clause.mapVars, ihpayload hpayload, mapFields_eq_self fun e he =>
      ⟨(ihmodifiers e he).1 (hpairs e he).1, (ihmodifiers e he).2 (hpairs e he).2⟩]
  single t ih h := congrArg Payload.single (ih h)
  invoke slots ih h :=
    congrArg Payload.call (mapTerms_eq_self fun t ht => ih t ht (AllNames.call.mp h t ht))
  declare vars domain ihvars ihdomain h := by
    have hvars : ∀ vars : List Term, (∀ t ∈ vars, AllNames (fun v => f v = v) t.occurrences →
        t.mapVars f = t) → AllNames (fun v => f v = v) (occurrencesInPatterns vars) →
        mapTerms f vars = vars := by
      intro vars ih h
      rw [AllNames.patterns, AllNames.terms] at h
      exact mapTerms_eq_self fun t ht => ih t ht (h t ht)
    cases domain with
    | none => rw [Payload.mapVars, hvars vars ihvars h]
    | some domain =>
      obtain ⟨hdomain, h⟩ := AllNames.append.mp h
      rw [Payload.mapVars, hvars vars ihvars h, ihdomain domain rfl hdomain]
  every key value domain body ihkey ihvalue ihdomain ihbody h := by
    cases key with
    | none =>
      obtain ⟨hdomain, h⟩ := AllNames.append.mp h
      obtain ⟨hvalue, hbody⟩ := AllNames.append.mp h
      rw [AllNames.pattern] at hvalue
      rw [Payload.mapVars, ihvalue hvalue, ihdomain hdomain,
        mapBody_eq_self fun c hc => ihbody c hc (AllNames.body.mp hbody c hc)]
    | some key =>
      obtain ⟨hdomain, h⟩ := AllNames.append.mp h
      obtain ⟨hkey, h⟩ := AllNames.append.mp h
      obtain ⟨hvalue, hbody⟩ := AllNames.append.mp h
      rw [AllNames.pattern] at hkey hvalue
      rw [Payload.mapVars, ihkey key rfl hkey, ihvalue hvalue, ihdomain hdomain,
        mapBody_eq_self fun c hc => ihbody c hc (AllNames.body.mp hbody c hc)]

theorem Rule.mapVars_eq_self {r : Rule} (h : AllNames (fun v => f v = v) r.occurrences) :
    r.mapVars f = r := by
  obtain ⟨hname, h⟩ := AllNames.cons.mp h
  obtain ⟨hargs, h⟩ := AllNames.append.mp h
  obtain ⟨hbodies, h⟩ := AllNames.append.mp h
  obtain ⟨hkey, hvalue⟩ := AllNames.append.mp h
  have hterms : ∀ ts : List Term, AllNames (fun v => f v = v) (occurrencesInTerms ts) →
      ∀ t ∈ ts, t.mapVars f = t :=
    fun ts hts t ht => mapVars_kept.term t (AllNames.terms.mp hts t ht)
  have hbody : ∀ body ∈ r.bodies, mapBody f body = body := fun body hbody =>
    mapBody_eq_self fun c hc =>
      mapVars_kept.body body c hc (AllNames.body.mp (AllNames.flatMap.mp hbodies body hbody) c hc)
  have hoption : ∀ o : Option Term, (∀ t ∈ o.toList, t.mapVars f = t) →
      o.map (Term.mapVars f) = o := by
    intro o ho
    cases o with
    | none => rfl
    | some t => exact congrArg some (ho t (List.mem_singleton_self t))
  rw [Rule.mapVars, hname, mapTerms_eq_self (hterms _ hargs), hoption _ (hterms _ hkey),
    hoption _ (hterms _ hvalue), List.map_congr_left hbody, List.map_id']

end

end PolicySync.Policy
