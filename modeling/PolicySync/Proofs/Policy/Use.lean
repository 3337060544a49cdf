import PolicySync.Proofs.Policy.Occurrence

/-!
# Uses of variables

A use is a variable that stands where nothing is declared, with the declarations it can see: in its
own body and in each body around it those before its place. A clause declares the variables of what
is assigned to and of what follows `some`; the blank is none of them. The values of its modifiers
see them, the right side of `:=` and the domain of `some` do not. The variables of `every` are the
first in its body, and the head of a comprehension stands at the end of its body.
-/

namespace PolicySync.Policy

/-- The names declared before a place: in its body, and in each body around it, innermost first. -/
structure Seen where
  here : List String
  around : List (List String)

namespace Seen

/-- The beginning of an outermost body. -/
def nothing : Seen := ⟨[], []⟩

def bodies (s : Seen) : List (List String) := s.here :: s.around

/-- The beginning of a body. -/
def enter (s : Seen) : Seen := ⟨[], s.bodies⟩

/-- The place after declarations. -/
def declare (s : Seen) (names : List String) : Seen := { s with here := s.here ++ names }

/-- The name of a declaration: the body counted from the innermost, and its place in that body. -/
def declared? (s : Seen) (i j : Nat) : Option String := s.bodies[i]?.bind fun names => names[j]?

variable (s : Seen) (names : List String) (i j : Nat)

@[simp] theorem declare_nil : s.declare [] = s := by
  simp [declare]

@[simp] theorem declare_declare (more : List String) :
    (s.declare names).declare more = s.declare (names ++ more) := by
  simp [declare]

@[simp] theorem declared?_nothing : nothing.declared? i j = none := by
  cases i <;> simp [declared?, nothing, bodies]

@[simp] theorem declared?_enter_zero : s.enter.declared? 0 j = none := rfl

@[simp] theorem declared?_enter_succ : s.enter.declared? (i + 1) j = s.declared? i j := rfl

@[simp] theorem declared?_declare_zero :
    (s.declare names).declared? 0 j = (s.here ++ names)[j]? := rfl

@[simp] theorem declared?_declare_succ :
    (s.declare names).declared? (i + 1) j = s.declared? (i + 1) j := rfl

end Seen

/-- Whether a declaration is the nearest of its name: the latest in the innermost body that has
one. -/
structure Seen.IsNearest (s : Seen) (name : String) (i j : Nat) : Prop where
  found : s.declared? i j = some name
  latest : ∀ k, j < k → s.declared? i k ≠ some name
  innermost : ∀ h < i, ∀ k, s.declared? h k ≠ some name

structure Use where
  name : String
  seen : Seen
  /-- Whether it stands in the target of a modifier, or is the operator of an assignment. -/
  fixed : Bool

/-- A use that keeps its name. -/
def Use.fixedIn (seen : Seen) (name : String) : Use := ⟨name, seen, true⟩

def Use.occurrence (u : Use) : Occurrence := ⟨u.name, false⟩

mutual

/-- The variables that a pattern declares. -/
def Term.declared : Term → List String
  | .var name => if name = "_" then [] else [name]
  | .array items => declaredInTerms items
  | _ => []

def declaredInTerms : List Term → List String
  | [] => []
  | t :: rest => t.declared ++ declaredInTerms rest

end

/-- The names that a clause declares for the rest of its body. -/
def Payload.declared : Payload → List String
  | .call [.ref [.var "assign"], lhs, _] => lhs.declared
  | .declare vars _ => declaredInTerms vars
  | _ => []

def Clause.declared (c : Clause) : List String := c.payload.declared

/-- The end of a body. -/
def Seen.after (s : Seen) (body : Body) : Seen := s.declare (body.flatMap Clause.declared)

mutual

def Term.uses (seen : Seen) : Term → List Use
  | .scalar _ => []
  | .string _ => []
  | .var name => [⟨name, seen, false⟩]
  | .ref parts => usesInTerms seen parts
  | .call slots => usesInTerms seen slots
  | .array items => usesInTerms seen items
  | .set items => usesInTerms seen items
  | .object fields => usesInFields seen fields
  | .arrayCompr head body =>
    usesInBody seen.enter body ++ head.uses (seen.enter.after body)
  | .setCompr head body =>
    usesInBody seen.enter body ++ head.uses (seen.enter.after body)
  | .objectCompr key value body =>
    usesInBody seen.enter body ++
      (key.uses (seen.enter.after body) ++
        value.uses (seen.enter.after body))

def usesInTerms (seen : Seen) : List Term → List Use
  | [] => []
  | t :: rest => t.uses seen ++ usesInTerms seen rest

def usesInFields (seen : Seen) : List (Term × Term) → List Use
  | [] => []
  | (key, value) :: rest => key.uses seen ++ (value.uses seen ++ usesInFields seen rest)

/-- The uses in modifiers; those in the targets are fixed. -/
def usesInModifiers (seen : Seen) : List (Term × Term) → List Use
  | [] => []
  | (target, value) :: rest =>
    (target.occurrences.map fun o => .fixedIn seen o.name) ++
      (value.uses seen ++ usesInModifiers seen rest)

/-- The uses in a pattern, each item after the declarations of those before it. -/
def Term.usesInPattern (seen : Seen) : Term → List Use
  | .var name => if name = "_" then [⟨name, seen, false⟩] else []
  | .array items => usesInPatterns seen items
  | .scalar _ => []
  | .string _ => []
  | .ref parts => usesInTerms seen parts
  | .call slots => usesInTerms seen slots
  | .set items => usesInTerms seen items
  | .object fields => usesInFields seen fields
  | .arrayCompr head body =>
    usesInBody seen.enter body ++ head.uses (seen.enter.after body)
  | .setCompr head body =>
    usesInBody seen.enter body ++ head.uses (seen.enter.after body)
  | .objectCompr key value body =>
    usesInBody seen.enter body ++
      (key.uses (seen.enter.after body) ++
        value.uses (seen.enter.after body))

def usesInPatterns (seen : Seen) : List Term → List Use
  | [] => []
  | t :: rest => t.usesInPattern seen ++ usesInPatterns (seen.declare t.declared) rest

def usesInBody (seen : Seen) : List Clause → List Use
  | [] => []
  | c :: rest => c.uses seen ++ usesInBody (seen.declare c.declared) rest

def Clause.uses (seen : Seen) : Clause → List Use
  | .mk _ payload modifiers =>
    payload.uses seen ++ usesInModifiers (seen.declare payload.declared) modifiers

def Payload.uses (seen : Seen) : Payload → List Use
  | .single t => t.uses seen
  | .call slots =>
    match slots with
    | [.ref [.var "assign"], lhs, rhs] =>
      .fixedIn seen "assign" :: (rhs.uses seen ++ lhs.usesInPattern seen)
    | slots => usesInTerms seen slots
  | .declare vars none => usesInPatterns seen vars
  | .declare vars (some domain) => domain.uses seen ++ usesInPatterns seen vars
  | .every none value domain body =>
    domain.uses seen ++
      (value.usesInPattern seen.enter ++
        usesInBody (seen.enter.declare value.declared) body)
  | .every (some key) value domain body =>
    domain.uses seen ++
      (key.usesInPattern seen.enter ++
        (value.usesInPattern (seen.enter.declare key.declared) ++
          usesInBody ((seen.enter.declare key.declared).declare value.declared) body))

end

/-- The uses in a rule with a body: in each body by itself, and in the key and the value at the end
of the first. -/
def Rule.uses (r : Rule) : List Use :=
  match r.bodies with
  | [] => []
  | body :: rest =>
    (body :: rest).flatMap (usesInBody .nothing) ++
      (usesInTerms (Seen.nothing.after body) r.key.toList ++
        usesInTerms (Seen.nothing.after body) r.value.toList)

/-! ## Uses are the occurrences that declare nothing -/

/-- The occurrences that declare nothing. -/
def undeclaring (occurrences : List Occurrence) : List Occurrence :=
  occurrences.filter fun o => !o.declares

private theorem map_append {us us' : List Use} {a b : List Occurrence}
    (h : us.map Use.occurrence = undeclaring a) (h' : us'.map Use.occurrence = undeclaring b) :
    (us ++ us').map Use.occurrence = undeclaring (a ++ b) := by
  rw [List.map_append, h, h', undeclaring, undeclaring, undeclaring, List.filter_append]

private theorem map_fixedIn (seen : Seen) (occurrences : List Occurrence) :
    (occurrences.map fun o => Use.fixedIn seen o.name).map Use.occurrence =
      undeclaring (occurrences.map Occurrence.used) := by
  have hall : ∀ o ∈ occurrences.map Occurrence.used, (!o.declares) = true := by
    intro o ho
    obtain ⟨o', -, rfl⟩ := List.mem_map.mp ho
    rfl
  rw [undeclaring, List.filter_eq_self.mpr hall, List.map_map]
  rfl

theorem Payload.uses_call {seen : Seen} {slots : List Term} (h : IsPlainCall slots) :
    (Payload.call slots).uses seen = usesInTerms seen slots := by
  rw [Payload.uses]
  exact h

private theorem map_uses_call {slots : List Term} (seen : Seen)
    (hslots : (usesInTerms seen slots).map Use.occurrence =
      undeclaring (occurrencesInTerms slots))
    (h : ∀ t ∈ slots, (t.uses seen).map Use.occurrence = undeclaring t.occurrences ∧
      (t.usesInPattern seen).map Use.occurrence = undeclaring t.patternOccurrences) :
    ((Payload.call slots).uses seen).map Use.occurrence =
      undeclaring (Payload.call slots).occurrences := by
  by_cases hassign : ∃ lhs rhs, slots = [.ref [.var "assign"], lhs, rhs]
  · obtain ⟨lhs, rhs, rfl⟩ := hassign
    have hright := (h rhs (by simp)).1
    have hleft := (h lhs (by simp)).2
    exact congrArg (⟨"assign", false⟩ :: ·) (map_append hright hleft)
  · have hplain : IsPlainCall slots := fun lhs rhs heq => hassign ⟨lhs, rhs, heq⟩
    rw [Payload.uses_call hplain, Payload.occurrences_call hplain]
    exact hslots

mutual

theorem Term.map_uses (seen : Seen) : ∀ t : Term,
    (t.uses seen).map Use.occurrence = undeclaring t.occurrences
  | .scalar _ => rfl
  | .string _ => rfl
  | .var _ => rfl
  | .ref parts => map_usesInTerms seen parts
  | .call slots => map_usesInTerms seen slots
  | .array items => map_usesInTerms seen items
  | .set items => map_usesInTerms seen items
  | .object fields => map_usesInFields seen fields
  | .arrayCompr head body => map_append (map_usesInBody _ body) (head.map_uses _)
  | .setCompr head body => map_append (map_usesInBody _ body) (head.map_uses _)
  | .objectCompr key value body =>
    map_append (map_usesInBody _ body) (map_append (key.map_uses _) (value.map_uses _))

theorem map_usesInTerms (seen : Seen) : ∀ ts : List Term,
    (usesInTerms seen ts).map Use.occurrence = undeclaring (occurrencesInTerms ts)
  | [] => rfl
  | t :: rest => map_append (t.map_uses seen) (map_usesInTerms seen rest)

theorem map_usesInEach (seen : Seen) : ∀ ts : List Term, ∀ t ∈ ts,
    (t.uses seen).map Use.occurrence = undeclaring t.occurrences ∧
      (t.usesInPattern seen).map Use.occurrence = undeclaring t.patternOccurrences
  | [] => List.forall_mem_nil _
  | t :: rest =>
    List.forall_mem_cons.mpr ⟨⟨t.map_uses seen, t.map_usesInPattern seen⟩, map_usesInEach seen rest⟩

theorem map_usesInFields (seen : Seen) : ∀ es : List (Term × Term),
    (usesInFields seen es).map Use.occurrence = undeclaring (occurrencesInFields es)
  | [] => rfl
  | (key, value) :: rest =>
    map_append (key.map_uses seen) (map_append (value.map_uses seen) (map_usesInFields seen rest))

theorem map_usesInModifiers (seen : Seen) : ∀ es : List (Term × Term),
    (usesInModifiers seen es).map Use.occurrence = undeclaring (occurrencesInModifiers es)
  | [] => rfl
  | (target, value) :: rest =>
    map_append (map_fixedIn seen target.occurrences)
      (map_append (value.map_uses seen) (map_usesInModifiers seen rest))

theorem Term.map_usesInPattern (seen : Seen) : ∀ t : Term,
    (t.usesInPattern seen).map Use.occurrence = undeclaring t.patternOccurrences
  | .var name => by
    by_cases hblank : name = "_"
    · subst hblank
      rfl
    · simp [Term.usesInPattern, Term.patternOccurrences, undeclaring, hblank]
  | .array items => map_usesInPatterns seen items
  | .scalar _ => rfl
  | .string _ => rfl
  | .ref parts => map_usesInTerms seen parts
  | .call slots => map_usesInTerms seen slots
  | .set items => map_usesInTerms seen items
  | .object fields => map_usesInFields seen fields
  | .arrayCompr head body => map_append (map_usesInBody _ body) (head.map_uses _)
  | .setCompr head body => map_append (map_usesInBody _ body) (head.map_uses _)
  | .objectCompr key value body =>
    map_append (map_usesInBody _ body) (map_append (key.map_uses _) (value.map_uses _))

theorem map_usesInPatterns (seen : Seen) : ∀ ts : List Term,
    (usesInPatterns seen ts).map Use.occurrence = undeclaring (occurrencesInPatterns ts)
  | [] => rfl
  | t :: rest => map_append (t.map_usesInPattern seen) (map_usesInPatterns _ rest)

theorem map_usesInBody (seen : Seen) : ∀ body : List Clause,
    (usesInBody seen body).map Use.occurrence = undeclaring (occurrencesInBody body)
  | [] => rfl
  | c :: rest => map_append (c.map_uses seen) (map_usesInBody _ rest)

theorem Clause.map_uses (seen : Seen) : ∀ c : Clause,
    (c.uses seen).map Use.occurrence = undeclaring c.occurrences
  | .mk _ payload modifiers =>
    map_append (payload.map_uses seen) (map_usesInModifiers _ modifiers)

theorem Payload.map_uses (seen : Seen) : ∀ p : Payload,
    (p.uses seen).map Use.occurrence = undeclaring p.occurrences
  | .single t => t.map_uses seen
  | .call slots => map_uses_call seen (map_usesInTerms seen slots) (map_usesInEach seen slots)
  | .declare vars none => map_usesInPatterns seen vars
  | .declare vars (some domain) =>
    map_append (domain.map_uses seen) (map_usesInPatterns seen vars)
  | .every none value domain body =>
    map_append (domain.map_uses seen)
      (map_append (value.map_usesInPattern _) (map_usesInBody _ body))
  | .every (some key) value domain body =>
    map_append (domain.map_uses seen) (map_append (key.map_usesInPattern _)
      (map_append (value.map_usesInPattern _) (map_usesInBody _ body)))

end

/-- The uses in a rule with a body are the occurrences in its bodies, its key and its value that
declare nothing. -/
theorem Rule.map_uses {r : Rule} (h : r.bodies ≠ []) :
    r.uses.map Use.occurrence = undeclaring r.bodyOccurrences := by
  obtain ⟨name, isDefault, args, key, value, bodies⟩ := r
  have hbodies (bodies : List Body) : (bodies.flatMap (usesInBody .nothing)).map Use.occurrence =
      undeclaring (bodies.flatMap occurrencesInBody) := by
    induction bodies with
    | nil => rfl
    | cons body rest ih => exact map_append (map_usesInBody _ body) ih
  cases bodies with
  | nil => exact absurd rfl h
  | cons body rest =>
    exact map_append (hbodies (body :: rest))
      (map_append (map_usesInTerms _ key.toList) (map_usesInTerms _ value.toList))

end PolicySync.Policy
