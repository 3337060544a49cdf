import PolicySync.Proofs.Policy.Callee
import PolicySync.Proofs.Policy.Scoping

/-!
# Calls and the declarations they see

The calls of a rule in the order in which they are checked, each with the declarations that it sees.
Renaming keeps their order. It renames the operator of a call like any other term, by the names in
force where the call stands; only the operator of an assignment that declares is left alone.
-/

namespace PolicySync.Policy

/-- A call of a view with the declarations it sees. -/
structure PlacedCall where
  slots : List Term
  seen : Seen
  /-- Whether its operator is never renamed. -/
  fixed : Bool

/-- A call where nothing is renamed. -/
def PlacedCall.untouched (slots : List Term) : PlacedCall := ⟨slots, .nothing, true⟩

mutual

/-- The calls of a term, which may be a pattern that declares variables. -/
def Term.placedCalls (seen : Seen) (declares : Bool) : Term → List PlacedCall
  | .scalar _ => []
  | .string _ => []
  | .var _ => []
  | .ref parts => placedCallsInTerms seen false parts
  | .call slots => ⟨slots, seen, false⟩ :: placedCallsInTerms seen false slots
  | .array items => placedCallsInTerms seen declares items
  | .set items => placedCallsInTerms seen false items
  | .object fields => placedCallsInFields seen fields
  | .arrayCompr head body =>
    head.placedCalls (seen.enter.after body) false ++ placedCallsInBody seen.enter body
  | .setCompr head body =>
    head.placedCalls (seen.enter.after body) false ++ placedCallsInBody seen.enter body
  | .objectCompr key value body =>
    key.placedCalls (seen.enter.after body) false ++
      value.placedCalls (seen.enter.after body) false ++ placedCallsInBody seen.enter body

/-- The calls of terms; in a pattern each item sees what the items before it declare. -/
def placedCallsInTerms (seen : Seen) (declares : Bool) : List Term → List PlacedCall
  | [] => []
  | t :: rest =>
    t.placedCalls seen declares ++
      placedCallsInTerms (if declares then seen.declare t.declared else seen) declares rest

def placedCallsInFields (seen : Seen) : List (Term × Term) → List PlacedCall
  | [] => []
  | (key, value) :: rest =>
    key.placedCalls seen false ++ value.placedCalls seen false ++ placedCallsInFields seen rest

def placedCallsInModifiers (seen : Seen) : List (Term × Term) → List PlacedCall
  | [] => []
  | (_, value) :: rest => value.placedCalls seen false ++ placedCallsInModifiers seen rest

def placedCallsInBody (seen : Seen) : List Clause → List PlacedCall
  | [] => []
  | c :: rest => c.placedCalls seen ++ placedCallsInBody (seen.declare c.declared) rest

def Clause.placedCalls (seen : Seen) : Clause → List PlacedCall
  | .mk _ payload modifiers =>
    payload.placedCalls seen ++ placedCallsInModifiers (seen.declare payload.declared) modifiers

def Payload.placedCalls (seen : Seen) : Payload → List PlacedCall
  | .single t => t.placedCalls seen false
  | .call slots =>
    match slots with
    | [.ref [.var "assign"], lhs, rhs] =>
      ⟨[.ref [.var "assign"], lhs, rhs], seen, true⟩ ::
        (lhs.placedCalls seen true ++ rhs.placedCalls seen false)
    | slots => ⟨slots, seen, false⟩ :: placedCallsInTerms seen false slots
  | .declare vars none => placedCallsInTerms seen true vars
  | .declare vars (some domain) =>
    placedCallsInTerms seen true vars ++ domain.placedCalls seen false
  | .every none value domain body =>
    value.placedCalls seen.enter true ++ domain.placedCalls seen false ++
      placedCallsInBody (seen.enter.declare value.declared) body
  | .every (some key) value domain body =>
    key.placedCalls seen.enter true ++
      value.placedCalls (seen.enter.declare key.declared) true ++ domain.placedCalls seen false ++
      placedCallsInBody ((seen.enter.declare key.declared).declare value.declared) body

end

/-- The calls of a rule. Its arguments are not renamed, nor is a rule without a body; its key and
its value see the declarations of the first body. -/
def Rule.placedCalls (r : Rule) : List PlacedCall :=
  match r.bodies with
  | [] => r.calls.map .untouched
  | body :: rest =>
    (callsOfTerms r.args).map .untouched ++
      placedCallsInTerms (Seen.nothing.after body) false r.key.toList ++
      placedCallsInTerms (Seen.nothing.after body) false r.value.toList ++
      (body :: rest).flatMap (placedCallsInBody .nothing)

/-! ## No call is left out -/

private theorem map_slots_append {a b : List PlacedCall} {calls more : List (List Term)}
    (h : a.map PlacedCall.slots = calls) (h' : b.map PlacedCall.slots = more) :
    (a ++ b).map PlacedCall.slots = calls ++ more := by
  rw [List.map_append, h, h']

private theorem map_slots_untouched (calls : List (List Term)) :
    (calls.map PlacedCall.untouched).map PlacedCall.slots = calls := by
  rw [List.map_map]
  exact List.map_id calls

theorem Payload.placedCalls_call {seen : Seen} {slots : List Term} (h : IsPlainCall slots) :
    (Payload.call slots).placedCalls seen =
      ⟨slots, seen, false⟩ :: placedCallsInTerms seen false slots := by
  rw [Payload.placedCalls]
  exact h

private theorem map_placedCalls_call {slots : List Term} (seen : Seen)
    (h : ∀ declares,
      (placedCallsInTerms seen declares slots).map PlacedCall.slots = callsOfTerms slots)
    (h' : ∀ t ∈ slots, ∀ declares, (t.placedCalls seen declares).map PlacedCall.slots = t.calls) :
    ((Payload.call slots).placedCalls seen).map PlacedCall.slots = (Payload.call slots).calls := by
  by_cases hassign : ∃ lhs rhs, slots = [.ref [.var "assign"], lhs, rhs]
  · obtain ⟨lhs, rhs, rfl⟩ := hassign
    have hleft := h' lhs (by simp) true
    have hright := h' rhs (by simp) false
    simp only [Payload.placedCalls, Payload.calls, callsOfTerms, Term.calls, List.map_cons,
      List.map_append, hleft, hright, List.nil_append, List.append_nil]
  · have hplain : IsPlainCall slots := fun lhs rhs heq => hassign ⟨lhs, rhs, heq⟩
    rw [Payload.placedCalls_call hplain, List.map_cons, h, Payload.calls]

mutual

theorem Term.map_placedCalls : ∀ (t : Term) (seen : Seen) (declares : Bool),
    (t.placedCalls seen declares).map PlacedCall.slots = t.calls
  | .scalar _, _, _ => rfl
  | .string _, _, _ => rfl
  | .var _, _, _ => rfl
  | .ref parts, seen, _ => map_placedCallsInTerms parts seen false
  | .call slots, seen, _ => congrArg (slots :: ·) (map_placedCallsInTerms slots seen false)
  | .array items, seen, declares => map_placedCallsInTerms items seen declares
  | .set items, seen, _ => map_placedCallsInTerms items seen false
  | .object fields, seen, _ => map_placedCallsInFields fields seen
  | .arrayCompr head body, _, _ =>
    map_slots_append (head.map_placedCalls _ _) (map_placedCallsInBody body _)
  | .setCompr head body, _, _ =>
    map_slots_append (head.map_placedCalls _ _) (map_placedCallsInBody body _)
  | .objectCompr key value body, _, _ =>
    map_slots_append (map_slots_append (key.map_placedCalls _ _) (value.map_placedCalls _ _))
      (map_placedCallsInBody body _)

theorem map_placedCallsInTerms : ∀ (ts : List Term) (seen : Seen) (declares : Bool),
    (placedCallsInTerms seen declares ts).map PlacedCall.slots = callsOfTerms ts
  | [], _, _ => rfl
  | t :: rest, seen, declares =>
    map_slots_append (t.map_placedCalls seen declares) (map_placedCallsInTerms rest _ declares)

theorem map_placedCallsInEach : ∀ (ts : List Term) (seen : Seen), ∀ t ∈ ts, ∀ declares,
    (t.placedCalls seen declares).map PlacedCall.slots = t.calls
  | [], _ => List.forall_mem_nil _
  | t :: rest, seen =>
    List.forall_mem_cons.mpr ⟨t.map_placedCalls seen, map_placedCallsInEach rest seen⟩

theorem map_placedCallsInFields : ∀ (es : List (Term × Term)) (seen : Seen),
    (placedCallsInFields seen es).map PlacedCall.slots = callsOfFields es
  | [], _ => rfl
  | (key, value) :: rest, seen =>
    map_slots_append (map_slots_append (key.map_placedCalls seen false)
      (value.map_placedCalls seen false)) (map_placedCallsInFields rest seen)

theorem map_placedCallsInModifiers : ∀ (es : List (Term × Term)) (seen : Seen),
    (placedCallsInModifiers seen es).map PlacedCall.slots = callsOfModifiers es
  | [], _ => rfl
  | (_, value) :: rest, seen =>
    map_slots_append (value.map_placedCalls seen false) (map_placedCallsInModifiers rest seen)

theorem map_placedCallsInBody : ∀ (body : List Clause) (seen : Seen),
    (placedCallsInBody seen body).map PlacedCall.slots = callsOfBody body
  | [], _ => rfl
  | c :: rest, seen => map_slots_append (c.map_placedCalls seen) (map_placedCallsInBody rest _)

theorem Clause.map_placedCalls : ∀ (c : Clause) (seen : Seen),
    (c.placedCalls seen).map PlacedCall.slots = c.calls
  | .mk _ payload modifiers, seen =>
    map_slots_append (payload.map_placedCalls seen) (map_placedCallsInModifiers modifiers _)

theorem Payload.map_placedCalls : ∀ (p : Payload) (seen : Seen),
    (p.placedCalls seen).map PlacedCall.slots = p.calls
  | .single t, seen => t.map_placedCalls seen false
  | .call slots, seen =>
    map_placedCalls_call seen (map_placedCallsInTerms slots seen) (map_placedCallsInEach slots seen)
  | .declare vars none, seen => map_placedCallsInTerms vars seen true
  | .declare vars (some domain), seen =>
    map_slots_append (map_placedCallsInTerms vars seen true) (domain.map_placedCalls seen false)
  | .every none value domain body, seen =>
    map_slots_append (map_slots_append (value.map_placedCalls _ true)
      (domain.map_placedCalls seen false)) (map_placedCallsInBody body _)
  | .every (some key) value domain body, seen =>
    map_slots_append (map_slots_append (map_slots_append (key.map_placedCalls _ true)
      (value.map_placedCalls _ true)) (domain.map_placedCalls seen false))
      (map_placedCallsInBody body _)

end

theorem Rule.map_placedCalls (r : Rule) : r.placedCalls.map PlacedCall.slots = r.calls := by
  obtain ⟨name, isDefault, args, key, value, bodies⟩ := r
  have hbodies (bodies : List Body) : (bodies.flatMap (placedCallsInBody .nothing)).map
      PlacedCall.slots = bodies.flatMap callsOfBody := by
    induction bodies with
    | nil => rfl
    | cons body rest ih => exact map_slots_append (map_placedCallsInBody body _) ih
  cases bodies with
  | nil => exact map_slots_untouched _
  | cons body rest =>
    rw [Rule.calls, callsOfTerms_append, callsOfTerms_append]
    exact map_slots_append (map_slots_append (map_slots_append (map_slots_untouched _)
      (map_placedCallsInTerms key.toList _ false)) (map_placedCallsInTerms value.toList _ false))
      (hbodies (body :: rest))

/-! ## The names in force -/

/-- Whether a scope has the names in force that the declarations seen from a place got. -/
def Scope.Sees (scope : Scope) (seen : Seen) : Prop := ∃ seen', scope.Shows seen seen'

namespace Scope.Sees

variable {scope : Scope} {seen : Seen}

theorem start : Scope.Sees [] .nothing := ⟨.nothing, .start⟩

theorem declare_nil (h : scope.Sees seen) : scope.Sees (seen.declare []) := by
  rw [Seen.declare_nil]
  exact h

theorem enter (h : scope.Sees seen) : scope.Sees seen.enter := by
  obtain ⟨seen', hshows⟩ := h
  exact ⟨seen'.enter, hshows.enter⟩

theorem declare (h : scope.Sees seen) {name : String} (hname : name ≠ "_") (n : Nat) :
    Scope.Sees ((name, localName n) :: scope) (seen.declare [name]) := by
  obtain ⟨seen', hshows⟩ := h
  exact ⟨seen'.declare [localName n], hshows.declare n hname⟩

end Scope.Sees

mutual

/-- What a pattern declares is seen after it. -/
theorem Term.sees_declare : ∀ (t : Term) {scope : Scope} {seen : Seen} (names : Locals),
    scope.Sees seen → (t.declare scope names).2.1.Sees (seen.declare t.declared)
  | .var name, scope, seen, names, h => by
    by_cases hblank : name = "_"
    · simpa only [Term.declare, Term.declared, if_pos hblank, Seen.declare_nil] using h
    · simpa only [Term.declare, Term.declared, if_neg hblank] using h.declare hblank names.length
  | .array items, _, _, names, h => sees_declareTerms items names h
  | .scalar _, _, _, _, h => h.declare_nil
  | .string _, _, _, _, h => h.declare_nil
  | .ref _, _, _, _, h => h.declare_nil
  | .call _, _, _, _, h => h.declare_nil
  | .set _, _, _, _, h => h.declare_nil
  | .object _, _, _, _, h => h.declare_nil
  | .arrayCompr _ _, _, _, _, h => h.declare_nil
  | .setCompr _ _, _, _, _, h => h.declare_nil
  | .objectCompr _ _ _, _, _, _, h => h.declare_nil

theorem sees_declareTerms : ∀ (ts : List Term) {scope : Scope} {seen : Seen} (names : Locals),
    scope.Sees seen → (declareTerms scope ts names).2.1.Sees (seen.declare (declaredInTerms ts))
  | [], _, _, _, h => h.declare_nil
  | t :: rest, scope, seen, names, h => by
    have hrest := sees_declareTerms rest (t.declare scope names).2.2 (t.sees_declare names h)
    rw [Seen.declare_declare] at hrest
    exact hrest

end

section

variable {scope : Scope} {seen : Seen}

theorem Payload.sees_rename (p : Payload) (names : Locals) (h : scope.Sees seen) :
    (p.rename scope names).2.1.Sees (seen.declare p.declared) := by
  cases p with
  | single t => exact h.declare_nil
  | call slots =>
    by_cases hassign : ∃ lhs rhs, slots = [.ref [.var "assign"], lhs, rhs]
    · obtain ⟨lhs, rhs, rfl⟩ := hassign
      exact lhs.sees_declare (rhs.rename scope names).2 h
    · have hplain : IsPlainCall slots := fun lhs rhs heq => hassign ⟨lhs, rhs, heq⟩
      rw [Payload.rename_call hplain, Payload.declared_call hplain, Seen.declare_nil]
      exact h
  | declare vars domain =>
    cases domain with
    | none => exact sees_declareTerms vars names h
    | some domain => exact sees_declareTerms vars (domain.rename scope names).2 h
  | every key value domain body => cases key <;> exact h.declare_nil

theorem Clause.sees_rename (c : Clause) (names : Locals) (h : scope.Sees seen) :
    (c.rename scope names).2.1.Sees (seen.declare c.declared) := by
  obtain ⟨negated, payload, modifiers⟩ := c
  exact payload.sees_rename names h

/-- What a body declares is seen at its end. -/
theorem sees_renameBody (body : List Clause) (names : Locals) (h : scope.Sees seen) :
    (renameBody scope body names).2.1.Sees (seen.after body) := by
  induction body generalizing scope seen names with
  | nil => exact h.declare_nil
  | cons c rest ih =>
    have hrest := ih (c.rename scope names).2.2 (c.sees_rename names h)
    rw [Seen.after, Seen.declare_declare] at hrest
    exact hrest

end

/-! ## Renaming -/

/-- Whether a call has what stands first in the slots of another, renamed as the scope of what it
sees demands. -/
structure PlacedCall.RenamedTo (call : PlacedCall) (slots : List Term) : Prop where
  kept : call.fixed = true → slots.head? = call.slots.head?
  renamed : call.fixed = false → ∃ scope : Scope, scope.Sees call.seen ∧ ∃ names,
    slots.head? = call.slots.head?.map fun operator => (operator.rename scope names).1

/-- Whether calls are renamed one by one to others. -/
abbrev RenamesCalls (calls : List PlacedCall) (renamed : List (List Term)) : Prop :=
  List.Forall₂ PlacedCall.RenamedTo calls renamed

theorem PlacedCall.renamedTo_of_fixed {call : PlacedCall} {slots : List Term}
    (hfixed : call.fixed = true) (hkept : slots.head? = call.slots.head?) : call.RenamedTo slots :=
  ⟨fun _ => hkept, fun hmoves => absurd hfixed (Bool.eq_false_iff.mp hmoves)⟩

theorem PlacedCall.untouched_renamedTo (slots : List Term) :
    (PlacedCall.untouched slots).RenamedTo slots :=
  renamedTo_of_fixed rfl rfl

theorem renamesCalls_untouched (calls : List (List Term)) :
    RenamesCalls (calls.map .untouched) calls :=
  List.forall₂_map_left_iff.mpr
    (List.forall₂_same.mpr fun slots _ => PlacedCall.untouched_renamedTo slots)

/-- Whether the calls in a term are renamed as they see declarations, and so in a pattern. -/
structure Term.HasRenamedCalls (t : Term) : Prop where
  renamed : ∀ {scope seen} names, Scope.Sees scope seen →
    RenamesCalls (t.placedCalls seen false) (t.rename scope names).1.calls
  declared : ∀ {scope seen} names, Scope.Sees scope seen →
    RenamesCalls (t.placedCalls seen true) (t.declare scope names).1.calls

def Payload.HasRenamedCalls (p : Payload) : Prop :=
  ∀ {scope seen} names, Scope.Sees scope seen →
    RenamesCalls (p.placedCalls seen) (p.rename scope names).1.calls

def Clause.HasRenamedCalls (c : Clause) : Prop :=
  ∀ {scope seen} names, Scope.Sees scope seen →
    RenamesCalls (c.placedCalls seen) (c.rename scope names).1.calls

section

variable {scope : Scope} {seen : Seen}

theorem renamesCalls_renameTerms {ts : List Term} (h : ∀ t ∈ ts, t.HasRenamedCalls)
    (hscope : scope.Sees seen) (names : Locals) :
    RenamesCalls (placedCallsInTerms seen false ts)
      (callsOfTerms (renameTerms scope ts names).1) := by
  induction ts generalizing names with
  | nil => exact .nil
  | cons t rest ih =>
    obtain ⟨ht, hrest⟩ := List.forall_mem_cons.mp h
    exact List.rel_append (ht.renamed names hscope) (ih hrest _)

theorem renamesCalls_declareTerms {ts : List Term} (h : ∀ t ∈ ts, t.HasRenamedCalls)
    (hscope : scope.Sees seen) (names : Locals) :
    RenamesCalls (placedCallsInTerms seen true ts)
      (callsOfTerms (declareTerms scope ts names).1) := by
  induction ts generalizing scope seen names with
  | nil => exact .nil
  | cons t rest ih =>
    obtain ⟨ht, hrest⟩ := List.forall_mem_cons.mp h
    exact List.rel_append (ht.declared names hscope) (ih hrest (t.sees_declare names hscope) _)

theorem renamesCalls_renameFields {es : List (Term × Term)}
    (h : ∀ e ∈ es, e.1.HasRenamedCalls ∧ e.2.HasRenamedCalls) (hscope : scope.Sees seen)
    (names : Locals) :
    RenamesCalls (placedCallsInFields seen es) (callsOfFields (renameFields scope es names).1) := by
  induction es generalizing names with
  | nil => exact .nil
  | cons e rest ih =>
    obtain ⟨⟨hkey, hvalue⟩, hrest⟩ := List.forall_mem_cons.mp h
    have hfirst := hkey.renamed names hscope
    have hsecond := hvalue.renamed (e.1.rename scope names).2 hscope
    exact List.rel_append (List.rel_append hfirst hsecond) (ih hrest _)

theorem renamesCalls_renameModifiers {es : List (Term × Term)}
    (h : ∀ e ∈ es, e.1.HasRenamedCalls ∧ e.2.HasRenamedCalls) (hscope : scope.Sees seen)
    (names : Locals) :
    RenamesCalls (placedCallsInModifiers seen es)
      (callsOfModifiers (renameModifiers scope es names).1) := by
  induction es generalizing names with
  | nil => exact .nil
  | cons e rest ih =>
    obtain ⟨⟨-, hvalue⟩, hrest⟩ := List.forall_mem_cons.mp h
    exact List.rel_append (hvalue.renamed names hscope) (ih hrest _)

theorem renamesCalls_renameBody {body : List Clause} (h : ∀ c ∈ body, c.HasRenamedCalls)
    (hscope : scope.Sees seen) (names : Locals) :
    RenamesCalls (placedCallsInBody seen body) (callsOfBody (renameBody scope body names).1) := by
  induction body generalizing scope seen names with
  | nil => exact .nil
  | cons c rest ih =>
    obtain ⟨hc, hrest⟩ := List.forall_mem_cons.mp h
    exact List.rel_append (hc names hscope) (ih hrest (c.sees_rename names hscope) _)

theorem renamesCalls_call {slots : List Term} (h : ∀ t ∈ slots, t.HasRenamedCalls)
    (hscope : scope.Sees seen) (names : Locals) :
    RenamesCalls (⟨slots, seen, false⟩ :: placedCallsInTerms seen false slots)
      ((renameTerms scope slots names).1 :: callsOfTerms (renameTerms scope slots names).1) := by
  have hfirst : PlacedCall.RenamedTo ⟨slots, seen, false⟩ (renameTerms scope slots names).1 := by
    refine ⟨nofun, fun _ => ⟨scope, hscope, names, ?_⟩⟩
    cases slots <;> rfl
  exact .cons hfirst (renamesCalls_renameTerms h hscope names)

/-- The calls in a head that stands before a body, which sees what the body declares. -/
theorem renamesCalls_head {head : Term} {body : List Clause} (h : head.HasRenamedCalls)
    (hscope : scope.Sees seen) (names names' : Locals) :
    RenamesCalls (head.placedCalls (seen.enter.after body) false)
      (head.rename (renameBody scope body names).2.1 names').1.calls :=
  h.renamed names' (sees_renameBody body names hscope.enter)

end

/-- What declares nothing itself has the same calls as a pattern. -/
theorem Term.HasRenamedCalls.of_renamed {t : Term}
    (hdeclare : ∀ scope names, (t.declare scope names).1 = (t.rename scope names).1)
    (hpattern : ∀ seen, t.placedCalls seen true = t.placedCalls seen false)
    (h : ∀ {scope seen} names, Scope.Sees scope seen →
      RenamesCalls (t.placedCalls seen false) (t.rename scope names).1.calls) :
    t.HasRenamedCalls where
  renamed := h
  declared {scope seen} names hscope := by
    rw [hdeclare, hpattern]
    exact h names hscope

theorem Payload.hasRenamedCalls_call {slots : List Term} (ih : ∀ t ∈ slots, t.HasRenamedCalls) :
    (Payload.call slots).HasRenamedCalls := by
  intro scope seen names hscope
  by_cases hassign : ∃ lhs rhs, slots = [.ref [.var "assign"], lhs, rhs]
  · obtain ⟨lhs, rhs, rfl⟩ := hassign
    have hright := (ih rhs (by simp)).renamed names hscope
    have hleft := (ih lhs (by simp)).declared (rhs.rename scope names).2 hscope
    -- the right side is renamed first, but its calls come after those of the left
    simp only [Payload.placedCalls, Payload.rename, Payload.calls, callsOfTerms, Term.calls,
      List.nil_append, List.append_nil]
    exact .cons (PlacedCall.renamedTo_of_fixed rfl rfl) (List.rel_append hleft hright)
  · have hplain : IsPlainCall slots := fun lhs rhs heq => hassign ⟨lhs, rhs, heq⟩
    rw [Payload.rename_call hplain, Payload.placedCalls_call hplain]
    exact renamesCalls_call ih hscope names

theorem hasRenamedCalls : TermInduction Term.HasRenamedCalls Clause.HasRenamedCalls
    Payload.HasRenamedCalls where
  scalar _ := .of_renamed (fun _ _ => rfl) (fun _ => rfl) fun _ _ => .nil
  string _ := .of_renamed (fun _ _ => rfl) (fun _ => rfl) fun _ _ => .nil
  var name := {
    renamed _ _ := .nil
    declared _ _ := by
      rw [Term.declare]
      split <;> exact .nil }
  ref parts ih := .of_renamed (fun _ _ => rfl) (fun _ => rfl) fun names hscope =>
    renamesCalls_renameTerms ih hscope names
  call slots ih := .of_renamed (fun _ _ => rfl) (fun _ => rfl) fun names hscope =>
    renamesCalls_call ih hscope names
  array items ih := {
    renamed names hscope := renamesCalls_renameTerms ih hscope names
    declared names hscope := renamesCalls_declareTerms ih hscope names }
  set items ih := .of_renamed (fun _ _ => rfl) (fun _ => rfl) fun names hscope =>
    renamesCalls_renameTerms ih hscope names
  object fields ih := .of_renamed (fun _ _ => rfl) (fun _ => rfl) fun names hscope =>
    renamesCalls_renameFields ih hscope names
  arrayCompr head body ihhead ihbody := .of_renamed (fun _ _ => rfl) (fun _ => rfl)
    fun names hscope => List.rel_append (renamesCalls_head ihhead hscope names _)
      (renamesCalls_renameBody ihbody hscope.enter names)
  setCompr head body ihhead ihbody := .of_renamed (fun _ _ => rfl) (fun _ => rfl)
    fun names hscope => List.rel_append (renamesCalls_head ihhead hscope names _)
      (renamesCalls_renameBody ihbody hscope.enter names)
  objectCompr key value body ihkey ihvalue ihbody := .of_renamed (fun _ _ => rfl) (fun _ => rfl)
    fun names hscope => List.rel_append
      (List.rel_append (renamesCalls_head ihkey hscope names _)
        (renamesCalls_head ihvalue hscope names _))
      (renamesCalls_renameBody ihbody hscope.enter names)
  clause negated payload modifiers ihpayload ihmodifiers := by
    intro scope seen names hscope
    exact List.rel_append (ihpayload names hscope)
      (renamesCalls_renameModifiers ihmodifiers (payload.sees_rename names hscope) _)
  single t ih := fun names hscope => ih.renamed names hscope
  invoke slots ih := Payload.hasRenamedCalls_call ih
  declare vars domain ihvars ihdomain := by
    intro scope seen names hscope
    cases domain with
    | none => exact renamesCalls_declareTerms ihvars hscope names
    | some domain =>
      exact List.rel_append (renamesCalls_declareTerms ihvars hscope _)
        ((ihdomain domain rfl).renamed names hscope)
  every key value domain body ihkey ihvalue ihdomain ihbody := by
    intro scope seen names hscope
    have hdomain := ihdomain.renamed names hscope
    cases key with
    | none =>
      have hvalue := ihvalue.declared (domain.rename scope names).2 hscope.enter
      have hinner := value.sees_declare (domain.rename scope names).2 hscope.enter
      exact List.rel_append (List.rel_append hvalue hdomain)
        (renamesCalls_renameBody ihbody hinner _)
    | some key =>
      have hkey := (ihkey key rfl).declared (domain.rename scope names).2 hscope.enter
      have hmiddle := key.sees_declare (domain.rename scope names).2 hscope.enter
      have hvalue := ihvalue.declared (key.declare scope (domain.rename scope names).2).2.2 hmiddle
      have hinner :=
        value.sees_declare (key.declare scope (domain.rename scope names).2).2.2 hmiddle
      exact List.rel_append (List.rel_append (List.rel_append hkey hvalue) hdomain)
        (renamesCalls_renameBody ihbody hinner _)

/-! ## Rules and modules -/

theorem renamesCalls_renameTerm? {scope : Scope} {seen : Seen} (hscope : scope.Sees seen)
    (o : Option Term) (names : Locals) :
    RenamesCalls (placedCallsInTerms seen false o.toList)
      (callsOfTerms (renameTerm? scope o names).1.toList) := by
  cases o with
  | none => exact .nil
  | some t => exact renamesCalls_renameTerms (hasRenamedCalls.terms [t]) hscope names

theorem renamesCalls_renameBodies (bodies : List Body) (names : Locals) :
    RenamesCalls (bodies.flatMap (placedCallsInBody .nothing))
      ((renameBodies bodies names).1.flatMap callsOfBody) := by
  induction bodies generalizing names with
  | nil => exact .nil
  | cons body rest ih =>
    have hfirst := renamesCalls_renameBody (hasRenamedCalls.body body) .start names
    exact List.rel_append hfirst (ih _)

/-- The calls of a rule are renamed in their order, each as what it sees demands. -/
theorem Rule.renamesCalls (r : Rule) (names : Locals) :
    RenamesCalls r.placedCalls (r.rename names).1.calls := by
  obtain ⟨name, isDefault, args, key, value, bodies⟩ := r
  cases bodies with
  | nil => exact renamesCalls_untouched _
  | cons body rest =>
    have hscope := sees_renameBody body names .start
    have hfirst := renamesCalls_renameBody (hasRenamedCalls.body body) .start names
    rw [Rule.calls, callsOfTerms_append, callsOfTerms_append]
    exact List.rel_append
      (List.rel_append
        (List.rel_append (renamesCalls_untouched _) (renamesCalls_renameTerm? hscope key _))
        (renamesCalls_renameTerm? hscope value _))
      (List.rel_append hfirst (renamesCalls_renameBodies rest _))

end PolicySync.Policy
