import Mathlib.Data.List.Forall2
import PolicySync.Policy.Query
import PolicySync.Proofs.Policy.Document
import PolicySync.Proofs.Policy.Inert

/-!
# Programs of one value

Quoted texts, and objects of expressions with a value, have the value that they show. A program that
is one rule with such a value answers a reference to the rule with that value.
-/

namespace PolicySync.Policy

/-- Whether an expression has a value everywhere, at any depth from its size on. -/
def Evaluates (e : Expr) (v : Value) : Prop :=
  ∀ fuel ctx env, e.size ≤ fuel → evalExpr fuel ctx env e = pure (some v)

private theorem one_le_size (e : Expr) : 1 ≤ e.size := by
  cases e with
  | member key value c => cases key <;> exact Nat.le_add_left _ _
  | _ => exact Nat.le_add_left _ _

namespace Evaluates

theorem quoted (raw value : String) : Evaluates (.quoted raw value) (.string value) := by
  intro fuel ctx env h
  obtain ⟨fuel, rfl⟩ : ∃ n, fuel = n + 1 := ⟨fuel - 1, by simp [Expr.size] at h; omega⟩
  rfl

theorem scalar {text : String} {v : Value} (hv : scalarValue? text = some v) :
    Evaluates (.scalar text) v := by
  intro fuel ctx env h
  obtain ⟨fuel, rfl⟩ : ∃ n, fuel = n + 1 := ⟨fuel - 1, by simp [Expr.size] at h; omega⟩
  rw [evalExpr, hv]

private theorem collect_items {items : List Expr} {values : List Value} {fuel : Nat}
    {ctx : Context} {env : Env} (h : List.Forall₂ Evaluates items values)
    (hfuel : sizeOfExprs items ≤ fuel) :
    collect (evalExpr fuel ctx env) items = pure (some values) := by
  induction h with
  | nil => rfl
  | @cons e v items values hv _ ih =>
    rw [sizeOfExprs] at hfuel
    rw [collect, hv fuel ctx env (by omega)]
    simp only [pure_bind]
    rw [ih (by omega)]
    rfl

theorem array {items : List Expr} {values : List Value} (h : List.Forall₂ Evaluates items values) :
    Evaluates (.array items) (.array values) := by
  intro fuel ctx env hfuel
  rw [Expr.size] at hfuel
  obtain ⟨fuel, rfl⟩ : ∃ n, fuel = n + 1 := ⟨fuel - 1, by omega⟩
  rw [evalExpr, collect_items h (by omega)]
  rfl

/-- Whether a field has a key and a value everywhere. -/
def Field (f : Expr × Expr) (v : Value × Value) : Prop := Evaluates f.1 v.1 ∧ Evaluates f.2 v.2

private theorem collect_fields {fields : List (Expr × Expr)} {values : List (Value × Value)}
    {fuel : Nat} {ctx : Context} {env : Env} (h : List.Forall₂ Field fields values)
    (hfuel : sizeOfFields fields ≤ fuel + 1) :
    collect (evalField (fuel + 1) ctx env) fields = pure (some values) := by
  induction h with
  | nil => rfl
  | @cons f v fields values hf _ ih =>
    obtain ⟨key, value⟩ := f
    obtain ⟨hkey, hvalue⟩ : Evaluates key v.1 ∧ Evaluates value v.2 := hf
    have hkeySize := one_le_size key
    have hvalueSize := one_le_size value
    rw [sizeOfFields] at hfuel
    have hfield : evalField (fuel + 1) ctx env (key, value) = pure (some v) := by
      rw [evalField, hkey fuel ctx env (by omega)]
      simp only [pure_bind]
      rw [hvalue fuel ctx env (by omega)]
      rfl
    rw [collect, hfield]
    simp only [pure_bind]
    rw [ih (by omega)]
    rfl

theorem fields {fields : List (Expr × Expr)} {values : List (Value × Value)}
    (h : List.Forall₂ Field fields values) : Evaluates (.object fields) (.objectOf values) := by
  intro fuel ctx env hfuel
  rw [Expr.size] at hfuel
  cases h with
  | nil =>
    obtain ⟨fuel, rfl⟩ : ∃ n, fuel = n + 1 := ⟨fuel - 1, by omega⟩
    rfl
  | @cons f v fields values hf hfields =>
    have hone := one_le_size f.1
    have hsize : 1 ≤ sizeOfFields (f :: fields) := by
      rw [sizeOfFields]
      omega
    obtain ⟨fuel, rfl⟩ : ∃ n, fuel = n + 2 := ⟨fuel - 2, by omega⟩
    rw [evalExpr, collect_fields (.cons hf hfields) (by omega)]
    rfl

theorem object {α : Type} {xs : List α} {key value : α → Expr} {k v : α → Value}
    (h : ∀ x ∈ xs, Evaluates (key x) (k x) ∧ Evaluates (value x) (v x)) :
    Evaluates (.object (xs.map fun x => (key x, value x)))
      (.objectOf (xs.map fun x => (k x, v x))) := by
  refine fields ?_
  induction xs with
  | nil => exact .nil
  | cons x xs ih =>
    have hrest := ih fun y hy => h y (List.mem_cons_of_mem _ hy)
    exact .cons (h x List.mem_cons_self) hrest

end Evaluates

/-- The entry of a rule whose value is an expression without bodies. -/
def Entry.ofValue (package : List String) (name : String) (e : Expr) : Entry :=
  ⟨0, 0, package, [name], [.quoted name name], .value (some e) []⟩

/-- The program that is one such rule. -/
def Program.ofValue (package : List String) (name : String) (e : Expr) (imports : List Binding) :
    Program where
  entries := [.ofValue package name e]
  packages := [package]
  imports
  folders := [package, package]

/-- The memory before the rule is evaluated. -/
def Memory.ofFolder (package : List String) : Memory := ⟨.under package (.folder []), []⟩

/-- The memory once the rule was evaluated. -/
def Memory.ofValue (package : List String) (name : String) (v : Value) : Memory :=
  ⟨.under package (.folder [(.string name, .value v)]), [0]⟩

section

variable {package : List String} {name : String} {e : Expr} {v : Value} {imports : List Binding}

private theorem evalBodies_ofValue (he : e.Inert) (hv : Evaluates e v) (ctx : Context)
    {fuel : Nat} (hfuel : e.size ≤ fuel) :
    evalBodies (fuel + 3) ctx [.quoted name name] (some e) [] = pure [[.string name, v]] := by
  have hone := one_le_size e
  have hquoted : evalExpr fuel ctx [] (.quoted name name) = pure (some (.string name)) :=
    Evaluates.quoted name name fuel ctx [] (by simp [Expr.size]; omega)
  have hsplit (runs : Loop.Runs) : Loop.splitAll runs 0 [.quoted name name, e] =
      ⟨[.quoted name name, e], []⟩ := by
    simp [Loop.splitAll, Loop.split, he.split]
  have hsolve (once : Bool) : solve (fuel + 2) ctx once [] [] [] [.quoted name name, e] =
      pure [⟨[], some [.string name, v]⟩] := by
    rw [solve]
    simp only [hsplit]
    rw [solveLoops, collect, hquoted]
    simp only [pure_bind]
    rw [collect, hv fuel ctx [] hfuel]
    rfl
  rw [evalBodies]
  change (firstFound _ [(some e, [])]) = _
  rw [firstFound]
  simp only [Option.getD_some, List.singleton_append]
  rw [hsolve]
  rfl

private theorem initial_ofValue :
    Memory.initial (.ofValue package name e imports) = .ofFolder package := by
  have hfirst : Document.update Document.putFolder (package.map .string) none =
      some (.under package (.folder [])) := Document.update_none _ package
  have hagain : Document.update Document.putFolder (package.map .string)
      (some (.under package (.folder []))) = some (.under package (.folder [])) := by
    rw [← List.append_nil (package.map Value.string)]
    exact Document.update_under _ package [] _
  simp only [Memory.initial, Program.ofValue, List.foldl_cons, List.foldl_nil, hfirst, hagain,
    Option.some_or, Option.getD_some]
  rfl

private theorem forM_singleton {α : Type} (f : α → Eval Unit) (x : α) : [x].forM f = f x := by
  change (f x >>= fun _ => pure PUnit.unit) = _
  exact bind_pure_unit

private theorem change_run {f : Option Document → Option Document} {path : List Value} {m : Memory}
    {documents : Document} (h : Document.update f path (some m.documents) = some documents) :
    (change f path).run m = .ok ((), { m with documents }) := by
  simp only [change, StateT.run_bind, StateT.run_get, pure_bind, h]
  rfl

private theorem addValue_ofFolder :
    (addValue (.ofValue package name e) [.string name, v]).run (.ofFolder package) =
      .ok ((), ⟨(Memory.ofValue package name v).documents, []⟩) := by
  have hupdate : Document.update (Document.putValue v) (packageKeys package ++ [.string name])
      (some (.under package (.folder []))) =
        some (.under package (.folder [(.string name, .value v)])) :=
    Document.update_under _ package [.string name] _
  change ((change _ (packageKeys package ++ [.string name])).run _) = _
  rw [change_run hupdate]
  rfl

private theorem evalEntry_ofValue (he : e.Inert) (hv : Evaluates e v) {ctx : Context}
    (hactive : ctx.active = []) {fuel : Nat} (hfuel : e.size ≤ fuel) :
    (evalEntry (fuel + 4) ctx (.ofValue package name e)).run (.ofFolder package) =
      .ok ((), .ofValue package name v) := by
  rw [evalEntry]
  simp only [StateT.run_bind, StateT.run_get, pure_bind, hactive, Memory.ofFolder,
    Entry.ofValue, List.contains_nil, Bool.false_eq_true, if_false]
  rw [evalBodies_ofValue he hv _ hfuel]
  simp only [StateT.run_pure, pure_bind, List.isEmpty_cons, Bool.false_eq_true, if_false]
  rw [forM_singleton, StateT.run_bind]
  change (((addValue (.ofValue package name e) _).run (.ofFolder package)).bind _) = _
  rw [addValue_ofFolder]
  rfl

private theorem longestEntry?_ofValue :
    longestEntry? (.ofValue package name e imports) [] (package ++ [name]).length
      (package ++ [name]) = some (package ++ [name]) := by
  have hentry : (Program.ofValue package name e imports).hasEntry (package ++ [name]) = true := by
    simp [Program.hasEntry, Program.ofValue, Entry.ofValue, Entry.path]
  have hlength : (package ++ [name]).length = package.length + 1 := by simp
  rw [hlength, longestEntry?, ← hlength, List.take_length, List.nil_append, hentry]
  rfl

private theorem evalEntriesAt_ofValue (he : e.Inert) (hv : Evaluates e v) {ctx : Context}
    (hprogram : ctx.program = .ofValue package name e imports) (hactive : ctx.active = [])
    {fuel : Nat} (hfuel : e.size ≤ fuel) :
    (evalEntriesAt (fuel + 6) ctx (package ++ [name])).run (.ofFolder package) =
      .ok ((), .ofValue package name v) := by
  have hfilter : ctx.program.entries.filter (fun e => (package ++ [name]).isPrefixOf e.path) =
      [.ofValue package name e] := by
    simp [hprogram, Program.ofValue, Entry.ofValue, Entry.path]
  rw [evalEntriesAt, hfilter, evalEntries]
  change StateT.run (do
    [Entry.ofValue package name e].forM (evalEntry (fuel + 4) ctx)
    [].forM (evalEntry (fuel + 4) ctx)) _ = _
  rw [forM_singleton, StateT.run_bind, evalEntry_ofValue he hv hactive hfuel]
  rfl

private theorem lookUpData_ofValue (he : e.Inert) (hv : Evaluates e v) {ctx : Context}
    (hprogram : ctx.program = .ofValue package name e imports) (hactive : ctx.active = [])
    (hoverrides : ctx.overrides = []) {fuel : Nat} (hfuel : e.size ≤ fuel) :
    (lookUpData (fuel + 7) ctx (package ++ [name])).run (.ofFolder package) =
      .ok (some v, .ofValue package name v) := by
  have hget := Document.get?_under package [name] (.folder [(.string name, .value v)])
  have hsame : Document.get? [name] (.folder [(.string name, .value v)]) = some v := by
    simp [Document.get?, Document.field?, Value.same_string, Document.toValue]
  rw [lookUpData, hprogram, longestEntry?_ofValue]
  change (((evalEntriesAt (fuel + 6) ctx (package ++ [name])).run _).bind _) = _
  rw [evalEntriesAt_ofValue he hv hprogram hactive hfuel]
  change Except.ok (ctx.overridden (package ++ [name]) (Document.get? (package ++ [name])
    (.under package (.folder [(.string name, .value v)]))), Memory.ofValue package name v) = _
  rw [hget, hsame, Context.overridden, hoverrides]
  rfl

private theorem depthBound_ofValue (query : Query) :
    ∃ fuel, e.size ≤ fuel ∧
      (Program.ofValue package name e imports).depthBound query = fuel + 14 := by
  -- the bound counts the value of the rule many times over, so all the levels above it fit
  have hone := one_le_size e
  have hsize : e.size ≤ total ((Program.ofValue package name e imports).entries.map Entry.size) := by
    simp [total, Program.ofValue, Entry.ofValue, Entry.size, Entry.Kind.size, sizeOfExprs]
    omega
  have hbound : (Program.ofValue package name e imports).depthBound query =
      48 * (total ((Program.ofValue package name e imports).entries.map Entry.size) +
        total (imports.map fun b => b.path.rest.length + 1) + sizeOfStmts query + 2) := rfl
  exact ⟨(Program.ofValue package name e imports).depthBound query - 14, by omega, by omega⟩

/-- Whether an expression is a reference under `data` whose keys are texts. -/
structure IsReference (ref : Expr) (path : List String) : Prop where
  fields : splitFields ref = (.var "data", path)
  isDot : ∃ base field, ref = .dot base field
  names : ref.names = []
  keyNames : ref.keyNames = []
  arrange : ∀ arity visible, ref.arrange? arity visible = some ref
  split : ∀ runs, Loop.split runs 0 ref = ⟨ref, []⟩

private theorem bodyOrder?_reference {ref : Expr} {path : List String}
    (href : IsReference ref path) (arity : Arity) :
    bodyOrder? arity [] (BodyVars.of arity [] [.mk (.expr false ref) []] [])
      [.mk (.expr false ref) []] [] = some [0] := by
  have hnames := href.names
  have hkeys := href.keyNames
  obtain ⟨base, field, rfl⟩ := href.isDot
  have hoperand : returnOperand? arity (.dot base field) = none := rfl
  have hpattern : (Expr.dot base field).patternNames = [] := rfl
  have hvars : BodyVars.of arity [] [.mk (.expr false (.dot base field)) []] [] = ⟨[], []⟩ := by
    simp [BodyVars.of, Stmt.declares, Stmt.binds, Stmt.exprBinds, Stmt.mentions, Stmt.literal,
      Stmt.modifiers, Stmt.modifierNames, hoperand, hpattern, hkeys]
  have hown (names : List String) : names.filter (BodyVars.isOwn ⟨[], []⟩) = [] := by
    simp [BodyVars.isOwn]
  have hdefinitions : Stmt.definitions? arity [] ⟨[], []⟩ (.mk (.expr false (.dot base field)) []) =
      some [⟨none, []⟩] := by
    simp [Stmt.definitions?, exprDefinitions, hoperand, BodyVars.keyDefinitions, BodyVars.needs,
      hown, defining, Stmt.modifiers]
  rw [hvars, bodyOrder?]
  simp [Stmt.needed, Stmt.literal, hoperand, Stmt.mentions, hnames, Stmt.modifierNames,
    Stmt.modifiers, declaredFirst, hdefinitions, Stmt.assigns, Stmt.declares]
  rfl

private theorem evalStatement_ofValue (he : e.Inert) (hv : Evaluates e v) {ref : Expr}
    (href : IsReference ref (package ++ [name])) {fuel : Nat} (hfuel : e.size ≤ fuel) :
    (evalStatement (fuel + 11) (.outside (.ofValue package name e imports)) [] true ref).run
        (.ofFolder package) =
      .ok ((some v, []), .ofValue package name v) := by
  have hreference : (evalReference (fuel + 9) (.outside (.ofValue package name e imports)) []
      ref).run (.ofFolder package) = .ok (some v, .ofValue package name v) := by
    rw [evalReference, href.fields]
    change (lookUpData (fuel + 7) _ (package ++ [name])).run _ = _
    exact lookUpData_ofValue he hv rfl rfl rfl hfuel
  obtain ⟨base, field, rfl⟩ := href.isDot
  have hoperand (arity : Arity) : returnOperand? arity (.dot base field) = none := rfl
  rw [evalStatement]
  · simp only [hoperand]
    rw [evalExpr, StateT.run_bind, hreference]
    · rfl
    all_goals simp
  · simp

private theorem solve_ofValue (he : e.Inert) (hv : Evaluates e v)
    (hholds : holds (some v) = true) {ref : Expr} (href : IsReference ref (package ++ [name]))
    {fuel : Nat} (hfuel : e.size ≤ fuel) :
    (solve (fuel + 14) (.outside (.ofValue package name e imports)) false [] []
        [.mk (.expr false ref) []] []).run (.ofFolder package) =
      .ok ([⟨[v], some []⟩], .ofValue package name v) := by
  have hliteral (runs : Loop.Runs) : Loop.splitLiteral runs (.expr false ref) =
      ⟨.expr false ref, []⟩ := by
    rw [Loop.splitLiteral, href.split]
  rw [solve]
  simp only [hliteral]
  rw [solveLoops, solveStmt]
  simp only [StateT.run_bind, StateT.run_get, pure_bind]
  change (((evalStatement (fuel + 11) (.outside (.ofValue package name e imports)) [] true
      ref).run (.ofFolder package)).bind _) = _
  rw [evalStatement_ofValue he hv href hfuel]
  simp only [Except.bind, hholds]
  rfl

/-- A query for the only rule of a program gives one row with the value of that rule. -/
theorem evalQuery_ofValue (he : e.Inert) (hv : Evaluates e v) (hholds : holds (some v) = true)
    {ref : Expr} (href : IsReference ref (package ++ [name])) :
    (Program.ofValue package name e imports).evalQuery [.mk (.expr false ref) []] =
      .ok [[v]] := by
  obtain ⟨fuel, hfuel, hbound⟩ : ∃ fuel, e.size ≤ fuel ∧
      (Program.ofValue package name e imports).depthBound [.mk (.expr false ref) []] =
        fuel + 14 := depthBound_ofValue _
  have harrange (arity : Arity) (visible : List String) :
      arrangeStmts? arity visible [.mk (.expr false ref) []] =
        some [.mk (.expr false ref) []] := by
    simp [arrangeStmts?, Stmt.arrange?, href.arrange, arrangeModifiers?]
  have hrows : (queryRows (fuel + 14) (.outside (.ofValue package name e imports)) [0]
      (pick [0] [.mk (.expr false ref) []])).run (.ofFolder package) =
        .ok ([[v]], .ofValue package name v) := by
    rw [queryRows, StateT.run_bind]
    change ((solve _ _ _ _ _ [.mk (.expr false ref) []] []).run _).bind _ = _
    rw [solve_ofValue he hv hholds href hfuel]
    rfl
  unfold Program.evalQuery
  rw [hbound, initial_ofValue]
  simp only [bodyOrder?_reference href, harrange]
  rw [hrows]

end

end PolicySync.Policy
