import PolicySync.Proofs.Data.SortedMap
import PolicySync.Proofs.Policy.Callee
import PolicySync.Proofs.Policy.Compile
import PolicySync.Proofs.Policy.Reference

/-!
# Calls of rules that do not exist

What is called can lead to a rule of any fragment: by its path under `data`, or through an import.
Compiling refuses fragments for a call that leads to no rule. It does so exactly when there is such
a call, as long as no such call stands where it is not looked for and no rule is taken for another.
-/

namespace PolicySync.Policy

open PolicySync.Text

/-! ## What a call leads to -/

/-- The name that a segment stands for: a key may have escapes. -/
def segmentName (written : String) : String :=
  match Quoted.scan (written.toList ++ ['"']) with
  | some (name, []) => String.ofList name
  | _ => written

namespace SegmentPath

def names (p : SegmentPath) : List String := p.head :: p.rest.map segmentName

/-- Whether the segments of a path are written without escapes. -/
def isPlain (p : SegmentPath) : Bool := p.rest.all fun s => s.toList.all Quoted.isPlain

end SegmentPath

/-- The name under which an import is visible. -/
def ImportDecl.visibleName (i : ImportDecl) : String :=
  i.name.getD (i.path.names.getLast (List.cons_ne_nil _ _))

def ImportDecl.isOfData (i : ImportDecl) : Bool := i.path.head = "data"

namespace ModuleTree

/-- The path under `data` that is visible under a name; of several the last. -/
def dataImport? (m : ModuleTree) (name : String) : Option (List String) :=
  m.imports.reverse.findSome? fun i =>
    if i.isOfData ∧ i.visibleName = name then some i.path.names else none

/-- The path under `data` that a path leads to. -/
def follow? (m : ModuleTree) : List String → Option (List String)
  | [] => none
  | head :: rest =>
    if head = "data" then some (head :: rest) else (m.dataImport? head).map (· ++ rest)

/-- The path under `data` that a call leads to. -/
def denotes? (m : ModuleTree) (f : Expr) : Option (List String) := f.path?.bind m.follow?

/-- The path under `data` of a path in the package. -/
def within (m : ModuleTree) (path : List String) : List String :=
  "data" :: m.package.names ++ path

end ModuleTree

def IsDefined (trees : List ModuleTree) (path : List String) : Prop :=
  ∃ m ∈ trees, ∃ d ∈ m.rules, m.within d.path = path

/-- Whether a call in one of the modules leads to no rule. -/
def IsUndefined (trees : List ModuleTree) (m : ModuleTree) (f : Expr) : Prop :=
  ∃ path ∈ m.denotes? f, ¬ IsDefined trees path

def HasUndefinedCall (trees : List ModuleTree) : Prop :=
  ∃ m ∈ trees, ∃ d ∈ m.rules, ∃ f ∈ d.callees, IsUndefined trees m f

instance (trees : List ModuleTree) (path : List String) : Decidable (IsDefined trees path) :=
  inferInstanceAs (Decidable (∃ m ∈ trees, ∃ d ∈ m.rules, m.within d.path = path))

instance (trees : List ModuleTree) (m : ModuleTree) (f : Expr) :
    Decidable (IsUndefined trees m f) :=
  inferInstanceAs (Decidable (∃ path ∈ m.denotes? f, ¬ IsDefined trees path))

instance (trees : List ModuleTree) : Decidable (HasUndefinedCall trees) :=
  inferInstanceAs
    (Decidable (∃ m ∈ trees, ∃ d ∈ m.rules, ∃ f ∈ d.callees, IsUndefined trees m f))

/-! ## What is not looked at -/

/-- The first parts of the names of operators. -/
def operatorHeads : List String :=
  ["eq", "ne", "lt", "le", "gt", "ge", "add", "sub", "mul", "div", "mod", "intersection", "union",
    "assign", "neg", "internal"]

/-- Whether nothing about the calls of modules is overlooked or mistaken. -/
structure ShowsCalls (trees : List ModuleTree) : Prop where
  /-- Packages and imports have no escapes. -/
  plain : ∀ m ∈ trees, m.package.isPlain = true ∧ ∀ i ∈ m.imports, i.path.isPlain = true
  /-- No import has the name of an operator. -/
  operators : ∀ m ∈ trees, ∀ name ∈ operatorHeads, m.dataImport? name = none
  /-- Calls in a head, in the value of an `else` and of a bare name are defined. -/
  hidden : ∀ m ∈ trees, ∀ d ∈ m.rules, ∀ f ∈ d.hidden ++ d.callees.filter Expr.isBare,
    ¬ IsUndefined trees m f
  /-- No call leads to a rule whose head has more than a name, or to the first name of it. -/
  heads : ∀ m ∈ trees, ∀ d ∈ m.rules, ∀ f ∈ d.callees, ∀ path ∈ m.denotes? f,
    ∀ u ∈ trees, ∀ e ∈ u.rules, e.path ≠ [(Rule.ofDecl e).name] →
      path ≠ u.within e.path ∧ path ≠ u.within [(Rule.ofDecl e).name]

instance (trees : List ModuleTree) : Decidable (ShowsCalls trees) :=
  decidable_of_iff
    ((∀ m ∈ trees, m.package.isPlain = true ∧ ∀ i ∈ m.imports, i.path.isPlain = true) ∧
      (∀ m ∈ trees, ∀ name ∈ operatorHeads, m.dataImport? name = none) ∧
      (∀ m ∈ trees, ∀ d ∈ m.rules, ∀ f ∈ d.hidden ++ d.callees.filter Expr.isBare,
        ¬ IsUndefined trees m f) ∧
      ∀ m ∈ trees, ∀ d ∈ m.rules, ∀ f ∈ d.callees, ∀ path ∈ m.denotes? f,
        ∀ u ∈ trees, ∀ e ∈ u.rules, e.path ≠ [(Rule.ofDecl e).name] →
          path ≠ u.within e.path ∧ path ≠ u.within [(Rule.ofDecl e).name])
    ⟨fun ⟨plain, operators, hidden, heads⟩ => ⟨plain, operators, hidden, heads⟩,
      fun h => ⟨h.plain, h.operators, h.hidden, h.heads⟩⟩

/-! ## References of a view -/

/-- The names along a term that is a name or a reference. -/
def Term.path? : Term → Option (List String)
  | .var name => some [name]
  | .ref parts => refSegments? parts
  | _ => none

theorem Term.path?_withSegment {t : Term} (hne : t ≠ .ref []) (segment : Term) :
    (t.withSegment segment).path? =
      t.path?.bind fun path => segment.key?.map fun key => path ++ [key] := by
  cases t with
  | ref parts =>
    have hparts : parts ≠ [] := fun h => hne (congrArg Term.ref h)
    exact refSegments?_append hparts segment
  | var name => exact refSegments?_append (List.cons_ne_nil (.var name) []) segment
  | _ => rfl

theorem Term.withSegment_eq (t segment : Term) :
    ∃ part parts, t.withSegment segment = .ref (part :: parts) := by
  cases t with
  | ref parts =>
    cases parts with
    | nil => exact ⟨_, _, rfl⟩
    | cons part rest => exact ⟨_, _, rfl⟩
  | _ => exact ⟨_, _, rfl⟩

/-- A call is neither a name nor a reference nor a text. -/
theorem callTerm_eq (function : Term) (args : List Term) :
    (∃ slots, callTerm function args = .call slots) ∨ callTerm function args = .set [] := by
  fun_cases callTerm function args with
  | case1 => exact .inr rfl
  | case2 => exact .inl ⟨_, rfl⟩

theorem ofExpr_ne_ref_nil (e : Expr) : Term.ofExpr e ≠ .ref [] := by
  cases e with
  | call function args =>
    rcases callTerm_eq (Term.ofExpr function) (termsOfExprs args) with ⟨slots, h⟩ | h <;>
      rw [Term.ofExpr, h] <;> exact nofun
  | dot base field =>
    obtain ⟨part, parts, h⟩ := Term.withSegment_eq (Term.ofExpr base) (.string field)
    rw [Term.ofExpr, h]
    exact nofun
  | index base key =>
    obtain ⟨part, parts, h⟩ := Term.withSegment_eq (Term.ofExpr base) (Term.ofExpr key)
    rw [Term.ofExpr, h]
    exact nofun
  | member key value collection => cases key <;> exact nofun
  | _ => exact nofun

/-- A text is the view of a text, and a name that of a name. -/
theorem key?_ofExpr (e : Expr) :
    (Term.ofExpr e).key? = e.key? ∧ ((∃ name, Term.ofExpr e = .var name) → e.isBare = true) := by
  cases e with
  | call function args =>
    rcases callTerm_eq (Term.ofExpr function) (termsOfExprs args) with ⟨slots, h⟩ | h <;>
      rw [Term.ofExpr, h] <;> exact ⟨rfl, nofun⟩
  | dot base field =>
    obtain ⟨part, parts, h⟩ := Term.withSegment_eq (Term.ofExpr base) (.string field)
    rw [Term.ofExpr, h]
    exact ⟨rfl, nofun⟩
  | index base key =>
    obtain ⟨part, parts, h⟩ := Term.withSegment_eq (Term.ofExpr base) (Term.ofExpr key)
    rw [Term.ofExpr, h]
    exact ⟨rfl, nofun⟩
  | var name => exact ⟨rfl, fun _ => rfl⟩
  | member key value collection => cases key <;> exact ⟨rfl, nofun⟩
  | _ => exact ⟨rfl, nofun⟩

/-- A reference has the names that it was written with. -/
theorem path?_ofExpr (e : Expr) : (Term.ofExpr e).path? = e.path? := by
  fun_induction Expr.path? e with
  | case1 name => rfl
  | case2 base field ih =>
    rw [Term.ofExpr, Term.path?_withSegment (ofExpr_ne_ref_nil base), ih]
    cases base.path? <;> rfl
  | case3 base key ih =>
    rw [Term.ofExpr, Term.path?_withSegment (ofExpr_ne_ref_nil base), ih, (key?_ofExpr key).1]
  | case4 e hvar hdot hindex =>
    cases e with
    | var name => exact absurd rfl (hvar name)
    | dot base field => exact absurd rfl (hdot base field)
    | index base key => exact absurd rfl (hindex base key)
    | call function args =>
      rcases callTerm_eq (Term.ofExpr function) (termsOfExprs args) with ⟨slots, h⟩ | h <;>
        rw [Term.ofExpr, h] <;> rfl
    | member key value collection => cases key <;> rfl
    | _ => rfl

/-! ## The view of a module -/

theorem segmentName_of_plain {written : String} (h : written.toList.all Quoted.isPlain = true) :
    segmentName written = written := by
  have hscan := Quoted.scan_encodeChars written.toList []
  rw [Quoted.encodeChars_eq_self.mpr h] at hscan
  rw [segmentName, hscan]
  exact String.ofList_toList

theorem SegmentPath.names_of_plain {p : SegmentPath} (h : p.isPlain = true) :
    p.names = p.segments := by
  have hrest : p.rest.map segmentName = p.rest := by
    refine (List.map_congr_left fun s hs => ?_).trans (List.map_id p.rest)
    exact segmentName_of_plain (List.all_eq_true.mp h s hs)
  rw [names, segments, hrest]

theorem visibleName?_ofTree {i : ImportDecl} (h : i.path.isPlain = true) :
    (⟨refOfPath i.path, i.name⟩ : Import).visibleName? = some i.visibleName := by
  have hnames := SegmentPath.names_of_plain h
  obtain ⟨⟨head, rest⟩, name⟩ := i
  cases name with
  | some name => rfl
  | none =>
    rcases List.eq_nil_or_concat rest with rfl | ⟨init, last, rfl⟩
    · rfl
    · have hlast : (refOfPath ⟨head, init.concat last⟩).getLast? = some (.string last) := by
        rw [refOfPath, List.concat_eq_append, List.map_append, ← List.cons_append]
        exact List.getLast?_concat
      have hname : (head :: init.concat last).getLast (List.cons_ne_nil _ _) = last := by
        simp
      simp only [Import.visibleName?, ImportDecl.visibleName, hlast, hnames,
        SegmentPath.segments, hname, Option.getD_none]

theorem dataImports_ofTree {m : ModuleTree} (h : ∀ i ∈ m.imports, i.path.isPlain = true)
    (name : String) : (Module.ofTree m).dataImports.get? name = m.dataImport? name := by
  have hentries : ∀ i ∈ m.imports.reverse,
      (do
        let path ← refSegments? (refOfPath i.path)
        let name ← (⟨refOfPath i.path, i.name⟩ : Import).visibleName?
        if path.head? = some "data" then return (name, path) else none) =
      if i.isOfData then some (i.visibleName, i.path.names) else none := by
    intro i hi
    have hplain := h i (List.mem_reverse.mp hi)
    rw [refSegments?_refOfPath, visibleName?_ofTree hplain, SegmentPath.names_of_plain hplain]
    simp [ImportDecl.isOfData, SegmentPath.segments]
  have hlookup : (Module.ofTree m).dataImports.get? name =
      lookupEntry name (m.imports.reverse.filterMap fun i =>
        if i.isOfData then some (i.visibleName, i.path.names) else none) := by
    rw [Module.dataImports, SortedMap.get?_ofList, ← List.filterMap_reverse, Module.ofTree,
      ← List.map_reverse, List.filterMap_map]
    exact congrArg (lookupEntry name) (List.filterMap_congr hentries)
  rw [hlookup, SortedMap.lookupEntry_filterMap, ModuleTree.dataImport?]
  congr 1
  funext i
  by_cases hdata : i.isOfData = true <;> simp [hdata]

theorem dataPath?_ofTree {m : ModuleTree} (h : ∀ i ∈ m.imports, i.path.isPlain = true)
    (operator : List Term) : dataPath? (Module.ofTree m).dataImports operator =
      (refSegments? operator).bind m.follow? := by
  rw [dataPath?]
  cases refSegments? operator with
  | none => rfl
  | some path =>
    cases path with
    | nil => rfl
    | cons head rest =>
      by_cases hdata : head = "data"
      · simp [ModuleTree.follow?, hdata]
      · simp only [ModuleTree.follow?, dataImports_ofTree h, hdata, if_false, Option.bind_eq_bind,
          Option.bind_some]
        cases m.dataImport? head <;> rfl

theorem definedPaths_ofTree {m : ModuleTree} (h : m.package.isPlain = true) :
    (Module.ofTree m).definedPaths = m.rules.map fun d => m.within [(Rule.ofDecl d).name] := by
  have hpackage : (Module.ofTree m).packagePath? = some m.package.names := by
    rw [SegmentPath.names_of_plain h]
    exact refSegments?_refOfPath m.package
  rw [Module.definedPaths, hpackage]
  exact List.map_map

/-! ## The check -/

/-- Whether what is called leads to none of the paths at which rules are defined. -/
def leadsNowhere (defined : List (List String)) (imports : SortedMap (List String)) :
    Term → Bool
  | .ref operator => (dataPath? imports operator).any fun path => !defined.contains path
  | _ => false

theorem undefinedOperator?_isSome (defined : List (List String))
    (imports : SortedMap (List String)) (slots : List Term) :
    (undefinedOperator? defined imports slots).isSome =
      slots.head?.any (leadsNowhere defined imports) := by
  cases slots with
  | nil => rfl
  | cons function args =>
    cases function with
    | ref operator =>
      simp only [undefinedOperator?, List.head?_cons, Option.any_some, leadsNowhere]
      cases dataPath? imports operator with
      | none => rfl
      | some path => by_cases hdefined : path ∈ defined <;> simp [hdefined]
    | _ => rfl

theorem passesOver_leadsNowhere (defined : List (List String)) {m : ModuleTree}
    (hplain : ∀ i ∈ m.imports, i.path.isPlain = true)
    (hoperators : ∀ name ∈ operatorHeads, m.dataImport? name = none) :
    PassesOver (leadsNowhere defined (Module.ofTree m).dataImports) where
  emptySet := rfl
  operator name hname := by
    have hpath : ∃ parts head rest, Term.operator name = .ref parts ∧
        refSegments? parts = some (head :: rest) ∧ head ∈ operatorHeads ∧ head ≠ "data" := by
      simp only [operatorNames, List.mem_cons, List.not_mem_nil, or_false] at hname
      rcases hname with rfl | rfl | rfl | rfl | rfl | rfl | rfl | rfl | rfl | rfl | rfl | rfl |
        rfl | rfl | rfl | rfl | rfl <;>
        exact ⟨_, _, _, rfl, rfl, by decide, by decide⟩
    obtain ⟨parts, head, rest, hoperator, hparts, hhead, hdata⟩ := hpath
    simp only [hoperator, leadsNowhere, dataPath?_ofTree hplain, hparts, Option.bind_some,
      ModuleTree.follow?, hdata, if_false, hoperators head hhead, Option.map_none, Option.any_none]

theorem undefinedCall?_ofTree (defined : List (List String)) {m : ModuleTree}
    (hplain : ∀ i ∈ m.imports, i.path.isPlain = true)
    (hoperators : ∀ name ∈ operatorHeads, m.dataImport? name = none) :
    ((Module.ofTree m).undefinedCall? defined).isSome = true ↔
      ∃ d ∈ m.rules, ∃ f ∈ d.shown,
        leadsNowhere defined (Module.ofTree m).dataImports (Term.ofExpr f) = true := by
  let p := leadsNowhere defined (Module.ofTree m).dataImports
  have hpasses : PassesOver p := passesOver_leadsNowhere defined hplain hoperators
  have hrule : ∀ d : RuleDecl, (∃ slots ∈ (Rule.ofDecl d).calls, slots.head?.any p = true) ↔
      ∃ f ∈ d.shown, p (Term.ofExpr f) = true := by
    intro d
    rw [← exists_mem_calledIn, calledIn_ofDecl hpasses, exists_mem_writtenIn]
  rw [Module.undefinedCall?, List.findSome?_isSome_iff]
  simp only [undefinedOperator?_isSome]
  constructor
  · rintro ⟨slots, hslots, hany⟩
    obtain ⟨r, hr, hslots⟩ := List.mem_flatMap.mp hslots
    obtain ⟨d, hd, rfl⟩ := List.mem_map.mp hr
    exact ⟨d, hd, (hrule d).mp ⟨slots, hslots, hany⟩⟩
  · rintro ⟨d, hd, hshown⟩
    obtain ⟨slots, hslots, hany⟩ := (hrule d).mpr hshown
    exact ⟨slots, List.mem_flatMap.mpr ⟨Rule.ofDecl d, List.mem_map_of_mem hd, hslots⟩, hany⟩

/-- The check finds what is called by more than a name and leads to a path of no rule. -/
theorem leadsNowhere_ofExpr (defined : List (List String)) {m : ModuleTree}
    (hplain : ∀ i ∈ m.imports, i.path.isPlain = true) (f : Expr) :
    leadsNowhere defined (Module.ofTree m).dataImports (Term.ofExpr f) = true ↔
      f.isBare = false ∧ ∃ path ∈ m.denotes? f, path ∉ defined := by
  by_cases hbare : f.isBare = true
  · have hleads : leadsNowhere defined (Module.ofTree m).dataImports (Term.ofExpr f) = false := by
      cases f with
      | var name => rfl
      | _ => cases hbare
    simp [hleads, hbare]
  · have hleads : leadsNowhere defined (Module.ofTree m).dataImports (Term.ofExpr f) =
        (m.denotes? f).any fun path => !defined.contains path := by
      rw [ModuleTree.denotes?, ← path?_ofExpr f]
      cases hterm : Term.ofExpr f with
      | ref parts => rw [leadsNowhere, dataPath?_ofTree hplain, Term.path?]
      | var name => exact absurd ((key?_ofExpr f).2 ⟨name, hterm⟩) hbare
      | _ => rfl
    rw [hleads]
    cases m.denotes? f <;> simp [hbare]

/-- Whether compiling refuses fragments for a call. -/
def IsRefused (fragments : List (String × String)) : Prop :=
  ∃ fragment function, compile fragments = .error (.undefinedFunction fragment function)

instance (fragments : List (String × String)) : Decidable (IsRefused fragments) :=
  match h : compile fragments with
  | .error (.undefinedFunction fragment function) => isTrue ⟨fragment, function, h⟩
  | .error (.malformed _) => isFalse fun ⟨_, _, h'⟩ => by rw [h] at h'; cases h'
  | .error (.evaluation _) => isFalse fun ⟨_, _, h'⟩ => by rw [h] at h'; cases h'
  | .ok _ => isFalse fun ⟨_, _, h'⟩ => by rw [h] at h'; cases h'

section

variable {fragments : List (String × String)} {trees : List (String × ModuleTree)}

theorem isRefused_iff (h : readFragments fragments = .ok trees) :
    IsRefused fragments ↔ (undefinedCall? (lowerFragments trees)).isSome = true := by
  simp only [IsRefused, compile, bind, Except.bind, h]
  cases undefinedCall? (lowerFragments trees) with
  | none =>
    constructor
    · rintro ⟨fragment, function, hrefused⟩
      cases hrefused
    · intro hsome
      cases hsome
  | some refused => exact ⟨fun _ => rfl, fun _ => ⟨refused.1, refused.2, rfl⟩⟩

theorem mem_lowerFragments (hnames : (trees.map (·.1)).Nodup) {e : String × Module} :
    e ∈ (lowerFragments trees).entries ↔ ∃ t ∈ trees, (t.1, Module.ofTree t.2) = e := by
  have hkeys : ((trees.map fun t => (t.1, Module.ofTree t.2)).map (·.1)).Nodup := by
    rw [List.map_map]
    exact hnames
  rw [lowerFragments, SortedMap.mem_entries_ofList hkeys, List.mem_map]

/-- The paths at which the view of the fragments has rules. -/
theorem mem_definedPaths (hnames : (trees.map (·.1)).Nodup)
    (hplain : ∀ t ∈ trees, t.2.package.isPlain = true) {path : List String} :
    path ∈ (lowerFragments trees).entries.flatMap (fun e => e.2.definedPaths) ↔
      ∃ t ∈ trees, ∃ d ∈ t.2.rules, t.2.within [(Rule.ofDecl d).name] = path := by
  rw [List.mem_flatMap]
  constructor
  · rintro ⟨e, he, hpath⟩
    obtain ⟨t, ht, rfl⟩ := (mem_lowerFragments hnames).mp he
    rw [definedPaths_ofTree (hplain t ht)] at hpath
    obtain ⟨d, hd, rfl⟩ := List.mem_map.mp hpath
    exact ⟨t, ht, d, hd, rfl⟩
  · rintro ⟨t, ht, d, hd, rfl⟩
    refine ⟨(t.1, Module.ofTree t.2), (mem_lowerFragments hnames).mpr ⟨t, ht, rfl⟩, ?_⟩
    rw [definedPaths_ofTree (hplain t ht)]
    exact List.mem_map_of_mem hd

/-- Where calls lead, a rule has the path that its head is written with exactly when the view has a
rule there. -/
theorem ShowsCalls.isDefined_iff (h : ShowsCalls (trees.map (·.2))) {m : ModuleTree}
    (hm : m ∈ trees.map (·.2)) {d : RuleDecl} (hd : d ∈ m.rules) {f : Expr} (hf : f ∈ d.callees)
    {path : List String} (hpath : path ∈ m.denotes? f) :
    IsDefined (trees.map (·.2)) path ↔
      ∃ t ∈ trees, ∃ e ∈ t.2.rules, t.2.within [(Rule.ofDecl e).name] = path := by
  constructor
  · rintro ⟨u, hu, e, he, rfl⟩
    obtain ⟨t, ht, rfl⟩ := List.mem_map.mp hu
    by_cases hhead : e.path = [(Rule.ofDecl e).name]
    · exact ⟨t, ht, e, he, by rw [hhead]⟩
    · exact absurd rfl (h.heads m hm d hd f hf _ hpath t.2 hu e he hhead).1
  · rintro ⟨t, ht, e, he, rfl⟩
    have hu : t.2 ∈ trees.map (·.2) := List.mem_map_of_mem ht
    by_cases hhead : e.path = [(Rule.ofDecl e).name]
    · exact ⟨t.2, hu, e, he, by rw [hhead]⟩
    · exact absurd rfl (h.heads m hm d hd f hf _ hpath t.2 hu e he hhead).2

/-- Compiling refuses fragments for a call exactly when some call in them, wherever it is written,
leads to a path under `data` at which no rule is defined. -/
theorem isRefused_iff_hasUndefinedCall (hnames : (fragments.map (·.1)).Nodup)
    (hread : readFragments fragments = .ok trees) (h : ShowsCalls (trees.map (·.2))) :
    IsRefused fragments ↔ HasUndefinedCall (trees.map (·.2)) := by
  rw [← names_of_readFragments hread] at hnames
  have hpackages : ∀ t ∈ trees, t.2.package.isPlain = true :=
    fun t ht => (h.plain t.2 (List.mem_map_of_mem ht)).1
  let defined := (lowerFragments trees).entries.flatMap fun e => e.2.definedPaths
  have hmodule : ∀ t ∈ trees, ((Module.ofTree t.2).undefinedCall? defined).isSome = true ↔
      ∃ d ∈ t.2.rules, ∃ f ∈ d.callees, IsUndefined (trees.map (·.2)) t.2 f := by
    intro t ht
    have hm : t.2 ∈ trees.map (·.2) := List.mem_map_of_mem ht
    have himports := (h.plain t.2 hm).2
    have hdefined : ∀ d ∈ t.2.rules, ∀ f ∈ d.callees, ∀ path ∈ t.2.denotes? f,
        path ∈ defined ↔ IsDefined (trees.map (·.2)) path := by
      intro d hd f hf path hpath
      rw [h.isDefined_iff hm hd hf hpath]
      exact mem_definedPaths hnames hpackages
    rw [undefinedCall?_ofTree defined himports (h.operators t.2 hm)]
    simp only [leadsNowhere_ofExpr defined himports]
    constructor
    · rintro ⟨d, hd, f, hshown, -, path, hpath, hnot⟩
      have hf : f ∈ d.callees := RuleDecl.mem_callees.mpr (.inl hshown)
      exact ⟨d, hd, f, hf, path, hpath, fun h' => hnot ((hdefined d hd f hf path hpath).mpr h')⟩
    · rintro ⟨d, hd, f, hf, hundefined⟩
      have hhidden : f ∉ d.hidden ++ d.callees.filter Expr.isBare :=
        fun hmem => h.hidden t.2 hm d hd f hmem hundefined
      rw [List.mem_append, List.mem_filter] at hhidden
      have hbare : f.isBare = false := by
        by_contra hbare
        exact hhidden (.inr ⟨hf, Bool.not_eq_false _ ▸ hbare⟩)
      have hshown : f ∈ d.shown :=
        (RuleDecl.mem_callees.mp hf).resolve_right fun hmem => hhidden (.inl hmem)
      obtain ⟨path, hpath, hnot⟩ := hundefined
      exact ⟨d, hd, f, hshown, hbare, path, hpath,
        fun h' => hnot ((hdefined d hd f hf path hpath).mp h')⟩
  rw [isRefused_iff hread, undefinedCall?, List.findSome?_isSome_iff]
  simp only [Option.isSome_map]
  constructor
  · rintro ⟨e, he, hrefused⟩
    obtain ⟨t, ht, rfl⟩ := (mem_lowerFragments hnames).mp he
    exact ⟨t.2, List.mem_map_of_mem ht, (hmodule t ht).mp hrefused⟩
  · rintro ⟨m, hm, hcall⟩
    obtain ⟨t, ht, rfl⟩ := List.mem_map.mp hm
    exact ⟨(t.1, Module.ofTree t.2), (mem_lowerFragments hnames).mpr ⟨t, ht, rfl⟩,
      (hmodule t ht).mpr hcall⟩

end

/-- A call in what `with` puts in place of the input, to a function that the other fragment does not
have. -/
theorem isRefused_iff_hasUndefinedCall_with :
    let fragments : List (String × String) :=
      [("a.rego", "package a\n\nimport data.b as m\n\nf(x) = [y | y = m.g(x)]\n\n" ++
          "labels.env = \"e\"\n\nh \x7b\n\tf(1) with input as data.b.g(data.b.k(2))\n\x7d " ++
          "else = 3 \x7b\n\tdata.a.f(1)\n\x7d\n"),
        ("b.rego", "package b\n\ng(x) = x\n")]
    (fragments.map (·.1)).Nodup ∧ ∃ trees, readFragments fragments = .ok trees ∧
      ShowsCalls (trees.map (·.2)) ∧ HasUndefinedCall (trees.map (·.2)) ∧ IsRefused fragments := by
  intro fragments
  have hnames : (fragments.map (·.1)).Nodup := by decide
  obtain ⟨trees, hread, hshows, hcall⟩ : ∃ trees, readFragments fragments = .ok trees ∧
      ShowsCalls (trees.map (·.2)) ∧ HasUndefinedCall (trees.map (·.2)) :=
    exists_readFragments (p := fun trees =>
      ShowsCalls (trees.map (·.2)) ∧ HasUndefinedCall (trees.map (·.2))) (by decide +kernel)
  exact ⟨hnames, trees, hread, hshows, hcall,
    (isRefused_iff_hasUndefinedCall hnames hread hshows).mpr hcall⟩

/-- Undefined calls that are overlooked: in the value of an `else`, in a head, of an imported
function by its name alone, and of the first name of a rule. -/
def overlookedCalls : List String :=
  ["package p\n\nf = 1 \x7b false \x7d else = data.q.g(2)\n",
    "package p\n\np[data.q.g(1)] = 2\n",
    "package p\n\nimport data.q.g\n\nx = g(1)\n",
    "package p\n\nsub.f(x) = x\n\ny = data.p.sub(1)\n"]

/-- Modules without undefined call that are refused: one calls a rule with a dotted name, one
compares where an import has the name of that operator, and one has an escape in its package. -/
def refusedModules : List String :=
  ["package p\n\nsub.f(x) = x\n\ny = data.p.sub.f(1)\n",
    "package p\n\nimport data.q as eq\n\ny \x7b 1 == 1 \x7d\n",
    "package p[\"\\u0062\"]\n\nf(x) = x\n\ny = data.p.b.f(1)\n"]

theorem isRefused_ne_hasUndefinedCall :
    (∀ source ∈ overlookedCalls, ¬ IsRefused [("p.rego", source)] ∧
      ∃ trees, readFragments [("p.rego", source)] = .ok trees ∧
        HasUndefinedCall (trees.map (·.2))) ∧
    ∀ source ∈ refusedModules, IsRefused [("p.rego", source)] ∧
      ∃ trees, readFragments [("p.rego", source)] = .ok trees ∧
        ¬ HasUndefinedCall (trees.map (·.2)) := by
  have hoverlooked : ∀ source ∈ overlookedCalls, ¬ IsRefused [("p.rego", source)] ∧
      ((readFragments [("p.rego", source)]).toOption.any fun trees =>
        decide (HasUndefinedCall (trees.map (·.2)))) = true := by
    decide +kernel
  have hrefused : ∀ source ∈ refusedModules, IsRefused [("p.rego", source)] ∧
      ((readFragments [("p.rego", source)]).toOption.any fun trees =>
        decide (¬ HasUndefinedCall (trees.map (·.2)))) = true := by
    decide +kernel
  constructor
  · intro source hsource
    obtain ⟨hcompiles, hcall⟩ := hoverlooked source hsource
    exact ⟨hcompiles,
      exists_readFragments (p := fun trees => HasUndefinedCall (trees.map (·.2))) hcall⟩
  · intro source hsource
    obtain ⟨hfails, hcall⟩ := hrefused source hsource
    exact ⟨hfails,
      exists_readFragments (p := fun trees => ¬ HasUndefinedCall (trees.map (·.2))) hcall⟩

end PolicySync.Policy
