import PolicySync.Policy.Term.OfTree
import PolicySync.Proofs.PackagePath

/-!
# Texts of references

The text of a reference has its segments: a bare name goes on as long as characters of names follow,
and a key in brackets up to its closing quote. A package path is the text of the reference that it
is read as.
-/

namespace PolicySync.Policy

open PolicySync.Text

/-! ## Segments -/

def Term.key? : Term → Option String
  | .string key => some key
  | _ => none

theorem refSegments?_var (name : String) (rest : List Term) :
    refSegments? (.var name :: rest) = (rest.mapM Term.key?).map (name :: ·) := by
  have hmap : ∀ read : Term → Option String, read = Term.key? →
      (rest.mapM read).bind (fun keys => some (name :: keys)) =
        (rest.mapM Term.key?).map (name :: ·) := by
    rintro read rfl
    cases rest.mapM Term.key? <;> rfl
  refine hmap _ (funext fun t => ?_)
  cases t <;> rfl

theorem refSegments?_append {parts : List Term} (hne : parts ≠ []) (t : Term) :
    refSegments? (parts ++ [t]) =
      (refSegments? parts).bind fun path => t.key?.map fun key => path ++ [key] := by
  cases parts with
  | nil => exact absurd rfl hne
  | cons head rest =>
    cases head with
    | var name =>
      rw [List.cons_append, refSegments?_var, refSegments?_var, List.mapM_append, List.mapM_cons]
      cases rest.mapM Term.key? with
      | none => rfl
      | some keys => cases t.key? <;> rfl
    | _ => rfl

theorem refSegments?_refOfPath (p : SegmentPath) :
    refSegments? (refOfPath p) = some p.segments := by
  have hkeys : ∀ keys : List String, (keys.map Term.string).mapM Term.key? = some keys := by
    intro keys
    induction keys with
    | nil => rfl
    | cons key rest ih =>
      rw [List.map_cons, List.mapM_cons, ih]
      rfl
  rw [refOfPath, refSegments?_var, hkeys]
  rfl

/-! ## Texts -/

/-- Whether a name ends before these characters. -/
def endsName (rest : List Char) : Bool := rest.head?.all fun c => !isNameChar c

private theorem name_append_inj {a b : String} {rest rest' : List Char}
    (ha : isIdentifier a = true) (hb : isIdentifier b = true) (hrest : endsName rest = true)
    (hrest' : endsName rest' = true) (h : a.toList ++ rest = b.toList ++ rest') :
    a = b ∧ rest = rest' := by
  have hname := congrArg (List.takeWhile isNameChar) h
  rw [takeWhile_append_stop (all_isNameChar_of_isIdentifier ha) hrest,
    takeWhile_append_stop (all_isNameChar_of_isIdentifier hb) hrest'] at hname
  rw [hname] at h
  exact ⟨String.toList_inj.mp hname, List.append_cancel_left h⟩

/-- The characters of a key after the head of a reference. -/
def keyChars (key : String) : List Char := (segmentText false (.string key)).toList

theorem keyChars_bare {key : String} (h : isIdentifier key = true) :
    keyChars key = '.' :: key.toList := by
  rw [keyChars, segmentText, if_pos h, String.toList_append]
  rfl

theorem keyChars_quoted {key : String} (h : isIdentifier key = false) :
    keyChars key = '[' :: '"' :: (Quoted.encodeChars key.toList ++ ['"', ']']) := by
  rw [keyChars, segmentText, if_neg (by rw [h]; exact Bool.false_ne_true)]
  simp [Quoted.quote]

theorem keyChars_append_inj {a b : String} {rest rest' : List Char} (hrest : endsName rest = true)
    (hrest' : endsName rest' = true) (h : keyChars a ++ rest = keyChars b ++ rest') :
    a = b ∧ rest = rest' := by
  cases ha : isIdentifier a <;> cases hb : isIdentifier b
  case true.true =>
    rw [keyChars_bare ha, keyChars_bare hb, List.cons_append, List.cons_append] at h
    exact name_append_inj ha hb hrest hrest' (List.cons.inj h).2
  case true.false =>
    rw [keyChars_bare ha, keyChars_quoted hb] at h
    cases (List.cons.inj h).1
  case false.true =>
    rw [keyChars_quoted ha, keyChars_bare hb] at h
    cases (List.cons.inj h).1
  case false.false =>
    -- what stands between the quotes is read back, and ends where they close
    have hscan : ∀ key : String, ∀ rest : List Char,
        Quoted.scan (Quoted.encodeChars key.toList ++ ['"', ']'] ++ rest) =
          some (key.toList, ']' :: rest) := by
      intro key rest
      rw [List.append_assoc]
      exact Quoted.scan_encodeChars key.toList (']' :: rest)
    rw [keyChars_quoted ha, keyChars_quoted hb] at h
    have hinner := (List.cons.inj (List.cons.inj h).2).2
    have hread := (hscan a rest).symm.trans ((congrArg Quoted.scan hinner).trans (hscan b rest'))
    obtain ⟨hkey, htail⟩ := Prod.mk.inj (Option.some.inj hread)
    exact ⟨String.toList_inj.mp hkey, (List.cons.inj htail).2⟩

theorem endsName_keyChars (keys : List String) : endsName (keys.flatMap keyChars) = true := by
  cases keys with
  | nil => rfl
  | cons key rest =>
    rw [List.flatMap_cons]
    cases hkey : isIdentifier key with
    | true =>
      rw [keyChars_bare hkey]
      rfl
    | false =>
      rw [keyChars_quoted hkey]
      rfl

theorem flatMap_keyChars_inj {keys keys' : List String}
    (h : keys.flatMap keyChars = keys'.flatMap keyChars) : keys = keys' := by
  have hne : ∀ key rest, keyChars key ++ rest ≠ [] := by
    intro key rest
    cases hkey : isIdentifier key with
    | true => simp [keyChars_bare hkey]
    | false => simp [keyChars_quoted hkey]
  induction keys generalizing keys' with
  | nil =>
    cases keys' with
    | nil => rfl
    | cons key' rest' => exact absurd h.symm (hne key' _)
  | cons key rest ih =>
    cases keys' with
    | nil => exact absurd h (hne key _)
    | cons key' rest' =>
      obtain ⟨rfl, hrest⟩ :=
        keyChars_append_inj (endsName_keyChars rest) (endsName_keyChars rest') h
      rw [ih hrest]

theorem refText_refOfPath_toList (p : SegmentPath) :
    (refText (refOfPath p)).toList = p.head.toList ++ p.rest.flatMap keyChars := by
  rw [refOfPath, refText, String.toList_append, String.toList_join, List.flatMap_map,
    List.flatMap_map]
  rfl

theorem refText_inj {p q : SegmentPath} (hp : isIdentifier p.head = true)
    (hq : isIdentifier q.head = true) (h : refText (refOfPath p) = refText (refOfPath q)) :
    p = q := by
  have htext := congrArg String.toList h
  rw [refText_refOfPath_toList, refText_refOfPath_toList] at htext
  obtain ⟨hhead, hrest⟩ :=
    name_append_inj hp hq (endsName_keyChars p.rest) (endsName_keyChars q.rest) htext
  cases p
  cases q
  cases hhead
  cases flatMap_keyChars_inj hrest
  rfl

theorem refText_eq_iff {p q : SegmentPath} (hp : isIdentifier p.head = true)
    (hq : isIdentifier q.head = true) :
    refText (refOfPath p) = refText (refOfPath q) ↔
      refSegments? (refOfPath p) = refSegments? (refOfPath q) := by
  constructor
  · intro h
    rw [refText_inj hp hq h]
  · intro h
    rw [refSegments?_refOfPath, refSegments?_refOfPath] at h
    obtain ⟨hhead, hrest⟩ := List.cons.inj (Option.some.inj h)
    rw [refOfPath, refOfPath, hhead, hrest]

/-! ## Package paths -/

theorem refText_packagePath {first id last : String} (hlast : isIdentifier last = true) :
    refText (refOfPath ⟨first, [id, last]⟩) = packagePath first id last := by
  rw [← String.toList_inj, refText_refOfPath_toList, packagePath]
  cases hid : isIdentifier id with
  | true => simp [keyChars_bare hid, keyChars_bare hlast]
  | false => simp [keyChars_quoted hid, keyChars_bare hlast, Quoted.quote]

theorem packagePath_inj {first last id id' : String} (hfirst : isIdentifier first = true)
    (hlast : isIdentifier last = true)
    (h : packagePath first id last = packagePath first id' last) : id = id' := by
  rw [← refText_packagePath hlast, ← refText_packagePath hlast] at h
  have hpath := refText_inj (p := ⟨first, [id, last]⟩) hfirst hfirst h
  injection hpath with _ hrest
  exact (List.cons.inj hrest).1

/-- References with the same text have the same segments, and the package path around an id is
the text of its reference. So each id has a path of its own, bare or in brackets. -/
theorem refText_isFaithful :
    (∀ p q : SegmentPath, isIdentifier p.head = true → isIdentifier q.head = true →
      (refText (refOfPath p) = refText (refOfPath q) ↔
        refSegments? (refOfPath p) = refSegments? (refOfPath q))) ∧
    ∀ first last : String, isIdentifier first = true → isIdentifier last = true →
      (∀ id, refText [.var first, .string id, .string last] = packagePath first id last) ∧
      (∀ id id', packagePath first id last = packagePath first id' last → id = id') ∧
      ∀ id id', isIdentifier id = true → isIdentifier id' = false →
        packagePath first id last ≠ packagePath first id' last := by
  refine ⟨fun p q => refText_eq_iff, fun first last hfirst hlast => ⟨?_, ?_, ?_⟩⟩
  · exact fun id => refText_packagePath hlast
  · exact fun id id' => packagePath_inj hfirst hlast
  · intro id id' hid hid' h
    rw [packagePath_inj hfirst hlast h, hid'] at hid
    cases hid

/-- A point in a key is not one between two keys, and a quotation mark in an id stays in its key. -/
theorem refText_isFaithful_edge :
    (refText (refOfPath ⟨"metadata", ["a.b"]⟩) = refText (refOfPath ⟨"metadata", ["a", "b"]⟩) ↔
      refSegments? (refOfPath ⟨"metadata", ["a.b"]⟩) =
        refSegments? (refOfPath ⟨"metadata", ["a", "b"]⟩)) ∧
    refText [.var "metadata", .string "a\"b", .string "labels"] =
      packagePath "metadata" "a\"b" "labels" ∧
    packagePath "metadata" "edge" "labels" ≠ packagePath "metadata" "\"edge\"" "labels" :=
  have h := refText_isFaithful.2 "metadata" "labels" (by decide) (by decide)
  ⟨refText_isFaithful.1 _ _ (by decide) (by decide), h.1 _, h.2.2 _ _ (by decide) (by decide)⟩

end PolicySync.Policy
