import Mathlib.Data.List.TakeWhile
import PolicySync.Proofs.Store.Segments

/-!
# Plain paths in a target

A plain path is found again at the end of a target, escaped: nothing in it is taken for the end of
the path, and no segment of it leads elsewhere.
-/

namespace PolicySync.Target

/-- Whether a character means itself in a path: it ends nothing, stands for nothing else and is not
ignored. -/
def isLiteral (c : Char) : Bool := !(['#', '?', '%', '\\', '\t', '\n', '\r'].contains c)

/-- A path that stays what it is in a URL, but for escapes. -/
structure IsPlainPath (path : List Char) : Prop where
  literal : path.all isLiteral = true
  names : (segments path).all isName = true
  last : path.getLast?.any (fun c => 0x20 < c.toNat) = true

variable {path : List Char}

theorem notMem_of_literal (h : path.all isLiteral = true) {c : Char} (hc : isLiteral c = false) :
    c ∉ path := by
  intro hmem
  have hliteral := List.all_eq_true.mp h c hmem
  rw [hc] at hliteral
  cases hliteral

private theorem notMem_append (h : path.all isLiteral = true) {c : Char}
    (hc : isLiteral c = false) {front : List Char} (hfront : c ∉ front) :
    c ∉ front ++ '/' :: path := by
  intro hmem
  rcases List.mem_append.mp hmem with hmem | hmem
  · exact hfront hmem
  · rcases List.mem_cons.mp hmem with rfl | hmem
    · cases hc
    · exact notMem_of_literal h hc hmem

theorem clean_append (front : List Char) (h : IsPlainPath path) :
    clean (front ++ path) =
      front.filter (fun c => c ≠ '\t' ∧ c ≠ '\n' ∧ c ≠ '\r') ++ path := by
  have hends : (front ++ path).reverse.dropWhile (fun c => decide (c.toNat ≤ 0x20)) =
      (front ++ path).reverse := by
    have hlast := h.last
    rw [← List.head?_reverse] at hlast
    rw [List.reverse_append]
    cases hreverse : path.reverse with
    | nil => simp [hreverse] at hlast
    | cons c rest =>
      rw [hreverse] at hlast
      have hc : 0x20 < c.toNat := of_decide_eq_true hlast
      exact List.dropWhile_cons_of_neg (by simpa using hc)
  have hpath : path.filter (fun c => c ≠ '\t' ∧ c ≠ '\n' ∧ c ≠ '\r') = path := by
    refine List.filter_eq_self.mpr fun c hc => ?_
    have hkept : c ≠ '\t' ∧ c ≠ '\n' ∧ c ≠ '\r' := by
      refine ⟨?_, ?_, ?_⟩ <;> rintro rfl <;> exact notMem_of_literal h.literal rfl hc
    exact decide_eq_true hkept
  rw [clean, hends, List.reverse_reverse, List.filter_append, hpath]

/-- The path in a target, behind what the segments before it come to. -/
theorem joinSegments_resolveDots (h : IsPlainPath path) (before : List (List Char)) :
    joinSegments (resolveDots before (segments (encodeWith isEscapedInPath path))) =
      joinSegments before.reverse ++ '/' :: encodeWith isEscapedInPath path := by
  have hsegments : segments (encodeWith isEscapedInPath path) =
      (segments path).map (encodeWith isEscapedInPath) :=
    segments_encodeWith (by rintro c (rfl | rfl) <;> rfl) path
  have hnames : ∀ s ∈ segments (encodeWith isEscapedInPath path),
      isHere s = false ∧ isParent s = false := by
    rw [hsegments]
    intro s hs
    obtain ⟨t, ht, rfl⟩ := List.mem_map.mp hs
    have hpercent : '%' ∉ t :=
      fun hc => notMem_of_literal h.literal rfl (mem_of_mem_segments ht hc)
    exact isDot_encodeWith rfl hpercent (List.all_eq_true.mp h.names t ht)
  have hslash : '\\' ∉ encodeWith isEscapedInPath path :=
    backslash_notMem_encodeWith (notMem_of_literal h.literal rfl)
  rw [resolveDots_names hnames, joinSegments_append, joinSegments_segments hslash]

theorem path?_append (front : List Char) :
    ∃ shown : Option (List Char), ∀ path, IsPlainPath path →
      path? (front ++ '/' :: path) = shown.map (· ++ encodeWith isEscapedInPath path) := by
  cases front with
  | nil =>
    refine ⟨some ['/'], fun path h => ?_⟩
    exact congrArg some (joinSegments_resolveDots h [])
  | cons c rest =>
    by_cases hc : c = '/' ∨ c = '\\'
    · let before := (segments (encodeWith isEscapedInPath rest)).foldl settle []
      refine ⟨some (joinSegments before.reverse ++ ['/']), fun path h => ?_⟩
      have hencode : encodeWith isEscapedInPath (rest ++ '/' :: path) =
          encodeWith isEscapedInPath rest ++ '/' :: encodeWith isEscapedInPath path :=
        encodeWith_append rest ('/' :: path)
      rw [List.cons_append, path?, if_pos hc, hencode, segments_append_slash,
        resolveDots_append (segments_ne_nil _), joinSegments_resolveDots h]
      simp [before]
    · refine ⟨none, fun path _ => ?_⟩
      rw [List.cons_append, path?, if_neg hc]
      rfl

private theorem takeWhile_ne {c : Char} {front : List Char} (h : c ∉ front) (rest : List Char) :
    (front ++ c :: rest).takeWhile (· ≠ c) = front := by
  rw [List.takeWhile_append_of_pos]
  · simp
  · intro d hd
    simpa using fun heq : d = c => h (heq ▸ hd)

private theorem dropWhile_ne {c : Char} {front : List Char} (h : c ∉ front) (rest : List Char) :
    (front ++ c :: rest).dropWhile (· ≠ c) = c :: rest := by
  rw [List.dropWhile_append_of_pos]
  · simp
  · intro d hd
    simpa using fun heq : d = c => h (heq ▸ hd)

private theorem takeWhile_ne_self {c : Char} {cs : List Char} (h : c ∉ cs) :
    cs.takeWhile (· ≠ c) = cs :=
  List.takeWhile_eq_self_iff.mpr fun d hd => by simpa using fun heq : d = c => h (heq ▸ hd)

private theorem dropWhile_ne_self {c : Char} {cs : List Char} (h : c ∉ cs) :
    cs.dropWhile (· ≠ c) = [] :=
  List.dropWhile_eq_nil_iff.mpr fun d hd => by simpa using fun heq : d = c => h (heq ▸ hd)

/-- Either no URL with some beginning has a target, or a plain path is the last part of the target
that it leads to, escaped in a way that depends on the beginning alone. -/
theorem ofTail?_append {front : List Char} (hfront : '#' ∉ front) :
    ∃ (shown : Option (List Char)) (isEscaped : Char → Bool), ∀ path, IsPlainPath path →
      ofTail? (String.ofList (front ++ '/' :: path)) =
        shown.map fun cs => String.ofList (cs ++ encodeWith isEscaped path) := by
  let kept := front.filter (fun c => c ≠ '\t' ∧ c ≠ '\n' ∧ c ≠ '\r')
  have hkept : '#' ∉ kept := fun hc => hfront (List.mem_filter.mp hc).1
  have hshown : ∀ path, IsPlainPath path →
      (clean (front ++ '/' :: path)).takeWhile (· ≠ '#') = kept ++ '/' :: path := by
    intro path h
    have hclean : clean (front ++ '/' :: path) = kept ++ '/' :: path := by
      rw [List.append_cons, clean_append _ h, List.filter_append, List.append_cons kept]
      rfl
    rw [hclean, takeWhile_ne_self (notMem_append h.literal rfl hkept)]
  by_cases hquery : '?' ∈ kept
  · -- the beginning has a query, and all that follows is part of it
    obtain ⟨u, v, huv, hu⟩ := List.eq_append_cons_of_mem hquery
    refine ⟨(path? u).map (· ++ '?' :: encodeWith isEscapedInQuery (v ++ ['/'])),
      isEscapedInQuery, fun path h => ?_⟩
    have hsplit : kept ++ '/' :: path = u ++ '?' :: (v ++ '/' :: path) := by simp [huv]
    have hencode : encodeWith isEscapedInQuery (v ++ '/' :: path) =
        encodeWith isEscapedInQuery (v ++ ['/']) ++ encodeWith isEscapedInQuery path := by
      rw [← encodeWith_append, List.append_assoc, List.singleton_append]
    simp only [ofTail?, String.toList_ofList, hshown path h, hsplit, takeWhile_ne hu,
      dropWhile_ne hu, hencode, Option.map_map]
    congr 1
    funext cs
    simp [String.append_assoc]
  · obtain ⟨shown, hpath⟩ := path?_append kept
    refine ⟨shown, isEscapedInPath, fun path h => ?_⟩
    have hnone := notMem_append h.literal rfl hquery
    simp only [ofTail?, String.toList_ofList, hshown path h, takeWhile_ne_self hnone,
      dropWhile_ne_self hnone, List.append_nil, hpath path h, Option.map_map]
    rfl

private theorem clean_slash (rest : List Char) : ∃ more, clean ('/' :: rest) = '/' :: more := by
  have hends : ('/' :: rest).reverse.dropWhile (fun c => decide (c.toNat ≤ 0x20)) =
      rest.reverse.dropWhile (fun c => decide (c.toNat ≤ 0x20)) ++ ['/'] := by
    rw [List.reverse_cons, List.dropWhile_append]
    split
    · next hempty =>
      rw [List.isEmpty_iff.mp hempty]
      rfl
    · rfl
  rw [clean, hends, List.reverse_append]
  exact ⟨_, rfl⟩

/-- A URL with a path has a target. -/
theorem ofTail?_slash (rest : List Char) :
    (ofTail? (String.ofList ('/' :: rest))).isSome = true := by
  obtain ⟨more, hclean⟩ := clean_slash rest
  simp only [ofTail?, String.toList_ofList, hclean]
  rfl

/-- A plain path stands between slashes when what stands around it is plain. -/
theorem IsPlainPath.between {first middle last : List Char} (hfirst : IsPlainPath first)
    (hliteral : middle.all isLiteral = true) (hnames : (segments middle).all isName = true)
    (hlast : IsPlainPath last) : IsPlainPath (first ++ '/' :: (middle ++ '/' :: last)) where
  literal := by
    have hslash : isLiteral '/' = true := rfl
    simp only [List.all_append, List.all_cons, hfirst.literal, hliteral, hlast.literal, hslash,
      Bool.and_self]
  names := by
    simp only [segments_append_slash, List.all_append, hfirst.names, hnames, hlast.names,
      Bool.and_self]
  last := by
    have hne : last ≠ [] := by
      rintro rfl
      cases hlast.last
    have hend : first ++ '/' :: (middle ++ '/' :: last) =
        first ++ '/' :: (middle ++ ['/']) ++ last := by simp
    rw [hend, List.getLast?_append_of_ne_nil _ hne]
    exact hlast.last

end PolicySync.Target
