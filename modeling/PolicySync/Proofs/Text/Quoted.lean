import PolicySync.Text.Quoted

/-!
# Quoted text is read back

Writing a text between quotes and reading it up to the closing quote gives the same text, whatever
follows. The written form is the text itself exactly when no character of it needs an escape.
-/

namespace PolicySync.Text.Quoted

/-- Whether a character stands for itself between the quotes. -/
def isPlain (c : Char) : Bool := c ≠ '"' && c ≠ '\\' && 32 ≤ c.toNat

/-- What may stand between quotes for a text: any plain character for itself, and any escape. -/
inductive Spells : List Char → List Char → Prop
  | nil : Spells [] []
  | plain {c : Char} {s raw : List Char} (hc : isPlain c = true) (h : Spells s raw) :
      Spells (c :: s) (c :: raw)
  | escape {c e : Char} {s raw : List Char} (hc : simpleEscape? c = some e) (h : Spells s raw) :
      Spells (e :: s) ('\\' :: c :: raw)
  | unit {a b c d : Char} {n : Nat} {s raw : List Char} (hn : unit? a b c d = some n)
      (hhigh : isHighSurrogate n = false) (hlow : isLowSurrogate n = false) (h : Spells s raw) :
      Spells (Char.ofNat n :: s) ('\\' :: 'u' :: a :: b :: c :: d :: raw)
  | pair {a b c d e f g i : Char} {n m : Nat} {s raw : List Char} (hn : unit? a b c d = some n)
      (hhigh : isHighSurrogate n = true) (hm : unit? e f g i = some m)
      (hlow : isLowSurrogate m = true) (h : Spells s raw) :
      Spells (pairedChar n m :: s)
        ('\\' :: 'u' :: a :: b :: c :: d :: '\\' :: 'u' :: e :: f :: g :: i :: raw)

private theorem scan_plain {c : Char} {cs : List Char} (hc : isPlain c = true) :
    scan (c :: cs) = (scan cs).map fun r => (c :: r.1, r.2) := by
  simp only [isPlain, Bool.and_eq_true, decide_eq_true_eq] at hc
  obtain ⟨⟨hq, hb⟩, hlow⟩ := hc
  rw [scan]
  · rw [if_neg (by simp [hb]; omega)]
    cases scan cs <;> rfl
  · simp [hq]
  · simp [hb]
  · simp [hb]

private theorem scan_escape {c e : Char} {cs : List Char} (h : simpleEscape? c = some e) :
    scan ('\\' :: c :: cs) = (scan cs).map fun r => (e :: r.1, r.2) := by
  have hu : c ≠ 'u' := by
    rintro rfl
    cases h
  rw [scan, h]
  · cases scan cs <;> rfl
  · simp [hu]

private theorem scan_unit {a b c d : Char} {n : Nat} {cs : List Char}
    (h : unit? a b c d = some n) (hhigh : isHighSurrogate n = false)
    (hlow : isLowSurrogate n = false) :
    scan ('\\' :: 'u' :: a :: b :: c :: d :: cs) =
      (scan cs).map fun r => (Char.ofNat n :: r.1, r.2) := by
  rw [scan, h]
  simp only [Option.bind_eq_bind, Option.bind_some, hhigh, hlow, Bool.false_eq_true, if_false]
  cases scan cs <;> rfl

private theorem scan_pair {a b c d e f g i : Char} {n m : Nat} {cs : List Char}
    (hn : unit? a b c d = some n) (hhigh : isHighSurrogate n = true) (hm : unit? e f g i = some m)
    (hlow : isLowSurrogate m = true) :
    scan ('\\' :: 'u' :: a :: b :: c :: d :: '\\' :: 'u' :: e :: f :: g :: i :: cs) =
      (scan cs).map fun r => (pairedChar n m :: r.1, r.2) := by
  rw [scan, hn]
  simp only [Option.bind_eq_bind, Option.bind_some, hhigh, hm, hlow, if_true]
  cases scan cs <;> rfl

/-- A quoted text ends at its own closing quote, whatever escapes it is written with. -/
theorem scan_spells {s raw : List Char} (h : Spells s raw) (rest : List Char) :
    scan (raw ++ '"' :: rest) = some (s, rest) := by
  induction h with
  | nil => rfl
  | plain hc _ ih => rw [List.cons_append, scan_plain hc, ih]; rfl
  | escape hc _ ih => rw [List.cons_append, List.cons_append, scan_escape hc, ih]; rfl
  | unit hn hhigh hlow _ ih =>
    simp only [List.cons_append]
    rw [scan_unit hn hhigh hlow, ih]
    rfl
  | pair hn hhigh hm hlow _ ih =>
    simp only [List.cons_append]
    rw [scan_pair hn hhigh hm hlow, ih]
    rfl

/-- What is read up to a closing quote spells the text that is read. -/
theorem spells_of_scan {cs s rest : List Char} (h : scan cs = some (s, rest)) :
    ∃ raw, Spells s raw ∧ cs = raw ++ '"' :: rest := by
  induction cs using scan.induct generalizing s rest with
  | case1 => cases h
  | case2 tail =>
    cases h
    exact ⟨[], .nil, rfl⟩
  | case3 a b c d tail ihPair ih =>
    rw [scan] at h
    obtain ⟨n, hn, h⟩ := Option.bind_eq_some_iff.mp h
    by_cases hhigh : isHighSurrogate n = true
    · rw [if_pos hhigh] at h
      split at h
      · next e f g i tail =>
        obtain ⟨m, hm, h⟩ := Option.bind_eq_some_iff.mp h
        by_cases hlow : isLowSurrogate m = true
        · rw [if_pos hlow] at h
          obtain ⟨r, hr, h⟩ := Option.bind_eq_some_iff.mp h
          cases h
          obtain ⟨raw, hraw, rfl⟩ := ihPair hr
          exact ⟨_, .pair hn hhigh hm hlow hraw, rfl⟩
        · rw [if_neg hlow] at h
          cases h
      · cases h
    · rw [if_neg hhigh] at h
      by_cases hlow : isLowSurrogate n = true
      · rw [if_pos hlow] at h
        cases h
      · rw [if_neg hlow] at h
        obtain ⟨r, hr, h⟩ := Option.bind_eq_some_iff.mp h
        cases h
        obtain ⟨raw, hraw, rfl⟩ := ih hr
        exact ⟨_, .unit hn (Bool.eq_false_iff.mpr hhigh) (Bool.eq_false_iff.mpr hlow) hraw, rfl⟩
  | case4 c tail hunit ih =>
    rw [scan] at h
    · obtain ⟨e, he, h⟩ := Option.bind_eq_some_iff.mp h
      obtain ⟨r, hr, h⟩ := Option.bind_eq_some_iff.mp h
      cases h
      obtain ⟨raw, hraw, rfl⟩ := ih hr
      exact ⟨_, .escape he hraw, rfl⟩
    · exact hunit
  | case5 c tail hquote hunit hescape hbad =>
    rw [scan, if_pos hbad] at h
    · cases h
    · exact hquote
    · exact hunit
    · exact hescape
  | case6 c tail hquote hunit hescape hgood ih =>
    rw [scan, if_neg hgood] at h
    · obtain ⟨r, hr, h⟩ := Option.bind_eq_some_iff.mp h
      cases h
      obtain ⟨raw, hraw, rfl⟩ := ih hr
      have hplain : isPlain c = true := by
        have hne : c ≠ '"' := hquote
        rw [not_or, Nat.not_lt] at hgood
        simp [isPlain, hne, hgood.1, hgood.2]
      exact ⟨_, .plain hplain hraw, rfl⟩
    · exact hquote
    · exact hunit
    · exact hescape

private theorem unit?_control :
    ∀ n < 32, unit? '0' '0' (hexDigit (n / 16)) (hexDigit (n % 16)) = some n := by
  decide

private theorem spells_encodeChar (c : Char) {s raw : List Char} (h : Spells s raw) :
    Spells (c :: s) (encodeChar c ++ raw) := by
  unfold encodeChar
  split
  · next hc => subst hc; exact .escape rfl h
  split
  · next hc => subst hc; exact .escape rfl h
  split
  · next hc => subst hc; exact .escape rfl h
  split
  · next hc => subst hc; exact .escape rfl h
  split
  · next hc => subst hc; exact .escape rfl h
  split
  · next hc => subst hc; exact .escape rfl h
  split
  · next hc => subst hc; exact .escape rfl h
  split
  · next hc =>
    have hhigh : isHighSurrogate c.toNat = false := by simp [isHighSurrogate]; omega
    have hlow : isLowSurrogate c.toNat = false := by simp [isLowSurrogate]; omega
    have hunit := Spells.unit (unit?_control c.toNat hc) hhigh hlow h
    rwa [Char.ofNat_toNat] at hunit
  · next hq hb _ _ _ _ _ hc =>
    have hplain : isPlain c = true := by simp [isPlain, hq, hb]; omega
    exact .plain hplain h

/-- What is written between quotes for a text stands for it. -/
theorem spells_encodeChars (s : List Char) : Spells s (encodeChars s) := by
  induction s with
  | nil => exact .nil
  | cons c s ih =>
    rw [encodeChars, List.flatMap_cons]
    exact spells_encodeChar c ih

/-- A quoted text ends at its own closing quote: no content ends it early. -/
theorem scan_encodeChars (s rest : List Char) :
    scan (encodeChars s ++ '"' :: rest) = some (s, rest) :=
  scan_spells (spells_encodeChars s) rest

private theorem encodeChar_plain {c : Char} (h : isPlain c = true) : encodeChar c = [c] := by
  simp only [isPlain, Bool.and_eq_true, decide_eq_true_eq] at h
  obtain ⟨⟨hq, hb⟩, hc⟩ := h
  have hne {d : Char} (hd : d.toNat < 32) : c ≠ d := by rintro rfl; omega
  simp [encodeChar, hq, hb, Nat.not_lt.mpr hc, hne (show '\n'.toNat < 32 by decide),
    hne (show '\r'.toNat < 32 by decide), hne (show '\t'.toNat < 32 by decide),
    hne (show '\x08'.toNat < 32 by decide), hne (show '\x0c'.toNat < 32 by decide)]

private theorem encodeChar_length {c : Char} (h : isPlain c = false) :
    1 < (encodeChar c).length := by
  unfold encodeChar
  repeat (split; · simp)
  next hq hb _ _ _ _ _ hc =>
    simp only [isPlain, hq, hb, decide_not, decide_false, Bool.not_false, Bool.true_and,
      decide_eq_false_iff_not] at h
    omega

private theorem length_le_encodeChars (s : List Char) : s.length ≤ (encodeChars s).length := by
  induction s with
  | nil => simp
  | cons c s ih =>
    rw [encodeChars, List.flatMap_cons, List.length_append, List.length_cons]
    rw [encodeChars] at ih
    cases h : isPlain c with
    | true => rw [encodeChar_plain h, List.length_singleton]; omega
    | false => have hc := encodeChar_length h; omega

/-- Writing changes nothing exactly when every character stands for itself. -/
theorem encodeChars_eq_self {s : List Char} : encodeChars s = s ↔ s.all isPlain = true := by
  induction s with
  | nil => simp [encodeChars]
  | cons c s ih =>
    have hcons : encodeChars (c :: s) = encodeChar c ++ encodeChars s := rfl
    rw [hcons, List.all_cons]
    cases h : isPlain c with
    | true => rw [encodeChar_plain h, Bool.true_and, ← ih]; simp
    | false =>
      simp only [Bool.false_and, Bool.false_eq_true, iff_false]
      intro heq
      have hlen := congrArg List.length heq
      have hc := encodeChar_length h
      have hs := length_le_encodeChars s
      simp only [List.length_append, List.length_cons] at hlen
      omega

private theorem hexDigit_ne_lineFeed : ∀ n < 16, hexDigit n ≠ '\n' := by
  decide

private theorem lineFeed_notMem_encodeChar (c : Char) : '\n' ∉ encodeChar c := by
  unfold encodeChar
  repeat (split; · decide)
  split
  · next hc =>
    have hhigh := hexDigit_ne_lineFeed (c.toNat / 16) (by omega)
    have hlow := hexDigit_ne_lineFeed (c.toNat % 16) (by omega)
    simp [hhigh.symm, hlow.symm]
  · next _ _ hne _ _ _ _ _ => simpa using Ne.symm hne

/-- What stands between quotes is on one line. -/
theorem lineFeed_notMem_encodeChars (s : List Char) : '\n' ∉ encodeChars s := by
  intro h
  obtain ⟨c, -, hc⟩ := List.mem_flatMap.mp h
  exact lineFeed_notMem_encodeChar c hc

/-- A text as it is written between the quotes. -/
def escape (s : String) : String := String.ofList (encodeChars s.toList)

@[simp] theorem escape_toList (s : String) : (escape s).toList = encodeChars s.toList :=
  String.toList_ofList

theorem escape_eq_self {s : String} : escape s = s ↔ s.toList.all isPlain = true := by
  rw [← encodeChars_eq_self, ← String.toList_inj, escape_toList]

end PolicySync.Text.Quoted
