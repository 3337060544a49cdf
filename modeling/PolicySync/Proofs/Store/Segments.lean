import Mathlib.Data.List.Basic
import PolicySync.Store.Target

/-!
# Escapes and segments of a path

Escapes can be taken back as long as the text has no percent sign of its own. They make no separator
and no dot, so that a path has the segments it had before, and segments that are no dot segments stay
where they are.
-/

namespace PolicySync.Target

/-! ## Taking escapes back -/

def hexDigit (c : Char) : Nat := if c.toNat < 58 then c.toNat - 48 else c.toNat - 55

/-- The bytes that a text with escapes stands for. -/
def percentDecode : List Char → List UInt8
  | '%' :: a :: b :: rest => UInt8.ofNat (hexDigit a * 16 + hexDigit b) :: percentDecode rest
  | c :: rest => String.utf8EncodeChar c ++ percentDecode rest
  | [] => []

theorem hexDigit_hexUpper {n : Nat} (h : n < 16) : hexDigit (hexUpper n) = n := by
  revert n
  decide

theorem percentDecode_cons {c : Char} (h : c ≠ '%') (rest : List Char) :
    percentDecode (c :: rest) = String.utf8EncodeChar c ++ percentDecode rest := by
  cases rest with
  | nil => simp [percentDecode]
  | cons a rest => cases rest <;> simp [percentDecode, h]

private theorem percentDecode_byte (b : UInt8) (rest : List Char) :
    percentDecode ('%' :: hexUpper (b.toNat / 16) :: hexUpper (b.toNat % 16) :: rest) =
      b :: percentDecode rest := by
  have hbyte : b.toNat < 256 := UInt8.toNat_lt b
  rw [percentDecode, hexDigit_hexUpper (by omega), hexDigit_hexUpper (by omega), Nat.div_add_mod',
    UInt8.ofNat_toNat]

theorem percentDecode_percentEncode (c : Char) (rest : List Char) :
    percentDecode (percentEncode c ++ rest) = String.utf8EncodeChar c ++ percentDecode rest := by
  rw [percentEncode]
  induction String.utf8EncodeChar c with
  | nil => rfl
  | cons b bytes ih =>
    simp only [List.flatMap_cons, List.cons_append, List.nil_append]
    rw [percentDecode_byte, ih]

variable {isEscaped : Char → Bool}

theorem percentDecode_encodeWith {cs : List Char} (h : '%' ∉ cs) :
    percentDecode (encodeWith isEscaped cs) = cs.flatMap String.utf8EncodeChar := by
  induction cs with
  | nil => rfl
  | cons c rest ih =>
    simp only [List.mem_cons, not_or] at h
    rw [encodeWith, List.flatMap_cons, List.flatMap_cons, ← ih h.2]
    split
    · exact percentDecode_percentEncode c _
    · exact percentDecode_cons (Ne.symm h.1) _

private theorem flatMap_utf8EncodeChar_inj {cs ds : List Char}
    (h : cs.flatMap String.utf8EncodeChar = ds.flatMap String.utf8EncodeChar) : cs = ds := by
  have hbytes : cs.utf8Encode = ds.utf8Encode := congrArg List.toByteArray h
  have hcs : cs <+: ds := List.isPrefix_of_utf8Encode_append_eq_utf8Encode .empty (by simpa)
  have hds : ds <+: cs :=
    List.isPrefix_of_utf8Encode_append_eq_utf8Encode .empty (by simpa using hbytes.symm)
  exact hcs.eq_of_length_le hds.length_le

/-- Texts without a percent sign stay apart when they are escaped. -/
theorem encodeWith_inj {cs ds : List Char} (hcs : '%' ∉ cs) (hds : '%' ∉ ds)
    (h : encodeWith isEscaped cs = encodeWith isEscaped ds) : cs = ds := by
  have hdecode := congrArg percentDecode h
  rw [percentDecode_encodeWith hcs, percentDecode_encodeWith hds] at hdecode
  exact flatMap_utf8EncodeChar_inj hdecode

theorem encodeWith_append (cs ds : List Char) :
    encodeWith isEscaped (cs ++ ds) = encodeWith isEscaped cs ++ encodeWith isEscaped ds :=
  List.flatMap_append

/-! ## Segments -/

theorem segments_ne_nil (cs : List Char) : segments cs ≠ [] := by
  cases cs with
  | nil => simp [segments]
  | cons c rest =>
    rw [segments]
    split
    · simp
    · split <;> simp

private theorem segments_separator {c : Char} (h : c = '/' ∨ c = '\\') (rest : List Char) :
    segments (c :: rest) = [] :: segments rest := by
  rw [segments, if_pos h]

private theorem segments_cons {c : Char} (h : ¬(c = '/' ∨ c = '\\')) (rest : List Char) :
    segments (c :: rest) = (segments rest).modifyHead (c :: ·) := by
  rw [segments, if_neg h]
  cases hrest : segments rest with
  | nil => exact absurd hrest (segments_ne_nil rest)
  | cons s more => rfl

theorem segments_append_slash (cs ds : List Char) :
    segments (cs ++ '/' :: ds) = segments cs ++ segments ds := by
  induction cs with
  | nil => rfl
  | cons c rest ih =>
    by_cases hc : c = '/' ∨ c = '\\'
    · rw [List.cons_append, segments_separator hc, segments_separator hc, ih, List.cons_append]
    · rw [List.cons_append, segments_cons hc, segments_cons hc, ih]
      cases hrest : segments rest with
      | nil => exact absurd hrest (segments_ne_nil rest)
      | cons s more => rfl

private theorem segments_append {cs : List Char} (h : ∀ c ∈ cs, ¬(c = '/' ∨ c = '\\'))
    (ds : List Char) : segments (cs ++ ds) = (segments ds).modifyHead (cs ++ ·) := by
  induction cs with
  | nil =>
    simp only [List.nil_append]
    cases segments ds <;> rfl
  | cons c rest ih =>
    rw [List.cons_append, segments_cons (h c List.mem_cons_self),
      ih fun d hd => h d (List.mem_cons_of_mem c hd), List.modifyHead_modifyHead]
    rfl

theorem segments_of_no_separator {cs : List Char} (h : ∀ c ∈ cs, ¬(c = '/' ∨ c = '\\')) :
    segments cs = [cs] := by
  have happend := segments_append h []
  rw [List.append_nil] at happend
  rw [happend, segments, List.modifyHead_cons, List.append_nil]

private theorem hexUpper_not_separator {n : Nat} (h : n < 16) :
    ¬(hexUpper n = '/' ∨ hexUpper n = '\\') := by
  revert n
  decide

private theorem percentEncode_not_separator {c d : Char} (h : d ∈ percentEncode c) :
    ¬(d = '/' ∨ d = '\\') := by
  obtain ⟨b, -, hd⟩ := List.mem_flatMap.mp h
  have hbyte : b.toNat < 256 := UInt8.toNat_lt b
  simp only [List.mem_cons, List.not_mem_nil, or_false] at hd
  rcases hd with rfl | rfl | rfl
  · decide
  · exact hexUpper_not_separator (by omega)
  · exact hexUpper_not_separator (by omega)

theorem mem_of_mem_segments {cs s : List Char} (hs : s ∈ segments cs) {c : Char} (hc : c ∈ s) :
    c ∈ cs := by
  induction cs generalizing s with
  | nil =>
    rw [segments, List.mem_singleton] at hs
    exact hs ▸ hc
  | cons d rest ih =>
    by_cases hd : d = '/' ∨ d = '\\'
    · rw [segments_separator hd] at hs
      rcases List.mem_cons.mp hs with rfl | hs
      · cases hc
      · exact List.mem_cons_of_mem d (ih hs hc)
    · rw [segments_cons hd] at hs
      cases hrest : segments rest with
      | nil => exact absurd hrest (segments_ne_nil rest)
      | cons t more =>
        rw [hrest] at hs ih
        rcases List.mem_cons.mp hs with rfl | hs
        · rcases List.mem_cons.mp hc with rfl | hc
          · exact List.mem_cons_self
          · exact List.mem_cons_of_mem d (ih List.mem_cons_self hc)
        · exact List.mem_cons_of_mem d (ih (List.mem_cons_of_mem t hs) hc)

theorem backslash_notMem_encodeWith {cs : List Char} (h : '\\' ∉ cs) :
    '\\' ∉ encodeWith isEscaped cs := by
  intro hmem
  obtain ⟨c, hc, hd⟩ := List.mem_flatMap.mp hmem
  split at hd
  · exact percentEncode_not_separator hd (.inr rfl)
  · exact h (List.mem_singleton.mp hd ▸ hc)

/-- Separators are left alone, and none is made. -/
theorem segments_encodeWith (h : ∀ c, c = '/' ∨ c = '\\' → isEscaped c = false)
    (cs : List Char) :
    segments (encodeWith isEscaped cs) = (segments cs).map (encodeWith isEscaped) := by
  induction cs with
  | nil => rfl
  | cons c rest ih =>
    have hcons : encodeWith isEscaped (c :: rest) =
        (if isEscaped c then percentEncode c else [c]) ++ encodeWith isEscaped rest := rfl
    by_cases hc : c = '/' ∨ c = '\\'
    · rw [hcons, h c hc, segments_separator hc, List.map_cons, ← ih]
      exact segments_separator hc _
    · have hplain : ∀ d ∈ (if isEscaped c then percentEncode c else [c]),
          ¬(d = '/' ∨ d = '\\') := by
        intro d hd
        split at hd
        · exact percentEncode_not_separator hd
        · rwa [List.mem_singleton.mp hd]
      rw [hcons, segments_append hplain, ih, segments_cons hc]
      cases hrest : segments rest with
      | nil => exact absurd hrest (segments_ne_nil rest)
      | cons s more => rfl

theorem joinSegments_cons (s : List Char) (more : List (List Char)) :
    joinSegments (s :: more) = '/' :: (s ++ joinSegments more) := rfl

theorem joinSegments_append (a b : List (List Char)) :
    joinSegments (a ++ b) = joinSegments a ++ joinSegments b :=
  List.flatMap_append

theorem joinSegments_segments {cs : List Char} (h : '\\' ∉ cs) :
    joinSegments (segments cs) = '/' :: cs := by
  induction cs with
  | nil => rfl
  | cons c rest ih =>
    simp only [List.mem_cons, not_or] at h
    by_cases hc : c = '/' ∨ c = '\\'
    · rw [segments_separator hc, joinSegments_cons, ih h.2, hc.resolve_right (Ne.symm h.1)]
      rfl
    · rw [segments_cons hc]
      have hrest := ih h.2
      cases hsegments : segments rest with
      | nil => exact absurd hsegments (segments_ne_nil rest)
      | cons s more =>
        rw [hsegments, joinSegments_cons, List.cons.injEq] at hrest
        rw [List.modifyHead_cons, joinSegments_cons, List.cons_append, hrest.2]

/-! ## Dot segments -/

/-- Whether a segment is none that goes up or stays. -/
def isName (s : List Char) : Bool := s ≠ ['.'] && s ≠ ['.', '.']

private theorem unescapeDots_cons {c : Char} (h : c ≠ '%') (rest : List Char) :
    unescapeDots (c :: rest) = c :: unescapeDots rest := by
  rw [unescapeDots]
  all_goals simp [h]

private theorem hexUpper_digits {n : Nat} (h : n < 16) :
    hexUpper n ≠ '%' ∧ hexUpper n ≠ 'e' ∧ (hexUpper n = '2' → n = 2) ∧
      (hexUpper n = 'E' → n = 14) := by
  revert n
  decide

private theorem unescapeDots_byte {b : UInt8} (h : b ≠ 46) (rest : List Char) :
    unescapeDots ('%' :: hexUpper (b.toNat / 16) :: hexUpper (b.toNat % 16) :: rest) =
      '%' :: hexUpper (b.toNat / 16) :: hexUpper (b.toNat % 16) :: unescapeDots rest := by
  have hbyte : b.toNat < 256 := UInt8.toNat_lt b
  have hdot : b.toNat ≠ 46 := fun heq => h (UInt8.toNat_inj.mp heq)
  obtain ⟨hpercent, -, htwo, -⟩ := hexUpper_digits (n := b.toNat / 16) (by omega)
  obtain ⟨hpercent', he, -, hE⟩ := hexUpper_digits (n := b.toNat % 16) (by omega)
  rw [unescapeDots, unescapeDots_cons hpercent, unescapeDots_cons hpercent']
  · intro more _ heq
    exact he (List.cons.inj (List.cons.inj heq).2).1
  · intro more _ heq
    have hhigh := htwo (List.cons.inj heq).1
    have hlow := hE (List.cons.inj (List.cons.inj heq).2).1
    omega

private theorem dot_notMem_utf8EncodeChar {c : Char} (h : c ≠ '.') :
    (46 : UInt8) ∉ String.utf8EncodeChar c := by
  have hcode : c.val.toNat ≠ 46 := fun heq => h (Char.toNat_inj.mp heq)
  intro hmem
  rw [String.utf8EncodeChar.eq_1] at hmem
  -- a leading byte beyond ASCII is at least 192 and a further one at least 128
  split_ifs at hmem <;>
    simp only [List.mem_cons, List.not_mem_nil, or_false, ← UInt8.toNat_inj, UInt8.toNat_ofNat',
      UInt8.reduceToNat] at hmem <;>
    omega

private theorem unescapeDots_percentEncode {c : Char} (h : c ≠ '.') (rest : List Char) :
    unescapeDots (percentEncode c ++ rest) = percentEncode c ++ unescapeDots rest := by
  have hbytes : ∀ b ∈ String.utf8EncodeChar c, b ≠ 46 :=
    fun b hb heq => dot_notMem_utf8EncodeChar h (heq ▸ hb)
  rw [percentEncode]
  generalize String.utf8EncodeChar c = bytes at hbytes
  induction bytes with
  | nil => rfl
  | cons b bytes ih =>
    simp only [List.flatMap_cons, List.cons_append, List.nil_append]
    rw [unescapeDots_byte (hbytes b List.mem_cons_self),
      ih fun d hd => hbytes d (List.mem_cons_of_mem b hd)]

/-- Escaping makes no dot. -/
theorem unescapeDots_encodeWith (hdot : isEscaped '.' = false) {cs : List Char} (h : '%' ∉ cs) :
    unescapeDots (encodeWith isEscaped cs) = encodeWith isEscaped cs := by
  induction cs with
  | nil => rfl
  | cons c rest ih =>
    simp only [List.mem_cons, not_or] at h
    have hcons : encodeWith isEscaped (c :: rest) =
        (if isEscaped c then percentEncode c else [c]) ++ encodeWith isEscaped rest := rfl
    rw [hcons]
    split
    · next hc =>
      have hne : c ≠ '.' := fun heq => by simp [heq, hdot] at hc
      rw [unescapeDots_percentEncode hne, ih h.2]
    · rw [List.singleton_append, unescapeDots_cons (Ne.symm h.1), ih h.2]

theorem isDot_encodeWith (hdot : isEscaped '.' = false) {s : List Char} (h : '%' ∉ s)
    (hname : isName s = true) :
    isHere (encodeWith isEscaped s) = false ∧ isParent (encodeWith isEscaped s) = false := by
  have hhere : encodeWith isEscaped ['.'] = ['.'] := by simp [encodeWith, hdot]
  have hparent : encodeWith isEscaped ['.', '.'] = ['.', '.'] := by simp [encodeWith, hdot]
  simp only [isName, Bool.and_eq_true, decide_eq_true_eq] at hname
  rw [isHere, isParent, unescapeDots_encodeWith hdot h, decide_eq_false_iff_not,
    decide_eq_false_iff_not]
  constructor
  · intro heq
    rw [← hhere] at heq
    exact hname.1 (encodeWith_inj h (by decide) heq)
  · intro heq
    rw [← hparent] at heq
    exact hname.2 (encodeWith_inj h (by decide) heq)

/-- What the segments before a further one come to. -/
def settle (before : List (List Char)) (s : List Char) : List (List Char) :=
  if isParent s then before.tail else if isHere s then before else s :: before

theorem resolveDots_append {b : List (List Char)} (hb : b ≠ []) (before a : List (List Char)) :
    resolveDots before (a ++ b) = resolveDots (a.foldl settle before) b := by
  induction a generalizing before with
  | nil => rfl
  | cons s rest ih =>
    have hmore : (rest ++ b).isEmpty = false := by simp [hb]
    rw [List.cons_append, resolveDots, hmore, List.foldl_cons, settle]
    split
    · exact ih _
    · split
      · exact ih _
      · exact ih _

theorem resolveDots_names {b : List (List Char)}
    (h : ∀ s ∈ b, isHere s = false ∧ isParent s = false) (before : List (List Char)) :
    resolveDots before b = before.reverse ++ b := by
  induction b generalizing before with
  | nil => simp [resolveDots]
  | cons s rest ih =>
    obtain ⟨hhere, hparent⟩ := h s List.mem_cons_self
    rw [resolveDots, hparent, hhere, if_neg Bool.false_ne_true, if_neg Bool.false_ne_true,
      ih fun t ht => h t (List.mem_cons_of_mem s ht)]
    simp

end PolicySync.Target
