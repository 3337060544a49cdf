import Mathlib.Data.List.Induction
import PolicySync.Text.Decimal

/-!
# Numbers as written

A number is whole digits, an optional fraction and an optional exponent. Reading takes exactly such
a text off the front, as long as nothing follows that could be a part of it. The digits of a natural
number are one, and its value is that number.
-/

namespace PolicySync.Text

theorem takeWhile_append_stop {p : Char → Bool} {xs rest : List Char} (hx : xs.all p = true)
    (hr : (rest.head?.all fun c => !p c) = true) : (xs ++ rest).takeWhile p = xs := by
  rw [List.takeWhile_append_of_pos (by simpa using hx)]
  cases rest with
  | nil => simp
  | cons c cs => simp at hr; simp [hr]

theorem dropWhile_append_stop {p : Char → Bool} {xs rest : List Char} (hx : xs.all p = true)
    (hr : (rest.head?.all fun c => !p c) = true) : (xs ++ rest).dropWhile p = rest := by
  rw [List.dropWhile_append_of_pos (by simpa using hx)]
  cases rest with
  | nil => simp
  | cons c cs => simp at hr; simp [hr]

namespace Decimal

/-- What holds of the ten digits holds of every digit. -/
theorem of_isDigit {P : Char → Prop} (h : ∀ n < 10, P (Char.ofNat (48 + n))) {c : Char}
    (hc : c.isDigit = true) : P c := by
  have hrange : 48 ≤ c.toNat ∧ c.toNat ≤ 57 := Char.isDigit_iff_toNat.mp hc
  have hcode : 48 + (c.toNat - 48) = c.toNat := by omega
  have hdigit := h (c.toNat - 48) (by omega)
  rwa [hcode, Char.ofNat_toNat] at hdigit

/-- At least one digit. -/
def IsDigits (cs : List Char) : Prop := cs ≠ [] ∧ cs.all Char.isDigit = true

/-- The digits before a point: no zero stands before another digit. -/
def IsWhole (cs : List Char) : Prop := cs = ['0'] ∨ IsDigits cs ∧ cs.head? ≠ some '0'

/-- What stands for a fraction; nothing when there is none. -/
inductive SpellsFraction : Option (List Char) → List Char → Prop
  | missing : SpellsFraction none []
  | digits {ds : List Char} (h : IsDigits ds) : SpellsFraction (some ds) ('.' :: ds)

/-- What stands for a power of ten. -/
inductive SpellsPower : Int → List Char → Prop
  | bare {ds : List Char} (h : IsDigits ds) : SpellsPower (digitsValue ds) ds
  | plus {ds : List Char} (h : IsDigits ds) : SpellsPower (digitsValue ds) ('+' :: ds)
  | minus {ds : List Char} (h : IsDigits ds) : SpellsPower (-(digitsValue ds : Int)) ('-' :: ds)

/-- What stands for an exponent; nothing when there is none. -/
inductive SpellsExponent : Option Int → List Char → Prop
  | missing : SpellsExponent none []
  | small {n : Int} {cs : List Char} (h : SpellsPower n cs) : SpellsExponent (some n) ('e' :: cs)
  | capital {n : Int} {cs : List Char} (h : SpellsPower n cs) : SpellsExponent (some n) ('E' :: cs)

/-- What is written for a number without sign. -/
inductive Spells : Decimal → List Char → Prop
  | mk {whole shownFraction shownExponent : List Char} {fraction : Option (List Char)}
      {exponent : Option Int} (hwhole : IsWhole whole)
      (hfraction : SpellsFraction fraction shownFraction)
      (hexponent : SpellsExponent exponent shownExponent) :
      Spells ⟨whole, fraction.getD [], fraction.isSome || exponent.isSome, exponent.getD 0⟩
        (whole ++ (shownFraction ++ shownExponent))

/-- The number that is written as its digits alone. -/
def ofNat (n : Nat) : Decimal := ⟨Nat.toDigits 10 n, [], false, 0⟩

/-- Whether a text goes on with nothing that could be part of a number. -/
def endsNumber (rest : List Char) : Bool :=
  rest.head?.all fun c => !c.isDigit && c ≠ '.' && c ≠ 'e' && c ≠ 'E'

section

variable {cs ds rest : List Char}

theorem IsDigits.eq_cons (h : IsDigits ds) : ∃ c cs, ds = c :: cs ∧ c.isDigit = true := by
  obtain ⟨hne, hall⟩ := h
  cases ds with
  | nil => exact absurd rfl hne
  | cons c cs =>
    rw [List.all_cons, Bool.and_eq_true] at hall
    exact ⟨c, cs, rfl, hall.1⟩

theorem IsWhole.isDigits (h : IsWhole ds) : IsDigits ds := by
  rcases h with rfl | h
  · exact ⟨by simp, rfl⟩
  · exact h.1

/-! ### What is written is read -/

theorem scanDigits_append (h : IsDigits ds) (hrest : (rest.head?.all fun c => !c.isDigit) = true) :
    scanDigits (ds ++ rest) = some (ds, rest) := by
  have hne : ds.isEmpty = false := by simpa using h.1
  rw [scanDigits, takeWhile_append_stop h.2 hrest, dropWhile_append_stop h.2 hrest]
  simp [hne]

theorem scanWhole_append (h : IsWhole ds) (hrest : (rest.head?.all fun c => !c.isDigit) = true) :
    scanWhole (ds ++ rest) = some (ds, rest) := by
  rcases h with rfl | ⟨hdigits, hhead⟩
  · rfl
  · have hscan := scanDigits_append hdigits hrest
    obtain ⟨c, cs, rfl, -⟩ := hdigits.eq_cons
    have hne : c ≠ '0' := by simpa using hhead
    rw [List.cons_append] at hscan ⊢
    rw [scanWhole, hscan]
    intro tail heq
    exact hne (List.cons.inj heq).1

theorem scanFraction_append {fraction : Option (List Char)} {shown : List Char}
    (h : SpellsFraction fraction shown)
    (hrest : (rest.head?.all fun c => !c.isDigit && c ≠ '.') = true) :
    scanFraction (shown ++ rest) = some (fraction, rest) := by
  cases h with
  | missing =>
    cases rest with
    | nil => rfl
    | cons c cs =>
      have hne : c ≠ '.' := by
        simp at hrest
        exact hrest.2
      simp [scanFraction, hne]
  | @digits ds hds =>
    have hstop : (rest.head?.all fun c => !c.isDigit) = true := by
      cases rest with
      | nil => rfl
      | cons c cs =>
        simp at hrest ⊢
        exact hrest.1
    rw [List.cons_append, scanFraction, scanDigits_append hds hstop]
    rfl

private theorem scanPower_append {n : Int} {shown : List Char} (h : SpellsPower n shown)
    (hrest : (rest.head?.all fun c => !c.isDigit) = true) :
    scanPower (shown ++ rest) = some (n, rest) := by
  cases h with
  | bare hds =>
    have hscan := scanDigits_append hds hrest
    obtain ⟨c, cs, rfl, hc⟩ := hds.eq_cons
    have hminus : c ≠ '-' := by
      rintro rfl
      cases hc
    have hplus : c ≠ '+' := by
      rintro rfl
      cases hc
    rw [List.cons_append] at hscan ⊢
    simp [scanPower, hminus, hplus, hscan]
  | plus hds =>
    rw [List.cons_append, scanPower, scanDigits_append hds hrest]
    rfl
  | minus hds =>
    rw [List.cons_append, scanPower, scanDigits_append hds hrest]
    rfl

theorem scanExponent_append {exponent : Option Int} {shown : List Char}
    (h : SpellsExponent exponent shown) (hrest : endsNumber rest = true) :
    scanExponent (shown ++ rest) = some (exponent, rest) := by
  have hstop : (rest.head?.all fun c => !c.isDigit) = true := by
    cases rest with
    | nil => rfl
    | cons c cs =>
      simp [endsNumber] at hrest ⊢
      exact hrest.1.1.1
  cases h with
  | missing =>
    cases rest with
    | nil => rfl
    | cons c cs =>
      simp [endsNumber] at hrest
      simp [scanExponent, hrest]
  | small hpower =>
    rw [List.cons_append, scanExponent, scanPower_append hpower hstop]
    rfl
  | capital hpower =>
    rw [List.cons_append, scanExponent, scanPower_append hpower hstop]
    rfl

private theorem head?_exponent {exponent : Option Int} {shown : List Char}
    (h : SpellsExponent exponent shown) (hrest : endsNumber rest = true) :
    ((shown ++ rest).head?.all fun c => !c.isDigit && c ≠ '.') = true := by
  cases h with
  | missing =>
    cases rest with
    | nil => rfl
    | cons c cs =>
      simp [endsNumber] at hrest ⊢
      exact hrest.1.1
  | small _ => rfl
  | capital _ => rfl

private theorem head?_fraction {fraction : Option (List Char)} {shown : List Char}
    (h : SpellsFraction fraction shown)
    (hrest : (rest.head?.all fun c => !c.isDigit && c ≠ '.') = true) :
    ((shown ++ rest).head?.all fun c => !c.isDigit) = true := by
  cases h with
  | missing =>
    cases rest with
    | nil => rfl
    | cons c cs =>
      simp at hrest ⊢
      exact hrest.1
  | digits _ => rfl

/-- A number is read as it is written, up to its end. -/
theorem scan_spells {d : Decimal} {shown : List Char} (h : Spells d shown)
    (hrest : endsNumber rest = true) : scan (shown ++ rest) = some (d, rest) := by
  obtain ⟨hwhole, hfraction, hexponent⟩ := h
  have hafter := head?_exponent hexponent hrest
  rw [List.append_assoc, List.append_assoc, scan,
    scanWhole_append hwhole (head?_fraction hfraction hafter)]
  simp only [Option.bind_eq_bind, Option.bind_some]
  rw [scanFraction_append hfraction hafter]
  simp only [Option.bind_some]
  rw [scanExponent_append hexponent hrest]
  rfl

/-! ### What is read is written -/

private theorem scanDigits_eq {ds : List Char} (h : scanDigits cs = some (ds, rest)) :
    IsDigits ds ∧ cs = ds ++ rest := by
  rw [scanDigits] at h
  split at h
  · cases h
  · next hne =>
    cases h
    exact ⟨⟨by simpa using hne, List.all_takeWhile⟩, List.takeWhile_append_dropWhile.symm⟩

private theorem scanWhole_eq {ds : List Char} (h : scanWhole cs = some (ds, rest)) :
    IsWhole ds ∧ cs = ds ++ rest := by
  unfold scanWhole at h
  split at h
  · cases h
    exact ⟨.inl rfl, rfl⟩
  · next hne =>
    obtain ⟨hdigits, rfl⟩ := scanDigits_eq h
    refine ⟨.inr ⟨hdigits, ?_⟩, rfl⟩
    obtain ⟨c, cs, rfl, -⟩ := hdigits.eq_cons
    intro hzero
    cases hzero
    exact hne _ rfl

private theorem scanFraction_eq {fraction : Option (List Char)}
    (h : scanFraction cs = some (fraction, rest)) :
    ∃ shown, SpellsFraction fraction shown ∧ cs = shown ++ rest := by
  unfold scanFraction at h
  split at h
  · obtain ⟨r, hr, heq⟩ := Option.map_eq_some_iff.mp h
    cases heq
    obtain ⟨hdigits, rfl⟩ := scanDigits_eq hr
    exact ⟨_, .digits hdigits, rfl⟩
  · cases h
    exact ⟨[], .missing, rfl⟩

private theorem scanPower_eq {n : Int} (h : scanPower cs = some (n, rest)) :
    ∃ shown, SpellsPower n shown ∧ cs = shown ++ rest := by
  unfold scanPower at h
  split at h
  all_goals
    obtain ⟨r, hr, heq⟩ := Option.map_eq_some_iff.mp h
    cases heq
    obtain ⟨hdigits, rfl⟩ := scanDigits_eq hr
  · exact ⟨_, .minus hdigits, rfl⟩
  · exact ⟨_, .plus hdigits, rfl⟩
  · exact ⟨_, .bare hdigits, rfl⟩

private theorem scanExponent_eq {exponent : Option Int}
    (h : scanExponent cs = some (exponent, rest)) :
    ∃ shown, SpellsExponent exponent shown ∧ cs = shown ++ rest := by
  unfold scanExponent at h
  split at h
  · obtain ⟨r, hr, heq⟩ := Option.map_eq_some_iff.mp h
    cases heq
    obtain ⟨shown, hshown, rfl⟩ := scanPower_eq hr
    exact ⟨_, .small hshown, rfl⟩
  · obtain ⟨r, hr, heq⟩ := Option.map_eq_some_iff.mp h
    cases heq
    obtain ⟨shown, hshown, rfl⟩ := scanPower_eq hr
    exact ⟨_, .capital hshown, rfl⟩
  · cases h
    exact ⟨[], .missing, rfl⟩

/-- What is read as a number is a number that is written. -/
theorem spells_of_scan {d : Decimal} (h : scan cs = some (d, rest)) :
    ∃ shown, Spells d shown ∧ cs = shown ++ rest := by
  obtain ⟨⟨whole, rest₁⟩, hscanWhole, h⟩ := Option.bind_eq_some_iff.mp h
  obtain ⟨⟨fraction, rest₂⟩, hscanFraction, h⟩ := Option.bind_eq_some_iff.mp h
  obtain ⟨⟨exponent, rest₃⟩, hscanExponent, h⟩ := Option.bind_eq_some_iff.mp h
  cases h
  obtain ⟨hwhole, rfl⟩ := scanWhole_eq hscanWhole
  obtain ⟨shownFraction, hfraction, rfl⟩ := scanFraction_eq hscanFraction
  obtain ⟨shownExponent, hexponent, rfl⟩ := scanExponent_eq hscanExponent
  refine ⟨_, .mk hwhole hfraction hexponent, ?_⟩
  rw [List.append_assoc, List.append_assoc]

theorem Spells.eq_cons {d : Decimal} {shown : List Char} (h : Spells d shown) :
    ∃ c cs, shown = c :: cs ∧ c.isDigit = true := by
  obtain ⟨hwhole, -, -⟩ := h
  obtain ⟨c, cs, rfl, hc⟩ := hwhole.isDigits.eq_cons
  exact ⟨c, _, rfl, hc⟩

end

/-! ### Natural numbers -/

variable {n : Nat}

theorem isDigit_toDigits (n : Nat) : (Nat.toDigits 10 n).all Char.isDigit = true := by
  rw [List.all_eq_true]
  intro c hc
  exact Nat.isDigit_of_mem_toDigits (by decide) (by decide) hc

private theorem digitChar_ne_zero : ∀ d < 10, d ≠ 0 → Nat.digitChar d ≠ '0' := by
  decide

/-- Only zero begins with a zero. -/
theorem head?_toDigits (hn : n ≠ 0) : (Nat.toDigits 10 n).head? ≠ some '0' := by
  induction n using Nat.strongRecOn with
  | ind n ih =>
    by_cases hlt : n < 10
    · rw [Nat.toDigits_of_lt_base hlt]
      simpa using digitChar_ne_zero n hlt hn
    · have hfront : (Nat.toDigits 10 (n / 10)).head? ≠ some '0' := ih _ (by omega) (by omega)
      rw [Nat.toDigits_of_base_le (by decide) (by omega), List.head?_append]
      cases hdigits : Nat.toDigits 10 (n / 10) with
      | nil => exact absurd hdigits Nat.toDigits_ne_nil
      | cons d ds =>
        rw [hdigits] at hfront
        exact hfront

theorem spells_ofNat (n : Nat) : Spells (ofNat n) (Nat.toDigits 10 n) := by
  have hwhole : IsWhole (Nat.toDigits 10 n) := by
    by_cases hn : n = 0
    · rw [hn]
      exact .inl rfl
    · exact .inr ⟨⟨Nat.toDigits_ne_nil, isDigit_toDigits n⟩, head?_toDigits hn⟩
  have hspells := Spells.mk hwhole .missing .missing
  rwa [List.append_nil, List.append_nil] at hspells

theorem mantissa_ofNat (n : Nat) : (ofNat n).mantissa = n := by
  rw [mantissa, ofNat, List.append_nil]
  exact Nat.ofDigitChars_ten_toDigits

theorem digitsValue_concat (front : List Char) (c : Char) :
    digitsValue (front ++ [c]) = 10 * digitsValue front + (c.toNat - 48) := by
  rw [digitsValue, List.foldl_append]
  rfl

theorem digitChar_of_isDigit {c : Char} (hc : c.isDigit = true) :
    c.toNat - 48 < 10 ∧ Nat.digitChar (c.toNat - 48) = c :=
  of_isDigit (P := fun c => c.toNat - 48 < 10 ∧ Nat.digitChar (c.toNat - 48) = c) (by decide) hc

/-- Digits of which no zero stands before another are the digits of their value. -/
theorem toDigits_digitsValue {ds : List Char} (h : IsWhole ds) :
    Nat.toDigits 10 (digitsValue ds) = ds := by
  -- from the last digit on, since that is the remainder of the number
  induction ds using List.reverseRecOn with
  | nil => exact absurd rfl h.isDigits.1
  | append_singleton front c ih =>
    have hall := h.isDigits.2
    rw [List.all_append, Bool.and_eq_true, List.all_cons, Bool.and_eq_true] at hall
    obtain ⟨hlt, hchar⟩ := digitChar_of_isDigit hall.2.1
    rw [digitsValue_concat]
    by_cases hfront : front = []
    · subst hfront
      rw [digitsValue, List.foldl_nil, Nat.mul_zero, Nat.zero_add, Nat.toDigits_of_lt_base hlt,
        hchar]
      rfl
    · have hhead : front.head? ≠ some '0' := by
        rcases h with hzero | ⟨-, hhead⟩
        · have hlength := congrArg List.length hzero
          rw [List.length_append, List.length_singleton, List.length_singleton] at hlength
          exact absurd (List.eq_nil_of_length_eq_zero (by omega)) hfront
        · cases front with
          | nil => exact absurd rfl hfront
          | cons d ds => exact hhead
      have hwhole := ih (.inr ⟨⟨hfront, hall.1⟩, hhead⟩)
      have hpos : digitsValue front ≠ 0 := by
        intro hzero
        rw [hzero, Nat.toDigits_zero] at hwhole
        rw [← hwhole] at hhead
        exact hhead rfl
      have hdiv : (10 * digitsValue front + (c.toNat - 48)) / 10 = digitsValue front := by omega
      have hmod : (10 * digitsValue front + (c.toNat - 48)) % 10 = c.toNat - 48 := by omega
      rw [Nat.toDigits_of_base_le (by decide) (by omega), hdiv, hmod, hwhole, hchar]

/-- A number without fraction and exponent is written in the digits of its value. -/
theorem Spells.eq_toDigits {d : Decimal} {shown : List Char} (h : Spells d shown)
    (hreal : d.isReal = false) : shown = Nat.toDigits 10 d.mantissa := by
  obtain ⟨hwhole, hfraction, hexponent⟩ := h
  cases hfraction with
  | digits _ => cases hreal
  | missing =>
    cases hexponent with
    | small _ => cases hreal
    | capital _ => cases hreal
    | missing =>
      simp only [mantissa, Option.getD_none, List.append_nil]
      exact (toDigits_digitsValue hwhole).symm

/-- The value of a number without fraction and exponent is that of its digits. -/
theorem Spells.value_eq_mantissa {d : Decimal} {shown : List Char} (h : Spells d shown)
    (hreal : d.isReal = false) : d.value = d.mantissa := by
  have hscale : d.scale = 0 := by
    obtain ⟨-, hfraction, hexponent⟩ := h
    cases hfraction with
    | digits _ => cases hreal
    | missing =>
      cases hexponent with
      | missing => rfl
      | small _ => cases hreal
      | capital _ => cases hreal
  have hmagnitude : ¬ d.magnitude < -10000 := by
    rw [magnitude, hscale]
    omega
  have hpower : power 0 = 1 := by decide
  by_cases hzero : d.mantissa = 0
  · rw [value, if_pos (.inl hzero), hzero]
    rfl
  · rw [value, if_neg (not_or.mpr ⟨hzero, hmagnitude⟩), hscale, hpower, Rat.mul_one]

end Decimal

end PolicySync.Text
