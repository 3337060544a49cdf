import Mathlib.Algebra.Order.Field.Power
import Mathlib.Algebra.Order.Field.Rat
import Mathlib.Data.Nat.Cast.Order.Ring
import Mathlib.Tactic.Linarith
import Mathlib.Tactic.Positivity
import Mathlib.Tactic.Ring
import PolicySync.Proofs.Text.Decimal
import PolicySync.Text.Double

/-!
# Numbers that are read

A number is read when the double that it is read as is finite. That double comes from two roundings
and need not be the nearest one, so whether a number is read is told by its leading digits and not
by its size alone. But rounding passes no power of two, and the leading digits with their power of
ten are at most the number and more than half of it: numbers below one power of two are read, and
numbers from another one on are refused.
-/

namespace PolicySync.Text

namespace Double

/-! ## Rounding -/

section

variable {num den k m : Nat}

theorem roundDiv_le (hden : 0 < den) (h : (num : Rat) / den ≤ m) : roundDiv num den ≤ m := by
  have hle : num ≤ m * den := by
    rw [div_le_iff₀ (by exact_mod_cast hden)] at h
    exact_mod_cast h
  have hnum : den * (num / den) + num % den = num := Nat.div_add_mod num den
  simp only [roundDiv]
  split
  · next hup =>
    -- a remainder is left over, so the quotient is below the bound
    have hlt : num / den * den < m * den := by
      rw [Nat.mul_comm]
      omega
    exact Nat.lt_of_mul_lt_mul_right hlt
  · exact Nat.div_le_of_le_mul (by rwa [Nat.mul_comm])

theorem le_roundDiv (hden : 0 < den) (h : (m : Rat) ≤ num / den) : m ≤ roundDiv num den := by
  have hle : m * den ≤ num := by
    rw [le_div_iff₀ (by exact_mod_cast hden)] at h
    exact_mod_cast h
  have hquotient : m ≤ num / den := (Nat.le_div_iff_mul_le hden).mpr hle
  simp only [roundDiv]
  split
  · exact Nat.le_succ_of_le hquotient
  · exact hquotient

/-- The last binary digit stands far below the first, unless it stands at the least place. -/
theorem lastPlace_le (num den : Nat) :
    lastPlace num den ≤ max ((Nat.log2 num : Int) - Nat.log2 den - 52) (-1074) := by
  simp only [lastPlace]
  split <;> omega

/-- How often the step at its last place goes into a quotient is a quotient itself, and that is what
is rounded. -/
theorem exists_count (hnum : num ≠ 0) (hden : 0 < den) :
    ∃ count unit : Nat, 0 < unit ∧
      (num : Rat) / den = count / unit * (2 : Rat) ^ lastPlace num den ∧
      nearestOfNat num den = roundDiv count unit * (2 : Rat) ^ lastPlace num den := by
  have hpow (e : Nat) : (2 : Rat) ^ e ≠ 0 := pow_ne_zero e two_ne_zero
  rw [nearestOfNat, if_neg hnum]
  simp only [Nat.pow_eq]
  split
  · next hplace =>
    obtain ⟨e, he⟩ := Int.eq_ofNat_of_zero_le hplace
    rw [he, zpow_natCast, Int.toNat_natCast]
    refine ⟨num, den * 2 ^ e, by positivity, ?_, ?_⟩
    · push_cast
      rw [div_mul_eq_mul_div, mul_div_mul_right _ _ (hpow e)]
    · push_cast
      rfl
  · next hplace =>
    obtain ⟨e, he⟩ : ∃ e : Nat, lastPlace num den = -e := ⟨(-lastPlace num den).toNat, by omega⟩
    rw [he, zpow_neg, zpow_natCast, neg_neg, Int.toNat_natCast]
    refine ⟨num * 2 ^ e, den, hden, ?_, ?_⟩
    · push_cast
      rw [mul_div_right_comm, mul_inv_cancel_right₀ (hpow e)]
    · push_cast
      rw [div_eq_mul_inv]

/-- A quotient is rounded to a whole number of steps at its last place, and passes none. -/
theorem exists_steps (hnum : num ≠ 0) (hden : 0 < den) :
    ∃ r : Nat, nearestOfNat num den = r * (2 : Rat) ^ lastPlace num den ∧
      (∀ m : Nat, (num : Rat) / den ≤ m * (2 : Rat) ^ lastPlace num den → r ≤ m) ∧
      ∀ m : Nat, m * (2 : Rat) ^ lastPlace num den ≤ (num : Rat) / den → m ≤ r := by
  obtain ⟨count, unit, hunit, hcount, hround⟩ := exists_count hnum hden
  have hstep : (0 : Rat) < 2 ^ lastPlace num den := by positivity
  rw [hcount]
  exact ⟨roundDiv count unit, hround,
    fun m hm => roundDiv_le hunit (le_of_mul_le_mul_right hm hstep),
    fun m hm => le_roundDiv hunit (le_of_mul_le_mul_right hm hstep)⟩

/-- A power of two that is no less than a quotient is a whole number of steps. -/
theorem lastPlace_le_of_le (hnum : num ≠ 0) (h : num ≤ 2 ^ k * den) : lastPlace num den ≤ k := by
  have hlt : num < 2 ^ (k + Nat.log2 den + 1) := by
    calc num ≤ 2 ^ k * den := h
      _ < 2 ^ k * 2 ^ (Nat.log2 den + 1) :=
        Nat.mul_lt_mul_of_pos_left Nat.lt_log2_self (Nat.two_pow_pos k)
      _ = 2 ^ (k + Nat.log2 den + 1) := by rw [← Nat.pow_add, Nat.add_assoc]
  have hlog := (Nat.log2_lt hnum).mpr hlt
  have hplace := lastPlace_le num den
  omega

/-- One step is no more than the quotient. -/
theorem step_le (hnum : num ≠ 0) (hden : 0 < den) (hplace : 0 ≤ lastPlace num den) :
    (2 : Rat) ^ lastPlace num den ≤ num / den := by
  obtain ⟨e, he⟩ := Int.eq_ofNat_of_zero_le hplace
  have hlog := lastPlace_le num den
  have hle : 2 ^ e * den ≤ num := by
    calc 2 ^ e * den ≤ 2 ^ e * 2 ^ (Nat.log2 den + 1) :=
          Nat.mul_le_mul_left _ Nat.lt_log2_self.le
      _ = 2 ^ (e + Nat.log2 den + 1) := by rw [← Nat.pow_add, Nat.add_assoc]
      _ ≤ 2 ^ Nat.log2 num := Nat.pow_le_pow_right (by decide) (by omega)
      _ ≤ num := Nat.log2_self_le hnum
  rw [he, zpow_natCast, le_div_iff₀ (by exact_mod_cast hden)]
  exact_mod_cast hle

private theorem two_pow_steps {e : Int} (he : e ≤ k) :
    ((2 ^ (k - e).toNat : Nat) : Rat) * 2 ^ e = 2 ^ k := by
  have hexponent : ((k - e).toNat : Int) + e = k := by omega
  rw [Nat.cast_pow, Nat.cast_ofNat, ← zpow_natCast, ← zpow_add₀ two_ne_zero, hexponent,
    zpow_natCast]

end

section

variable {q d : Rat} {e : Int} {fuel a b k : Nat}

private theorem natAbs_div_den (hq : 0 ≤ q) : (q.num.natAbs : Rat) / q.den = q := by
  have hnum : ((q.num.natAbs : Int) : Rat) = q.num := by
    rw [Int.natAbs_of_nonneg (Rat.num_nonneg.mpr hq)]
  rw [← Int.cast_natCast, hnum, Rat.num_div_den]

private theorem nearest_eq (hq : 0 ≤ q) : nearest q = nearestOfNat q.num.natAbs q.den := by
  simp only [nearest, if_neg (not_lt.mpr hq)]

private theorem exists_steps_nearest (hq : 0 < q) :
    ∃ r : Nat, nearest q = r * (2 : Rat) ^ lastPlace q.num.natAbs q.den ∧
      (∀ m : Nat, q ≤ m * (2 : Rat) ^ lastPlace q.num.natAbs q.den → r ≤ m) ∧
      ∀ m : Nat, m * (2 : Rat) ^ lastPlace q.num.natAbs q.den ≤ q → m ≤ r := by
  have hnum : q.num.natAbs ≠ 0 := Int.natAbs_ne_zero.mpr (Rat.num_pos.mpr hq).ne'
  have hsteps := exists_steps hnum q.den_pos
  rwa [natAbs_div_den hq.le, ← nearest_eq hq.le] at hsteps

theorem nearest_zero : nearest 0 = 0 := by
  decide

theorem nearest_nonneg (hq : 0 ≤ q) : 0 ≤ nearest q := by
  rcases hq.eq_or_lt with rfl | hpos
  · exact nearest_zero.ge
  · obtain ⟨r, hr, -, -⟩ := exists_steps_nearest hpos
    rw [hr]
    positivity

/-- Rounding does not pass a power of two from below. -/
theorem nearest_le (hq : 0 ≤ q) (h : q ≤ 2 ^ k) : nearest q ≤ 2 ^ k := by
  rcases hq.eq_or_lt with rfl | hpos
  · rw [nearest_zero]
    positivity
  have hnum : q.num.natAbs ≠ 0 := Int.natAbs_ne_zero.mpr (Rat.num_pos.mpr hpos).ne'
  have hplace : lastPlace q.num.natAbs q.den ≤ k := by
    refine lastPlace_le_of_le hnum ?_
    rw [← natAbs_div_den hq, div_le_iff₀ (by exact_mod_cast q.den_pos)] at h
    exact_mod_cast h
  obtain ⟨r, hr, hle, -⟩ := exists_steps_nearest hpos
  rw [← two_pow_steps hplace] at h ⊢
  rw [hr]
  exact mul_le_mul_of_nonneg_right (by exact_mod_cast hle _ h) (by positivity)

/-- Rounding does not pass a power of two from above. -/
theorem le_nearest (h : 2 ^ k ≤ q) : 2 ^ k ≤ nearest q := by
  have hpos : 0 < q := lt_of_lt_of_le (by positivity) h
  have hnum : q.num.natAbs ≠ 0 := Int.natAbs_ne_zero.mpr (Rat.num_pos.mpr hpos).ne'
  obtain ⟨r, hr, -, hle⟩ := exists_steps_nearest hpos
  rw [hr]
  by_cases hplace : lastPlace q.num.natAbs q.den ≤ k
  · rw [← two_pow_steps hplace] at h ⊢
    exact mul_le_mul_of_nonneg_right (by exact_mod_cast hle _ h) (by positivity)
  · -- a single step is more than the power
    have hstep := step_le hnum q.den_pos (by omega)
    rw [natAbs_div_den hpos.le] at hstep
    have hone : 1 ≤ r := hle 1 (by rwa [Nat.cast_one, one_mul])
    calc (2 : Rat) ^ k = 2 ^ (k : Int) := (zpow_natCast _ _).symm
      _ ≤ 2 ^ lastPlace q.num.natAbs q.den := zpow_le_zpow_right₀ one_le_two (by omega)
      _ ≤ r * 2 ^ lastPlace q.num.natAbs q.den :=
        le_mul_of_one_le_left (by positivity) (by exact_mod_cast hone)

private theorem cast_pow (b k : Nat) : ((Nat.pow b k : Nat) : Rat) = (b : Rat) ^ k :=
  Nat.cast_pow b k

private theorem cast_le_two_pow {n : Nat} (h : n ≤ 2 ^ k) : (n : Rat) ≤ 2 ^ k := by
  exact_mod_cast h

private theorem two_pow_le_cast {n : Nat} (h : 2 ^ k ≤ n) : (2 : Rat) ^ k ≤ n := by
  exact_mod_cast h

/-- Up to a power of two that is a double the nearest double is finite. -/
theorem nearest?_eq_some (hq : 0 ≤ q) (h : q ≤ 2 ^ k) (hk : k < 1024) :
    nearest? q = some (nearest q) := by
  have hbelow : nearest q < 2 ^ 1024 :=
    lt_of_le_of_lt (nearest_le hq h) (pow_lt_pow_right₀ one_lt_two hk)
  have habove : -(2 ^ 1024) < nearest q :=
    lt_of_lt_of_le (neg_lt_zero.mpr (by positivity)) (nearest_nonneg hq)
  simp only [nearest?, cast_pow, Nat.cast_ofNat]
  exact if_pos ⟨hbelow, habove⟩

theorem nearest?_eq_none (h : 2 ^ 1024 ≤ q) : nearest? q = none := by
  simp only [nearest?, cast_pow, Nat.cast_ofNat]
  exact if_neg fun hand => not_lt.mpr (le_nearest h) hand.1

/-! ## Scaling -/

theorem scale?_zero (fuel : Nat) (e : Int) : scale? fuel 0 e = some 0 := by
  cases fuel with
  | zero => rfl
  | succ fuel => rw [scale?, if_pos rfl]

private theorem ten_pow_le {j k : Nat} (h : j ≤ k) : Nat.pow 10 j ≤ Nat.pow 10 k :=
  Nat.pow_le_pow_right (by decide) h

/-- The powers of ten up to the largest step are in the range of doubles. -/
theorem nearest?_power (hk : k ≤ stepExponent) :
    nearest? (Nat.pow 10 k : Nat) = some (nearest (Nat.pow 10 k : Nat)) := by
  rcases Nat.lt_or_eq_of_le hk with hlt | rfl
  · have hle : Nat.pow 10 k ≤ 2 ^ 1023 :=
      le_trans (ten_pow_le (Nat.le_of_lt_succ hlt)) (by decide +kernel)
    exact nearest?_eq_some (Nat.cast_nonneg _) (cast_le_two_pow hle) (by decide)
  · decide +kernel

private theorem one_le_power (k : Nat) : (1 : Rat) ≤ nearest (Nat.pow 10 k : Nat) := by
  have hone : (2 : Rat) ^ 0 ≤ (Nat.pow 10 k : Nat) := by
    rw [pow_zero]
    exact_mod_cast Nat.one_le_pow k 10 (by decide)
  simpa using le_nearest hone

/-- A power that is left is multiplied in one step. -/
private theorem scale?_up (hne : d ≠ 0) (hk : k ≤ stepExponent) :
    scale? (fuel + 1) d k = nearest? (d * nearest (Nat.pow 10 k : Nat)) := by
  rw [scale?, if_neg hne, Int.natAbs_natCast, if_pos hk, nearest?_power hk]
  simp only [Option.bind_eq_bind, Option.bind_some, if_pos (Int.natCast_nonneg k)]

/-- The last step down. -/
private theorem scale?_down (hne : d ≠ 0) (he : e < 0) (hstep : e.natAbs ≤ stepExponent) :
    scale? (fuel + 1) d e = nearest? (d / nearest (Nat.pow 10 e.natAbs : Nat)) := by
  rw [scale?, if_neg hne, if_pos hstep, nearest?_power hstep]
  simp only [Option.bind_eq_bind, Option.bind_some, if_neg (not_le.mpr he)]

/-- A step down before others. -/
private theorem scale?_further (hne : d ≠ 0) (he : e < 0) (hstep : ¬ e.natAbs ≤ stepExponent) :
    scale? (fuel + 1) d e = (nearest? (d / nearest (Nat.pow 10 stepExponent : Nat))).bind
      fun d => scale? fuel d (e + stepExponent) := by
  rw [scale?, if_neg hne, if_neg hstep, if_neg (not_le.mpr he), nearest?_power (le_refl _)]
  rfl

/-- Scaling down keeps to the bound of doubles. -/
theorem scale?_isSome_of_neg (hd : 0 ≤ d) (hle : d ≤ 2 ^ a) (ha : a < 1024) (he : e < 0) :
    (scale? fuel d e).isSome = true := by
  induction fuel generalizing d e with
  | zero => rfl
  | succ fuel ih =>
    rcases eq_or_ne d 0 with rfl | hne
    · rw [scale?_zero]
      rfl
    have hnonneg (k : Nat) : 0 ≤ d / nearest (Nat.pow 10 k : Nat) :=
      div_nonneg hd (zero_le_one.trans (one_le_power k))
    have hbound (k : Nat) : d / nearest (Nat.pow 10 k : Nat) ≤ 2 ^ a :=
      le_trans (div_le_self hd (one_le_power k)) hle
    by_cases hstep : e.natAbs ≤ stepExponent
    · rw [scale?_down hne he hstep, nearest?_eq_some (hnonneg _) (hbound _) ha]
      rfl
    · rw [scale?_further hne he hstep, nearest?_eq_some (hnonneg _) (hbound _) ha]
      have hnext : e + stepExponent < 0 := by omega
      exact ih (nearest_nonneg (hnonneg _)) (nearest_le (hnonneg _) (hbound _)) hnext

/-- A product of numbers below two powers of two is read when the product of the powers is. -/
theorem scale?_isSome_of_le (hd : 0 ≤ d) (hle : d ≤ 2 ^ a) (hk : k ≤ stepExponent)
    (hpower : Nat.pow 10 k ≤ 2 ^ b) (hab : a + b < 1024) :
    (scale? (fuel + 1) d k).isSome = true := by
  have hone := one_le_power k
  have hpower' : nearest (Nat.pow 10 k : Nat) ≤ 2 ^ b :=
    nearest_le (Nat.cast_nonneg _) (cast_le_two_pow hpower)
  have hproduct : d * nearest (Nat.pow 10 k : Nat) ≤ 2 ^ (a + b) := by
    rw [pow_add]
    exact mul_le_mul hle hpower' (by linarith) (by positivity)
  have hnonneg : 0 ≤ d * nearest (Nat.pow 10 k : Nat) := mul_nonneg hd (by linarith)
  rcases eq_or_ne d 0 with rfl | hne
  · rw [scale?_zero]
    rfl
  rw [scale?_up hne hk, nearest?_eq_some hnonneg hproduct hab]
  rfl

/-- A product of numbers above two powers of two is refused when the product of the powers is. -/
theorem scale?_eq_none (hle : 2 ^ a ≤ d) (hpower : 2 ^ b ≤ Nat.pow 10 k) (hab : 1024 ≤ a + b) :
    scale? (fuel + 1) d k = none := by
  have hne : d ≠ 0 := (lt_of_lt_of_le (by positivity) hle).ne'
  have hpower' : 2 ^ b ≤ nearest (Nat.pow 10 k : Nat) :=
    le_nearest (two_pow_le_cast hpower)
  have hproduct : (2 : Rat) ^ 1024 ≤ d * nearest (Nat.pow 10 k : Nat) := by
    calc (2 : Rat) ^ 1024 ≤ 2 ^ (a + b) := pow_le_pow_right₀ one_le_two hab
      _ = 2 ^ a * 2 ^ b := pow_add _ _ _
      _ ≤ d * nearest (Nat.pow 10 k : Nat) :=
        mul_le_mul hle hpower' (by positivity) (le_trans (by positivity) hle)
  by_cases hk : k ≤ stepExponent
  · rw [scale?_up hne hk]
    exact nearest?_eq_none hproduct
  · rw [scale?, if_neg hne, Int.natAbs_natCast, if_neg hk, if_pos (Int.natCast_nonneg k)]

end

/-! ## Digits times a power of ten -/

section

variable {n k : Nat} {e : Int}

private theorem nearest?_digits (hn : n < 2 ^ 64) : nearest? (n : Rat) = some (nearest n) :=
  nearest?_eq_some (Nat.cast_nonneg n) (cast_le_two_pow hn.le) (by decide)

private theorem ofParts?_eq (hn : n < 2 ^ 64) : ofParts? n e = scale? 8 (nearest n) e := by
  rw [ofParts?, nearest?_digits hn]
  rfl

private theorem log2_add_log2_lt (hn : n ≠ 0) {m : Nat} (h : n * Nat.pow 10 k < 2 ^ m) :
    Nat.log2 n + Nat.log2 (Nat.pow 10 k) < m := by
  have hpower : Nat.pow 10 k ≠ 0 := (Nat.pow_pos (by decide)).ne'
  refine (Nat.pow_lt_pow_iff_right (a := 2) (by decide)).mp ?_
  rw [Nat.pow_add]
  exact lt_of_le_of_lt (Nat.mul_le_mul (Nat.log2_self_le hn) (Nat.log2_self_le hpower)) h

private theorem le_log2_add_log2 {m : Nat} (h : 2 ^ m ≤ n * Nat.pow 10 k) :
    m < Nat.log2 n + Nat.log2 (Nat.pow 10 k) + 2 := by
  refine (Nat.pow_lt_pow_iff_right (a := 2) (by decide)).mp (lt_of_le_of_lt h ?_)
  have hproduct : n * Nat.pow 10 k < 2 ^ (Nat.log2 n + 1) * 2 ^ (Nat.log2 (Nat.pow 10 k) + 1) :=
    Nat.mul_lt_mul'' Nat.lt_log2_self Nat.lt_log2_self
  rwa [← Nat.pow_add, Nat.add_add_add_comm] at hproduct

private theorem le_stepExponent {m : Nat} (hm : m ≤ 1022) (h : Nat.pow 10 k < 2 ^ m) :
    k ≤ stepExponent := by
  by_contra hlarge
  have hbeyond : (2 : Nat) ^ 1022 ≤ Nat.pow 10 (stepExponent + 1) := by decide +kernel
  have hmore : Nat.pow 10 (stepExponent + 1) ≤ Nat.pow 10 k := ten_pow_le (by omega)
  have hbound : (2 : Nat) ^ m ≤ 2 ^ 1022 := pow_le_pow_right₀ one_le_two hm
  exact absurd h (not_lt.mpr (le_trans hbound (le_trans hbeyond hmore)))

/-- Digits of 64 bits times a power of ten are read when they are small enough. -/
theorem ofParts?_isSome {m : Nat} (hn : n < 2 ^ 64) (hm : m ≤ 1022)
    (h : (n : Rat) * 10 ^ e < 2 ^ m) : (ofParts? n e).isSome = true := by
  rw [ofParts?_eq hn]
  by_cases hzero : n = 0
  · rw [hzero, Nat.cast_zero, nearest_zero, scale?_zero]
    rfl
  have hnonneg : 0 ≤ nearest (n : Rat) := nearest_nonneg (Nat.cast_nonneg n)
  rcases lt_or_ge e 0 with hneg | hpos
  · have hle : nearest (n : Rat) ≤ 2 ^ 64 := nearest_le (Nat.cast_nonneg n) (cast_le_two_pow hn.le)
    exact scale?_isSome_of_neg hnonneg hle (by decide) hneg
  · obtain ⟨k, rfl⟩ := Int.eq_ofNat_of_zero_le hpos
    have hproduct : n * Nat.pow 10 k < 2 ^ m := by
      rw [zpow_natCast] at h
      exact_mod_cast h
    have hpower : Nat.pow 10 k < 2 ^ m :=
      lt_of_le_of_lt (Nat.le_mul_of_pos_left _ (Nat.pos_of_ne_zero hzero)) hproduct
    -- the powers of two above both factors multiply to less than four times their product
    have hlogs := log2_add_log2_lt hzero hproduct
    have hle : nearest (n : Rat) ≤ 2 ^ (Nat.log2 n + 1) :=
      nearest_le (Nat.cast_nonneg n) (cast_le_two_pow Nat.lt_log2_self.le)
    exact scale?_isSome_of_le hnonneg hle (le_stepExponent hm hpower) Nat.lt_log2_self.le (by omega)

/-- Digits of 64 bits times a power of ten are refused when they are large enough. -/
theorem ofParts?_eq_none {m : Nat} (hn : n < 2 ^ 64) (hm : 1025 ≤ m)
    (h : 2 ^ m ≤ (n : Rat) * 10 ^ e) : ofParts? n e = none := by
  have hpositive : (0 : Rat) < n * 10 ^ e := lt_of_lt_of_le (by positivity) h
  have hzero : n ≠ 0 := by
    rintro rfl
    rw [Nat.cast_zero, zero_mul] at hpositive
    exact lt_irrefl _ hpositive
  have hpos : 0 ≤ e := by
    by_contra hneg
    have hsmall : (n : Rat) * 10 ^ e ≤ 2 ^ 64 := by
      calc (n : Rat) * 10 ^ e ≤ n * 1 :=
            mul_le_mul_of_nonneg_left (zpow_le_one_of_nonpos₀ (by norm_num) (by omega))
              (Nat.cast_nonneg n)
        _ ≤ 2 ^ 64 := by
          rw [mul_one]
          exact cast_le_two_pow hn.le
    have hlarge : (2 : Rat) ^ 64 < 2 ^ m := pow_lt_pow_right₀ one_lt_two (by omega)
    exact absurd (le_trans h hsmall) (not_le.mpr hlarge)
  obtain ⟨k, rfl⟩ := Int.eq_ofNat_of_zero_le hpos
  have hproduct : 2 ^ m ≤ n * Nat.pow 10 k := by
    rw [zpow_natCast] at h
    exact_mod_cast h
  have hlogs := le_log2_add_log2 hproduct
  have hle : 2 ^ Nat.log2 n ≤ nearest (n : Rat) :=
    le_nearest (two_pow_le_cast (Nat.log2_self_le hzero))
  rw [ofParts?_eq hn]
  exact scale?_eq_none hle (Nat.log2_self_le (Nat.pow_pos (by decide)).ne') (by omega)

end

end Double

/-! ## Numbers as written -/

namespace Decimal

section

variable {d : Decimal} {ds front shown : List Char}

theorem digitsValue_append (front ds : List Char) :
    digitsValue (front ++ ds) = digitsValue front * 10 ^ ds.length + digitsValue ds := by
  induction ds using List.reverseRecOn with
  | nil => simp [digitsValue]
  | append_singleton ds c ih =>
    rw [← List.append_assoc, digitsValue_concat, ih, digitsValue_concat, List.length_append,
      List.length_singleton, Nat.pow_succ]
    ring

theorem digitsValue_lt (h : ds.all Char.isDigit = true) : digitsValue ds < 10 ^ ds.length := by
  induction ds using List.reverseRecOn with
  | nil => decide
  | append_singleton ds c ih =>
    rw [List.all_append, Bool.and_eq_true, List.all_cons, Bool.and_eq_true] at h
    have hfront := ih h.1
    have hdigit : c.toNat - 48 < 10 := (digitChar_of_isDigit h.2.1).1
    rw [digitsValue_concat, List.length_append, List.length_singleton, Nat.pow_succ]
    omega

/-- Digits are taken up to one that no longer fits. -/
theorem exists_leadingDigits (front ds : List Char) :
    ∃ taken rest, ds = taken ++ rest ∧
      Double.leadingDigits (digitsValue front) ds = (digitsValue (front ++ taken), rest.length) ∧
      (∀ c more, rest = c :: more → 2 ^ 64 ≤ digitsValue (front ++ taken ++ [c])) ∧
      (digitsValue front < 2 ^ 64 → digitsValue (front ++ taken) < 2 ^ 64) := by
  induction ds generalizing front with
  | nil =>
    refine ⟨[], [], rfl, ?_, nofun, ?_⟩ <;> rw [List.append_nil]
    · rfl
    · exact id
  | cons c ds ih =>
    by_cases hfits : digitsValue (front ++ [c]) < 2 ^ 64
    · obtain ⟨taken, rest, rfl, hleading, hstop, hsmall⟩ := ih (front ++ [c])
      rw [List.append_assoc, List.singleton_append] at hleading hstop hsmall
      refine ⟨c :: taken, rest, rfl, ?_, hstop, fun _ => hsmall hfits⟩
      rw [digitsValue_concat] at hfits hleading
      rw [Double.leadingDigits, ← hleading]
      exact if_pos hfits
    · refine ⟨[], c :: ds, rfl, ?_, ?_, by rw [List.append_nil]; exact id⟩
      · rw [digitsValue_concat] at hfits
        rw [Double.leadingDigits, List.append_nil, List.length_cons]
        exact if_neg hfits
      · rintro _ _ ⟨⟩
        rw [List.append_nil]
        exact not_lt.mp hfits

/-- The digits that are read, and how many of those before the point and behind it are not. -/
theorem exists_leading (d : Decimal) : ∃ taken rest taken' rest',
    d.whole = taken ++ rest ∧ d.fraction = taken' ++ rest' ∧
      d.leading = (digitsValue (taken ++ taken'), d.scale + (rest.length + rest'.length : Nat)) ∧
      (∀ c more, rest = c :: more → 2 ^ 64 ≤ digitsValue (taken ++ [c])) ∧
      (∀ c more, rest' = c :: more → 2 ^ 64 ≤ digitsValue (taken ++ taken' ++ [c])) ∧
      digitsValue (taken ++ taken') < 2 ^ 64 := by
  obtain ⟨taken, rest, hwhole, hleading, hstop, hsmall⟩ := exists_leadingDigits [] d.whole
  obtain ⟨taken', rest', hfraction, hleading', hstop', hsmall'⟩ :=
    exists_leadingDigits taken d.fraction
  refine ⟨taken, rest, taken', rest', hwhole, hfraction, ?_, hstop, hstop',
    hsmall' (hsmall (by decide))⟩
  have hzero : digitsValue [] = 0 := rfl
  rw [hzero, List.nil_append] at hleading
  simp only [leading, hleading, hleading', scale, Prod.mk.injEq, true_and]
  push_cast
  ring

theorem leading_fits (d : Decimal) : d.leading.1 < 2 ^ 64 := by
  obtain ⟨taken, rest, taken', rest', -, -, hleading, -, -, hsmall⟩ := exists_leading d
  rwa [hleading]

section

variable {taken rest taken' rest' : List Char}

/-- The digits that are taken, with zeros for those that are not, show no more than all digits. -/
private theorem taken_le (hsmall : digitsValue (taken ++ taken') < 2 ^ 64)
    (hstop : ∀ c more, rest = c :: more → 2 ^ 64 ≤ digitsValue (taken ++ [c])) :
    digitsValue (taken ++ taken') * 10 ^ (rest.length + rest'.length) ≤
      digitsValue (taken ++ rest ++ (taken' ++ rest')) := by
  cases rest with
  | nil =>
    rw [List.append_nil, ← List.append_assoc, digitsValue_append (taken ++ taken')]
    simp
  | cons c more =>
    cases taken' with
    | nil =>
      rw [List.append_nil, List.nil_append, List.append_assoc, digitsValue_append taken,
        List.length_append]
      exact Nat.le_add_right _ _
    | cons c' taken' =>
      -- the digit that did not fit is worth more than those of the fraction in its place
      have hlt := lt_of_lt_of_le hsmall (hstop c more rfl)
      have hsplit : taken ++ c :: more ++ (c' :: taken' ++ rest') =
          taken ++ [c] ++ (more ++ (c' :: taken' ++ rest')) := by simp
      have hlength : (c :: more).length + rest'.length ≤
          (more ++ (c' :: taken' ++ rest')).length := by
        simp only [List.length_append, List.length_cons]
        omega
      rw [hsplit, digitsValue_append (taken ++ [c])]
      calc digitsValue (taken ++ c' :: taken') * 10 ^ ((c :: more).length + rest'.length)
          ≤ digitsValue (taken ++ [c]) * 10 ^ (more ++ (c' :: taken' ++ rest')).length :=
            Nat.mul_le_mul hlt.le (Nat.pow_le_pow_right (by decide) hlength)
        _ ≤ _ := Nat.le_add_right _ _

private theorem one_le_of_stop {c : Char} (hc : c.isDigit = true)
    (h : 2 ^ 64 ≤ digitsValue (front ++ [c])) : 1 ≤ digitsValue front := by
  have hdigit : c.toNat - 48 < 10 := (digitChar_of_isDigit hc).1
  rw [digitsValue_concat] at h
  omega

/-- Digits that follow others are worth less than those before them. -/
private theorem append_lt_twice (hone : 1 ≤ digitsValue front) (h : ds.all Char.isDigit = true) :
    digitsValue (front ++ ds) < 2 * (digitsValue front * 10 ^ ds.length) := by
  have hlt := digitsValue_lt h
  have hle : 10 ^ ds.length ≤ digitsValue front * 10 ^ ds.length := Nat.le_mul_of_pos_left _ hone
  rw [digitsValue_append]
  omega

/-- All digits show less than twice what those that are taken show, unless all are zeros. -/
private theorem lt_twice_taken (hrest : rest.all Char.isDigit = true)
    (hfraction : (taken' ++ rest').all Char.isDigit = true)
    (hstop : ∀ c more, rest = c :: more → 2 ^ 64 ≤ digitsValue (taken ++ [c]))
    (hstop' : ∀ c more, rest' = c :: more → 2 ^ 64 ≤ digitsValue (taken ++ taken' ++ [c]))
    (hvalue : digitsValue (taken ++ rest ++ (taken' ++ rest')) ≠ 0) :
    digitsValue (taken ++ rest ++ (taken' ++ rest')) <
      2 * (digitsValue (taken ++ taken') * 10 ^ (rest.length + rest'.length)) := by
  cases rest with
  | nil =>
    rw [List.all_append, Bool.and_eq_true] at hfraction
    rw [List.append_nil, ← List.append_assoc] at hvalue ⊢
    rw [List.length_nil, Nat.zero_add]
    refine append_lt_twice ?_ hfraction.2
    cases rest' with
    | nil =>
      rw [List.append_nil] at hvalue
      exact Nat.one_le_iff_ne_zero.mpr hvalue
    | cons c more =>
      rw [List.all_cons, Bool.and_eq_true] at hfraction
      exact one_le_of_stop hfraction.2.1 (hstop' c more rfl)
  | cons c more =>
    have hone : 1 ≤ digitsValue taken := by
      rw [List.all_cons, Bool.and_eq_true] at hrest
      exact one_le_of_stop hrest.1 (hstop c more rfl)
    have hdigits : (c :: more ++ (taken' ++ rest')).all Char.isDigit = true := by
      rw [List.all_append, hrest, hfraction, Bool.and_self]
    have hlength : (c :: more ++ (taken' ++ rest')).length =
        taken'.length + ((c :: more).length + rest'.length) := by
      simp only [List.length_append]
      omega
    have hread : digitsValue taken * 10 ^ taken'.length ≤ digitsValue (taken ++ taken') := by
      rw [digitsValue_append]
      exact Nat.le_add_right _ _
    calc digitsValue (taken ++ c :: more ++ (taken' ++ rest'))
        < 2 * (digitsValue taken * 10 ^ (c :: more ++ (taken' ++ rest')).length) := by
          rw [List.append_assoc]
          exact append_lt_twice hone hdigits
      _ = 2 * (digitsValue taken * 10 ^ taken'.length *
            10 ^ ((c :: more).length + rest'.length)) := by
          rw [hlength, Nat.pow_add, Nat.mul_assoc]
      _ ≤ _ := Nat.mul_le_mul_left _ (Nat.mul_le_mul_right _ hread)

/-- What is read is no more than what is written. -/
theorem leading_le (d : Decimal) :
    (d.leading.1 : Rat) * 10 ^ d.leading.2 ≤ d.mantissa * 10 ^ d.scale := by
  obtain ⟨taken, rest, taken', rest', hwhole, hfraction, hleading, hstop, -, hsmall⟩ :=
    exists_leading d
  have hle : digitsValue (taken ++ taken') * 10 ^ (rest.length + rest'.length) ≤ d.mantissa := by
    rw [mantissa, hwhole, hfraction]
    exact taken_le hsmall hstop
  rw [hleading, zpow_add₀ (by norm_num), zpow_natCast, mul_left_comm, mul_comm (d.mantissa : Rat)]
  exact mul_le_mul_of_nonneg_left (by exact_mod_cast hle) (by positivity)

/-- What is written is less than twice what is read, zero apart. -/
theorem lt_leading (hwholeDigits : d.whole.all Char.isDigit = true)
    (hfractionDigits : d.fraction.all Char.isDigit = true) (hmantissa : d.mantissa ≠ 0) :
    (d.mantissa : Rat) * 10 ^ d.scale < 2 * (d.leading.1 * 10 ^ d.leading.2) := by
  obtain ⟨taken, rest, taken', rest', hwhole, hfraction, hleading, hstop, hstop', -⟩ :=
    exists_leading d
  have hlt : d.mantissa <
      2 * (digitsValue (taken ++ taken') * 10 ^ (rest.length + rest'.length)) := by
    rw [hwhole, List.all_append, Bool.and_eq_true] at hwholeDigits
    rw [hfraction] at hfractionDigits
    rw [mantissa, hwhole, hfraction] at hmantissa ⊢
    exact lt_twice_taken hwholeDigits.2 hfractionDigits hstop hstop' hmantissa
  rw [hleading, zpow_add₀ (by norm_num), zpow_natCast, mul_left_comm (_ : Rat) (10 ^ d.scale),
    mul_left_comm (2 : Rat), mul_comm (d.mantissa : Rat)]
  exact mul_lt_mul_of_pos_left (by exact_mod_cast hlt) (by positivity)

end

private theorem power_eq (e : Int) : power e = (10 : Rat) ^ e := by
  have hpow (k : Nat) : ((Nat.pow 10 k : Nat) : Rat) = 10 ^ k := by
    rw [Nat.pow_eq, Nat.cast_pow, Nat.cast_ofNat]
  rw [power]
  split
  · next he => rw [hpow, ← zpow_natCast, Int.toNat_of_nonneg he]
  · next he =>
    rw [hpow, one_div, ← zpow_natCast, ← zpow_neg, Int.toNat_of_nonneg (by omega), neg_neg]

private theorem value_eq (hmantissa : d.mantissa ≠ 0) (hmagnitude : ¬ d.magnitude < -10000) :
    d.value = d.mantissa * 10 ^ d.scale := by
  rw [value, if_neg (not_or.mpr ⟨hmantissa, hmagnitude⟩), power_eq]

/-- What is written is less than one when it starts behind the point. -/
private theorem lt_one_of_magnitude (h : d.magnitude < 0) :
    (d.mantissa : Rat) * 10 ^ d.scale < 1 := by
  have hlt : d.mantissa < 10 ^ (Nat.toDigits 10 d.mantissa).length :=
    (Nat.length_toDigits_le_iff (by decide) (Nat.length_toDigits_pos)).mp (Nat.le_refl _)
  calc (d.mantissa : Rat) * 10 ^ d.scale
      < 10 ^ (Nat.toDigits 10 d.mantissa).length * 10 ^ d.scale :=
        mul_lt_mul_of_pos_right (by exact_mod_cast hlt) (by positivity)
    _ = 10 ^ d.magnitude := by rw [← zpow_natCast, ← zpow_add₀ (by norm_num), magnitude]
    _ ≤ 1 := zpow_le_one_of_nonpos₀ (by norm_num) h.le

/-- A number below this bound is read. -/
theorem value?_of_lt (h : d.value < 2 ^ 1022) : d.value? = some d.value := by
  have hread : (d.leading.1 : Rat) * 10 ^ d.leading.2 < 2 ^ 1022 := by
    refine lt_of_le_of_lt (leading_le d) ?_
    by_cases hmantissa : d.mantissa = 0
    · rw [hmantissa, Nat.cast_zero, zero_mul]
      positivity
    by_cases hmagnitude : d.magnitude < -10000
    · exact lt_of_lt_of_le (lt_one_of_magnitude (by omega)) (one_le_pow₀ one_le_two)
    · rwa [value_eq hmantissa hmagnitude] at h
  obtain ⟨q, hq⟩ :=
    Option.isSome_iff_exists.mp (Double.ofParts?_isSome (leading_fits d) le_rfl hread)
  rw [value?, double?, hq]
  rfl

theorem Spells.all_isDigit (h : Spells d shown) :
    d.whole.all Char.isDigit = true ∧ d.fraction.all Char.isDigit = true := by
  obtain ⟨hwhole, hfraction, -⟩ := h
  refine ⟨hwhole.isDigits.2, ?_⟩
  cases hfraction with
  | missing => rfl
  | digits hdigits => exact hdigits.2

/-- A number from this bound on is refused. -/
theorem Spells.value?_of_le (hd : Spells d shown) (h : 2 ^ 1026 ≤ d.value) : d.value? = none := by
  have hpositive : 0 < d.value := lt_of_lt_of_le (by positivity) h
  have hparts : ¬ (d.mantissa = 0 ∨ d.magnitude < -10000) := by
    intro hzero
    rw [value, if_pos hzero] at hpositive
    exact lt_irrefl _ hpositive
  obtain ⟨hmantissa, hmagnitude⟩ := not_or.mp hparts
  rw [value_eq hmantissa hmagnitude] at h
  obtain ⟨hwhole, hfraction⟩ := hd.all_isDigit
  have htwice := lt_of_le_of_lt h (lt_leading hwhole hfraction hmantissa)
  have hread : (2 : Rat) ^ 1025 ≤ d.leading.1 * 10 ^ d.leading.2 := by
    rw [pow_succ'] at htwice
    exact (lt_of_mul_lt_mul_left htwice zero_le_two).le
  rw [value?, double?, Double.ofParts?_eq_none (leading_fits d) le_rfl hread]
  rfl

-- between the bounds the roundings decide: the larger of these numbers is read
example : (⟨"17976931348623157".toList, ['0', '8', '1'], true, 292⟩ : Decimal).value? = none ∧
    (⟨"179769313486231581".toList, [], true, 291⟩ : Decimal).value?.isSome = true := by
  decide +kernel

theorem Spells.value?_eq_mantissa {q : Rat} (h : Spells d shown) (hreal : d.isReal = false)
    (hq : d.value? = some q) : q = d.mantissa := by
  obtain ⟨_, -, rfl⟩ := Option.map_eq_some_iff.mp hq
  exact h.value_eq_mantissa hreal

/-- The digits of a natural number below the bound are read as it. -/
theorem value?_ofNat {n : Nat} (hn : n < 2 ^ 1022) : (ofNat n).value? = some (n : Rat) := by
  have hvalue : (ofNat n).value = n := by
    rw [(spells_ofNat n).value_eq_mantissa rfl, mantissa_ofNat]
  rw [← hvalue]
  refine value?_of_lt ?_
  rw [hvalue]
  exact_mod_cast hn

end

end Decimal

end PolicySync.Text
