import Mathlib.Data.List.TakeWhile
import Mathlib.Data.Nat.Digits.Defs
import PolicySync.Config
import PolicySync.Proofs.Data.SortedMap
import PolicySync.Proofs.Text.Decimal

/-!
# Delays

Two settings are delays. A variable gives one when it is unset or blank, and then it is the default,
or when it holds a positive number of 64 bits. The settings are read when both variables give a
delay. But a variable that holds no text gives none, and the default is taken from it all the same.
Where a delay can be taken from both variables the settings are read; otherwise the first from which
none can be taken is named.
-/

namespace PolicySync

open PolicySync.Text

namespace Text

variable {before shown after : List Char}

theorem trimLeft_append (hbefore : before.all isBlank = true)
    (hshown : (shown.head?.all fun c => !isBlank c) = true) : trimLeft (before ++ shown) = shown :=
  dropWhile_append_stop hbefore hshown

/-- A text that neither begins nor ends with white space is left when white space around it goes. -/
theorem trim_between (hbefore : before.all isBlank = true) (hafter : after.all isBlank = true)
    (hne : shown ≠ []) (hfirst : (shown.head?.all fun c => !isBlank c) = true)
    (hlast : (shown.getLast?.all fun c => !isBlank c) = true) :
    trim (String.ofList (before ++ (shown ++ after))) = String.ofList shown := by
  have hfront : ((shown ++ after).head?.all fun c => !isBlank c) = true := by
    cases shown with
    | nil => exact absurd rfl hne
    | cons c cs => exact hfirst
  have hback : after.reverse.all isBlank = true := by rwa [List.all_reverse]
  rw [trim, String.toList_ofList, trimLeft_append hbefore hfront, List.reverse_append,
    trimLeft_append hback (by rwa [List.head?_reverse]), List.reverse_reverse]

theorem exists_trim (s : String) :
    ∃ before after, before.all isBlank = true ∧ after.all isBlank = true ∧
      s.toList = before ++ ((trim s).toList ++ after) := by
  have hleft (cs : List Char) :
      ∃ front, front.all isBlank = true ∧ cs = front ++ trimLeft cs :=
    ⟨cs.takeWhile isBlank, List.all_takeWhile, List.takeWhile_append_dropWhile.symm⟩
  obtain ⟨before, hbefore, heq⟩ := hleft s.toList
  obtain ⟨after, hafter, hrest⟩ := hleft (trimLeft s.toList).reverse
  refine ⟨before, after.reverse, hbefore, by rwa [List.all_reverse], ?_⟩
  have hback := congrArg List.reverse hrest
  rw [List.reverse_reverse, List.reverse_append] at hback
  rw [trim, String.toList_ofList, ← hback]
  exact heq

theorem trim_eq_empty {s : String} : trim s = "" ↔ s.toList.all isBlank = true := by
  constructor
  · intro h
    obtain ⟨before, after, hbefore, hafter, heq⟩ := exists_trim s
    rw [heq, h]
    simp [hbefore, hafter]
  · intro h
    have hempty : trimLeft s.toList = [] := by
      rw [trimLeft, List.dropWhile_eq_nil_iff]
      exact List.all_eq_true.mp h
    rw [trim, hempty]
    rfl

end Text

namespace Config

/-- The number that digits show, the last of them being its ones. -/
def shownNumber (digits : List Char) : Nat :=
  Nat.ofDigits 10 (digits.reverse.map fun c => c.toNat - '0'.toNat)

/-- What a delay may be written as: at least one digit, after a plus sign or not, with any white
space around. The number is positive and fits 64 bits. -/
inductive SpellsDelay : String → Nat → Prop
  | mk {before sign digits after : List Char} (hbefore : before.all isBlank = true)
      (hsign : sign = [] ∨ sign = ['+']) (hdigits : Decimal.IsDigits digits)
      (hafter : after.all isBlank = true) (hpositive : 0 < shownNumber digits)
      (hfits : shownNumber digits < 2 ^ 64) :
      SpellsDelay (String.ofList (before ++ ((sign ++ digits) ++ after))) (shownNumber digits)

/-- The delay that a variable gives: the default when it is unset or blank, else the one that its
text spells. -/
inductive GivesDelay (env : Environment) (name : String) (fallback : Nat) : Nat → Prop
  | unset (h : env.get? name = none) : GivesDelay env name fallback fallback
  | blank {value : String} (h : env.get? name = some value.toUTF8)
      (hblank : value.toList.all isBlank = true) : GivesDelay env name fallback fallback
  | spelled {value : String} {n : Nat} (h : env.get? name = some value.toUTF8)
      (hspells : SpellsDelay value n) : GivesDelay env name fallback n

/-- A variable is set to bytes that are not the encoding of a text. -/
def HoldsNoText (env : Environment) (name : String) : Prop :=
  ∃ bytes, env.get? name = some bytes ∧ ¬ bytes.IsValidUTF8

/-- The delay that is taken from a variable: the one that it gives, and the default when it holds no
text. -/
def TakesDelay (env : Environment) (name : String) (fallback n : Nat) : Prop :=
  GivesDelay env name fallback n ∨ HoldsNoText env name ∧ n = fallback

/-! ## Reading a number -/

theorem foldl_digits (digits : List Char) :
    digits.foldl (fun n c => 10 * n + (c.toNat - 48)) 0 = shownNumber digits := by
  rw [shownNumber, Nat.ofDigits_eq_foldr, List.foldr_map, List.foldr_reverse]
  congr 1
  funext n c
  exact Nat.add_comm _ _

private theorem isBlank_of_isDigit {c : Char} (hc : c.isDigit = true) : isBlank c = false :=
  Decimal.of_isDigit (P := fun c => isBlank c = false) (by decide) hc

private theorem ne_plus_of_isDigit {c : Char} (hc : c.isDigit = true) : c ≠ '+' := by
  rintro rfl
  cases hc

theorem unsignedDigits_append {sign digits : List Char} (hsign : sign = [] ∨ sign = ['+'])
    (hdigits : Decimal.IsDigits digits) : unsignedDigits (sign ++ digits) = digits := by
  rcases hsign with rfl | rfl
  · obtain ⟨c, cs, rfl, hc⟩ := hdigits.eq_cons
    have hne := ne_plus_of_isDigit hc
    rw [List.nil_append, unsignedDigits]
    intro rest heq
    exact hne (List.cons.inj heq).1
  · rfl

theorem exists_sign (cs : List Char) :
    ∃ sign, (sign = [] ∨ sign = ['+']) ∧ cs = sign ++ unsignedDigits cs := by
  unfold unsignedDigits
  split
  · exact ⟨['+'], .inr rfl, rfl⟩
  · exact ⟨[], .inl rfl, rfl⟩

theorem trim_spelled {before sign digits after : List Char} (hbefore : before.all isBlank = true)
    (hsign : sign = [] ∨ sign = ['+']) (hdigits : Decimal.IsDigits digits)
    (hafter : after.all isBlank = true) :
    trim (String.ofList (before ++ ((sign ++ digits) ++ after))) =
      String.ofList (sign ++ digits) := by
  obtain ⟨c, cs, hcons, hc⟩ := hdigits.eq_cons
  have hplus : isBlank '+' = false := by decide
  apply trim_between hbefore hafter
  · simp [hcons]
  · rcases hsign with rfl | rfl
    · simp [hcons, isBlank_of_isDigit hc]
    · simp [hplus]
  · have hlast : isBlank (digits.getLast hdigits.1) = false :=
      isBlank_of_isDigit (List.all_eq_true.mp hdigits.2 _ (List.getLast_mem hdigits.1))
    simp [List.getLast?_append, List.getLast?_eq_some_getLast hdigits.1, hlast]

/-- A number is read exactly from what spells it. -/
theorem positive?_eq_some {text : String} {n : Nat} :
    positive? text = some n ↔ SpellsDelay text n := by
  constructor
  · intro h
    obtain ⟨before, after, hbefore, hafter, htext⟩ := exists_trim text
    obtain ⟨sign, hsign, hshown⟩ := exists_sign (trim text).toList
    unfold positive? at h
    generalize unsignedDigits (trim text).toList = digits at h hshown
    simp only [foldl_digits, Nat.pow_eq] at h
    split at h
    · cases h
    next hdigits =>
      split at h
      next hrange =>
        cases h
        have hspelled : Decimal.IsDigits digits := by
          simp only [Bool.or_eq_true, not_or, Bool.not_eq_true, Bool.not_eq_false'] at hdigits
          exact ⟨by simpa using hdigits.1, hdigits.2⟩
        have hlist : text = String.ofList (before ++ ((sign ++ digits) ++ after)) := by
          rw [← String.toList_inj, String.toList_ofList, htext, hshown]
        rw [hlist]
        exact .mk hbefore hsign hspelled hafter hrange.1 hrange.2
      · cases h
  · rintro ⟨hbefore, hsign, hdigits, hafter, hpositive, hfits⟩
    have hsome := hdigits.1
    unfold positive?
    rw [trim_spelled hbefore hsign hdigits hafter, String.toList_ofList,
      unsignedDigits_append hsign hdigits]
    simp only [foldl_digits, List.isEmpty_eq_false_iff.mpr hsome, hdigits.2, Bool.not_true,
      Bool.or_self, Bool.false_eq_true, if_false]
    rw [if_pos ⟨hpositive, hfits⟩]

example : positive? "\t+007 " = some 7 ∧ positive? "18446744073709551616" = none := by
  decide +kernel

/-! ## Reading the settings -/

theorem SpellsDelay.range {text : String} {n : Nat} (h : SpellsDelay text n) :
    0 < n ∧ n < 2 ^ 64 := by
  obtain ⟨-, -, -, -, hpositive, hfits⟩ := h
  exact ⟨hpositive, hfits⟩

section

variable {env : Environment} {name value : String} {fallback n : Nat}

theorem textOf?_eq_some : textOf? env name = some value ↔ env.get? name = some value.toUTF8 := by
  constructor
  · intro h
    obtain ⟨bytes, hget, htext⟩ := Option.bind_eq_some_iff.mp h
    unfold String.fromUTF8? at htext
    split at htext
    · cases htext
      exact hget
    · cases htext
  · intro h
    rw [textOf?, h]
    exact dif_pos value.isValidUTF8

theorem textOf?_eq_none :
    textOf? env name = none ↔ env.get? name = none ∨ HoldsNoText env name := by
  constructor
  · intro h
    cases hget : env.get? name with
    | none => exact .inl rfl
    | some bytes =>
      refine .inr ⟨bytes, hget, fun hvalid => ?_⟩
      have htext : textOf? env name = some (String.ofByteArray bytes hvalid) :=
        textOf?_eq_some.mpr hget
      rw [htext] at h
      cases h
  · rintro (hget | ⟨bytes, hget, hvalid⟩)
    · rw [textOf?, hget]
      rfl
    · rw [textOf?, hget]
      exact dif_neg hvalid

theorem seconds_none (h : textOf? env name = none) : seconds env name fallback = .ok fallback := by
  simp [seconds, nonBlank, h]

theorem seconds_blank (h : textOf? env name = some value)
    (hblank : value.toList.all isBlank = true) : seconds env name fallback = .ok fallback := by
  have hnone : nonBlank env name = none := by
    simp [nonBlank, h, Option.filter_some, trim_eq_empty.mpr hblank]
  rw [seconds, hnone]

theorem seconds_shown (h : textOf? env name = some value)
    (hshown : ¬ value.toList.all isBlank = true) :
    seconds env name fallback = (positive? value).elim (.error ⟨name, value⟩) .ok := by
  have htrim : trim value ≠ "" := fun hempty => hshown (trim_eq_empty.mp hempty)
  have hsome : nonBlank env name = some value := by
    simp [nonBlank, h, Option.filter_some, htrim]
  cases hread : positive? value <;> simp [seconds, hsome, hread]

theorem SpellsDelay.not_blank (h : SpellsDelay value n) : ¬ value.toList.all isBlank = true := by
  intro hblank
  obtain ⟨hbefore, hsign, hdigits, hafter, -, -⟩ := h
  have htrim := trim_eq_empty.mpr hblank
  rw [trim_spelled hbefore hsign hdigits hafter] at htrim
  have hempty := congrArg String.toList htrim
  simp [hdigits.1] at hempty

theorem seconds_of_takesDelay (h : TakesDelay env name fallback n) :
    seconds env name fallback = .ok n := by
  rcases h with hgives | ⟨hbytes, rfl⟩
  · cases hgives with
    | unset hget => exact seconds_none (textOf?_eq_none.mpr (.inl hget))
    | blank hget hblank => exact seconds_blank (textOf?_eq_some.mpr hget) hblank
    | spelled hget hspells =>
      rw [seconds_shown (textOf?_eq_some.mpr hget) hspells.not_blank, positive?_eq_some.mpr hspells]
      rfl
  · exact seconds_none (textOf?_eq_none.mpr (.inr hbytes))

/-- A delay is taken from a variable, or the variable is refused with the text that it holds. -/
theorem takesDelay_or_refused (env : Environment) (name : String) (fallback : Nat) :
    (∃ n, TakesDelay env name fallback n) ∨
      ∃ value : String, env.get? name = some value.toUTF8 ∧
        seconds env name fallback = .error ⟨name, value⟩ := by
  cases htext : textOf? env name with
  | none =>
    rcases textOf?_eq_none.mp htext with hget | hbytes
    · exact .inl ⟨fallback, .inl (.unset hget)⟩
    · exact .inl ⟨fallback, .inr ⟨hbytes, rfl⟩⟩
  | some value =>
    have hget := textOf?_eq_some.mp htext
    by_cases hblank : value.toList.all isBlank = true
    · exact .inl ⟨fallback, .inl (.blank hget hblank)⟩
    · cases hread : positive? value with
      | none =>
        refine .inr ⟨value, hget, ?_⟩
        rw [seconds_shown htext hblank, hread]
        rfl
      | some n => exact .inl ⟨n, .inl (.spelled hget (positive?_eq_some.mp hread))⟩

/-- What is read from a variable is the delay that is taken from it. -/
theorem seconds_eq_ok : seconds env name fallback = .ok n ↔ TakesDelay env name fallback n := by
  refine ⟨fun h => ?_, seconds_of_takesDelay⟩
  rcases takesDelay_or_refused env name fallback with ⟨m, hm⟩ | ⟨value, -, hrefused⟩
  · rw [seconds_of_takesDelay hm] at h
    cases h
    exact hm
  · rw [hrefused] at h
    cases h

/-- A variable from which no delay can be taken is named, with the text that it holds. -/
theorem seconds_eq_error {e : ConfigError} (h : seconds env name fallback = .error e) :
    e.name = name ∧ env.get? name = some e.value.toUTF8 ∧
      ¬ ∃ n, TakesDelay env name fallback n := by
  have hnone : ¬ ∃ n, TakesDelay env name fallback n := by
    rintro ⟨n, hn⟩
    rw [seconds_of_takesDelay hn] at h
    cases h
  rcases takesDelay_or_refused env name fallback with htaken | ⟨value, hget, hrefused⟩
  · exact absurd htaken hnone
  · rw [hrefused] at h
    cases h
    exact ⟨rfl, hget, hnone⟩

theorem TakesDelay.unique {m : Nat} (hn : TakesDelay env name fallback n)
    (hm : TakesDelay env name fallback m) : n = m := by
  have hread := seconds_eq_ok.mpr hn
  rw [seconds_eq_ok.mpr hm] at hread
  exact (Except.ok.inj hread).symm

theorem GivesDelay.range (h : GivesDelay env name fallback n)
    (hfallback : 0 < fallback ∧ fallback < 2 ^ 64) : 0 < n ∧ n < 2 ^ 64 := by
  cases h with
  | unset _ => exact hfallback
  | blank _ _ => exact hfallback
  | spelled _ hspells => exact hspells.range

theorem TakesDelay.range (h : TakesDelay env name fallback n)
    (hfallback : 0 < fallback ∧ fallback < 2 ^ 64) : 0 < n ∧ n < 2 ^ 64 := by
  rcases h with hgives | ⟨-, rfl⟩
  · exact hgives.range hfallback
  · exact hfallback

theorem GivesDelay.not_holdsNoText (h : GivesDelay env name fallback n) :
    ¬ HoldsNoText env name := by
  have hgiven : env.get? name = none ∨ ∃ value : String, env.get? name = some value.toUTF8 := by
    cases h with
    | unset hget => exact .inl hget
    | blank hget _ => exact .inr ⟨_, hget⟩
    | spelled hget _ => exact .inr ⟨_, hget⟩
  rintro ⟨bytes, hbytes, hvalid⟩
  rcases hgiven with hget | ⟨value, hget⟩
  · rw [hget] at hbytes
    cases hbytes
  · rw [hget] at hbytes
    cases hbytes
    exact hvalid value.isValidUTF8

/-- A variable gives a delay when one is taken from it and it does not hold other bytes than those
of a text. -/
theorem exists_givesDelay : (∃ n, GivesDelay env name fallback n) ↔
    (∃ n, TakesDelay env name fallback n) ∧ ¬ HoldsNoText env name := by
  constructor
  · rintro ⟨n, hn⟩
    exact ⟨⟨n, .inl hn⟩, hn.not_holdsNoText⟩
  · rintro ⟨⟨n, hgives | ⟨hbytes, -⟩⟩, htext⟩
    · exact ⟨n, hgives⟩
    · exact absurd hbytes htext

end

/-- The delay until the next reconciliation after a success. -/
abbrev GivesInterval (env : Environment) : Nat → Prop :=
  GivesDelay env "RECONCILE_INTERVAL_SECS" 300

/-- The delay until the next reconciliation after a failure. -/
abbrev GivesRequeue (env : Environment) : Nat → Prop := GivesDelay env "ERROR_REQUEUE_SECS" 60

abbrev TakesInterval (env : Environment) : Nat → Prop :=
  TakesDelay env "RECONCILE_INTERVAL_SECS" 300

abbrev TakesRequeue (env : Environment) : Nat → Prop := TakesDelay env "ERROR_REQUEUE_SECS" 60

theorem ofEnvironment_eq_ok {env : Environment} {interval requeue : Nat} :
    (∃ c, ofEnvironment env = .ok c ∧ c.reconcileInterval = interval ∧ c.errorRequeue = requeue) ↔
      TakesInterval env interval ∧ TakesRequeue env requeue := by
  rw [TakesInterval, TakesRequeue, ← seconds_eq_ok, ← seconds_eq_ok]
  unfold ofEnvironment
  cases hinterval : seconds env "RECONCILE_INTERVAL_SECS" 300 with
  | error e => simp [bind, Except.bind]
  | ok r =>
    cases hrequeue : seconds env "ERROR_REQUEUE_SECS" 60 with
    | error e => simp [bind, Except.bind]
    | ok q => simp [bind, Except.bind, pure, Except.pure]

theorem ofEnvironment_eq_error {env : Environment} {e : ConfigError}
    (h : ofEnvironment env = .error e) :
    seconds env "RECONCILE_INTERVAL_SECS" 300 = .error e ∨
      (∃ n, TakesInterval env n) ∧ seconds env "ERROR_REQUEUE_SECS" 60 = .error e := by
  cases hinterval : seconds env "RECONCILE_INTERVAL_SECS" 300 with
  | error e' =>
    simp only [ofEnvironment, hinterval, bind, Except.bind] at h
    cases h
    exact .inl rfl
  | ok r =>
    cases hrequeue : seconds env "ERROR_REQUEUE_SECS" 60 with
    | error e' =>
      simp only [ofEnvironment, hinterval, hrequeue, bind, Except.bind] at h
      cases h
      exact .inr ⟨⟨r, seconds_eq_ok.mp hinterval⟩, rfl⟩
    | ok q =>
      simp only [ofEnvironment, hinterval, hrequeue, bind, Except.bind] at h
      cases h

theorem ofEnvironment_accepted (env : Environment) : (∃ c, ofEnvironment env = .ok c) ↔
    (∃ n, TakesInterval env n) ∧ ∃ n, TakesRequeue env n := by
  constructor
  · rintro ⟨c, hc⟩
    have hboth := ofEnvironment_eq_ok.mp ⟨c, hc, rfl, rfl⟩
    exact ⟨⟨_, hboth.1⟩, ⟨_, hboth.2⟩⟩
  · rintro ⟨⟨r, hr⟩, ⟨q, hq⟩⟩
    obtain ⟨c, hc, -, -⟩ := ofEnvironment_eq_ok.mpr ⟨hr, hq⟩
    exact ⟨c, hc⟩

/-- Both variables give a delay when the settings are read and both hold texts, if anything. -/
theorem ofEnvironment_given (env : Environment) :
    (∃ n, GivesInterval env n) ∧ (∃ n, GivesRequeue env n) ↔
      (∃ c, ofEnvironment env = .ok c) ∧ ¬ HoldsNoText env "RECONCILE_INTERVAL_SECS" ∧
        ¬ HoldsNoText env "ERROR_REQUEUE_SECS" := by
  rw [ofEnvironment_accepted, exists_givesDelay, exists_givesDelay]
  exact and_and_and_comm

/-- How the delays among the settings are read. -/
structure ReadsDelays (env : Environment) : Prop where
  /-- The settings are read when a delay can be taken from both variables, and only then. -/
  accepted : (∃ c, ofEnvironment env = .ok c) ↔
    (∃ n, TakesInterval env n) ∧ ∃ n, TakesRequeue env n
  /-- Both variables give a delay exactly when the settings are read and neither holds other bytes
  than those of a text. -/
  given : (∃ n, GivesInterval env n) ∧ (∃ n, GivesRequeue env n) ↔
    (∃ c, ofEnvironment env = .ok c) ∧ ¬ HoldsNoText env "RECONCILE_INTERVAL_SECS" ∧
      ¬ HoldsNoText env "ERROR_REQUEUE_SECS"
  /-- The delays are those that are taken from the variables, and no others are taken. -/
  delays : ∀ c, ofEnvironment env = .ok c → ∀ n,
    (TakesInterval env n ↔ n = c.reconcileInterval) ∧ (TakesRequeue env n ↔ n = c.errorRequeue)
  /-- No delay is zero or wraps around. -/
  range : ∀ c, ofEnvironment env = .ok c →
    (0 < c.reconcileInterval ∧ c.reconcileInterval < 2 ^ 64) ∧
      0 < c.errorRequeue ∧ c.errorRequeue < 2 ^ 64
  /-- Otherwise the first variable from which none can be taken is named, with the text that it
  holds. -/
  refused : ∀ e, ofEnvironment env = .error e →
    (e.name = "RECONCILE_INTERVAL_SECS" ∧ ¬ ∃ n, TakesInterval env n) ∨
      (e.name = "ERROR_REQUEUE_SECS" ∧ (∃ n, TakesInterval env n) ∧ ¬ ∃ n, TakesRequeue env n)
  message : ∀ e, ofEnvironment env = .error e → env.get? e.name = some e.value.toUTF8 ∧
    e.message = e.name ++ " must be a positive number of seconds, got " ++ Display.quote e.value

theorem ofEnvironment_readsDelays (env : Environment) : ReadsDelays env where
  accepted := ofEnvironment_accepted env
  given := ofEnvironment_given env
  delays c hc n := by
    obtain ⟨hr, hq⟩ := ofEnvironment_eq_ok.mp ⟨c, hc, rfl, rfl⟩
    exact ⟨⟨fun hn => hn.unique hr, fun hn => hn ▸ hr⟩, ⟨fun hn => hn.unique hq, fun hn => hn ▸ hq⟩⟩
  range c hc := by
    obtain ⟨hr, hq⟩ := ofEnvironment_eq_ok.mp ⟨c, hc, rfl, rfl⟩
    exact ⟨hr.range (by decide), hq.range (by decide)⟩
  refused e he := by
    rcases ofEnvironment_eq_error he with hfirst | ⟨htaken, hsecond⟩
    · obtain ⟨hname, -, hnone⟩ := seconds_eq_error hfirst
      exact .inl ⟨hname, hnone⟩
    · obtain ⟨hname, -, hnone⟩ := seconds_eq_error hsecond
      exact .inr ⟨hname, htaken, hnone⟩
  message e he := by
    refine ⟨?_, rfl⟩
    rcases ofEnvironment_eq_error he with hfirst | ⟨-, hsecond⟩
    · obtain ⟨hname, hget, -⟩ := seconds_eq_error hfirst
      rwa [hname]
    · obtain ⟨hname, hget, -⟩ := seconds_eq_error hsecond
      rwa [hname]

/-- One byte that is no text, and the settings are read as if the variable were unset. -/
theorem ofEnvironment_noText :
    let env : Environment := SortedMap.ofList [("RECONCILE_INTERVAL_SECS", ⟨#[0xFF]⟩)]
    (∃ c, ofEnvironment env = .ok c ∧ c.reconcileInterval = 300 ∧ c.errorRequeue = 60) ∧
      ¬ ∃ n, GivesInterval env n := by
  intro env
  have hbytes : HoldsNoText env "RECONCILE_INTERVAL_SECS" := ⟨⟨#[0xFF]⟩, rfl, by decide⟩
  have hunset : GivesRequeue env 60 := .unset rfl
  refine ⟨ofEnvironment_eq_ok.mpr ⟨.inr ⟨hbytes, rfl⟩, .inl hunset⟩, ?_⟩
  rintro ⟨n, hn⟩
  exact hn.not_holdsNoText hbytes

/-- Variables that hold texts give a delay whenever one is taken from them. -/
theorem ofEnvironment_texts (texts : SortedMap String) :
    (∃ c, ofEnvironment texts = .ok c) ↔
      (∃ n, GivesInterval texts n) ∧ ∃ n, GivesRequeue texts n := by
  have htext (name : String) : ¬ HoldsNoText texts name := by
    rintro ⟨bytes, hget, hvalid⟩
    rw [SortedMap.get?_mapValues] at hget
    obtain ⟨value, -, rfl⟩ := Option.map_eq_some_iff.mp hget
    exact hvalid value.isValidUTF8
  rw [ofEnvironment_given]
  exact (and_iff_left ⟨htext _, htext _⟩).symm

end Config

end PolicySync
