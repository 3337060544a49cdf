import PolicySync.Policy.Grammar.Expr
import PolicySync.Proofs.Policy.Token.Spelling

/-!
# Where terms end

A term is read up to where it ends, when what follows cannot continue it.
-/

namespace PolicySync.Policy

open PolicySync.Text

def quotedToken (s : String) : Token := .text (Quoted.escape s) s

def quotedExpr (s : String) : Expr := .quoted (Quoted.escape s) s

/-- Whether a term and the expression that it begins end before some tokens. -/
def endsTerm : List Lexeme → Bool
  | [] => true
  | l :: _ =>
    match l.token with
    | .symbol s => s.operator?.isNone && s ≠ .dot && s ≠ .bracketOpen && s ≠ .parenOpen
    | .name w => w ≠ "in"
    | .number negative _ => !negative
    | _ => true

variable {k : Keywords} {rest : List Lexeme}

theorem readPath_ends (h : endsTerm rest = true) (fuel : Nat) (callable : Bool) (e : Expr) :
    readPath k (fuel + 1) callable e rest = some (e, rest) := by
  unfold readPath
  split
  · cases h
  · cases h
  · cases h
  · cases h
  · cases h
  · cases h
  · rfl

private theorem extend_ends (h : endsTerm rest = true) (fuel level : Nat) (e : Expr) :
    extend k (fuel + 1) level e rest = some (e, rest) := by
  unfold extend
  split
  · next s rest =>
    have hop : s.operator? = none := by
      simp only [endsTerm, Bool.and_eq_true] at h
      simpa using h.1.1.1
    rw [hop]
  · cases h
  · rfl

private theorem readMemberships_ends (h : endsTerm rest = true) (fuel : Nat) (key : Option Expr)
    (e : Expr) : readMemberships k (fuel + 1) key e rest = some (e, rest) := by
  have hin : expectWord "in" rest = none := by
    unfold expectWord
    split
    · next w rest =>
      have hw : w ≠ "in" := by simpa [endsTerm] using h
      rw [if_neg hw.symm]
    · rfl
  unfold readMemberships
  rw [hin]

theorem finishExpr_ends (h : endsTerm rest = true) (fuel : Nat) (e : Expr) :
    finishExpr k (fuel + 2) e rest = some (e, rest) := by
  unfold finishExpr
  rw [extend_ends h]
  change (if _ then _ else _) = _
  rw [readMemberships_ends h]
  split <;> rfl

private theorem expect_bar_ends (h : endsTerm rest = true) : expect .bar rest = none := by
  unfold expect
  split
  · next s rest =>
    have hs : Symbol.bar ≠ s := by rintro rfl; cases h
    rw [if_neg hs]
  · rfl

theorem readComprehension_ends (h : endsTerm rest = true) (fuel : Nat) (close : Symbol) :
    readComprehension k fuel close rest = none := by
  cases fuel with
  | zero => rfl
  | succ fuel =>
    unfold readComprehension
    rw [expect_bar_ends h]
    rfl

/-- Whether some tokens, before any that end a term, are read as a term. -/
def ReadsTerm (k : Keywords) (ls : List Lexeme) (e : Expr) : Prop :=
  ∀ rest fuel, endsTerm rest = true → 10 * ls.length ≤ fuel →
    readTerm k fuel (ls ++ rest) = some (e, rest)

theorem readExpr_of_reads {ls : List Lexeme} {e : Expr} {fuel : Nat}
    (h : ReadsTerm k ls e) (hrest : endsTerm rest = true) (hfuel : 10 * ls.length + 3 ≤ fuel) :
    readExpr k fuel (ls ++ rest) = some (e, rest) := by
  obtain ⟨fuel, rfl⟩ : ∃ n, fuel = n + 3 := ⟨fuel - 3, by omega⟩
  unfold readExpr
  rw [h rest (fuel + 2) hrest (by omega)]
  change finishExpr k (fuel + 2) e rest = _
  exact finishExpr_ends hrest fuel e

private theorem readTerm_closes {s : Symbol} (hs : s.closes = true) (fuel : Nat) (g : Gap)
    (before : String) : readTerm k fuel (⟨g, before, .symbol s⟩ :: rest) = none := by
  cases fuel with
  | zero => rfl
  | succ fuel => cases s <;> first | rfl | cases hs

/-- A term that ends before what is no comma is read as a whole expression, pairs included. -/
theorem readPairExpr_of_reads {ls : List Lexeme} {e : Expr} {fuel : Nat}
    (h : ReadsTerm k ls e) (hrest : endsTerm rest = true) (hcomma : expect .comma rest = none)
    (hfuel : 10 * ls.length + 4 ≤ fuel) : readPairExpr k fuel (ls ++ rest) = some (e, rest) := by
  obtain ⟨fuel, rfl⟩ : ∃ n, fuel = n + 4 := ⟨fuel - 4, by omega⟩
  have hpair : readPairValue k (fuel + 2) rest = none := by
    unfold readPairValue
    rw [hcomma]
    rfl
  unfold readPairExpr
  rw [h rest (fuel + 3) hrest (by omega)]
  change finishPairExpr k (fuel + 3) e rest = _
  unfold finishPairExpr
  rw [extend_ends hrest]
  simp only [Option.bind_eq_bind, Option.bind_some]
  rw [hpair]
  simp only
  rw [readMemberships_ends hrest]
  split <;> rfl

/-- No term begins with a symbol that closes brackets. -/
theorem expect_closes_of_reads {ls : List Lexeme} {e : Expr} {s : Symbol}
    (h : ReadsTerm k ls e) (hrest : endsTerm rest = true) (hs : s.closes = true) :
    expect s (ls ++ rest) = none := by
  have hread := h rest (10 * ls.length) hrest (Nat.le_refl _)
  unfold expect
  split
  · next t tokens heq =>
    have hne : s ≠ t := by
      rintro rfl
      rw [heq, readTerm_closes hs] at hread
      cases hread
    rw [if_neg hne]
  · rfl

theorem one_le_length_of_reads {ls : List Lexeme} {e : Expr} (h : ReadsTerm k ls e) :
    1 ≤ ls.length := by
  cases ls with
  | nil => cases h [] 0 rfl (Nat.le_refl _)
  | cons l ls => simp

def comma : Lexeme := .glued (.symbol .comma)

def colon : Lexeme := .glued (.symbol .colon)

namespace ReadsTerm

theorem quoted (g : Gap) (before raw value : String) :
    ReadsTerm k [⟨g, before, .text raw value⟩] (.quoted raw value) := by
  intro rest fuel hrest hfuel
  obtain ⟨fuel, rfl⟩ : ∃ n, fuel = n + 2 := ⟨fuel - 2, by simp at hfuel; omega⟩
  exact readPath_ends hrest fuel false _

end ReadsTerm

end PolicySync.Policy
