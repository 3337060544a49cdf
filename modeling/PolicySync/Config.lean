import PolicySync.Data.SortedMap
import PolicySync.Text.Blank
import PolicySync.Text.Display

/-!
# Configuration

The settings, read from environment variables. A variable holds bytes; one that holds only white
space, or bytes that are not the encoding of a text, counts as unset.
-/

namespace PolicySync

open PolicySync.Text

inductive LogFormat where
  | text
  | json
  deriving DecidableEq, Repr

def LogFormat.name : LogFormat → String
  | .text => "Text"
  | .json => "Json"

/-- The variables that are set, each with the bytes that it holds. -/
abbrev Environment := SortedMap ByteArray

/-- Variables that hold texts. -/
instance : Coe (SortedMap String) Environment where
  coe texts := texts.mapValues fun _ value => value.toUTF8

/-- A variable that should hold a positive number of seconds, and what it holds. -/
structure ConfigError where
  name : String
  value : String
  deriving DecidableEq, Repr

def ConfigError.message (e : ConfigError) : String :=
  e.name ++ " must be a positive number of seconds, got " ++ Display.quote e.value

structure Config where
  /-- Base URL of the policy service; without it policies are kept in memory. -/
  policyApiUrl : Option String
  policyApiToken : Option String
  logLevel : String
  logFormat : LogFormat
  bindAddress : String
  /-- Seconds between a success and the next reconciliation. -/
  reconcileInterval : Nat
  /-- Seconds between a failure and the next reconciliation. -/
  errorRequeue : Nat
  deriving DecidableEq, Repr

namespace Config

/-- The text that a variable holds. -/
def textOf? (env : Environment) (name : String) : Option String :=
  (env.get? name).bind String.fromUTF8?

/-- A variable that is set to more than white space. -/
def nonBlank (env : Environment) (name : String) : Option String :=
  (textOf? env name).filter fun v => trim v ≠ ""

/-- The digits of a number, after at most one plus sign. -/
def unsignedDigits (cs : List Char) : List Char :=
  match cs with
  | '+' :: rest => rest
  | _ => cs

/-- A positive number of 64 bits without sign, between white space. -/
def positive? (text : String) : Option Nat :=
  let digits := unsignedDigits (trim text).toList
  if digits.isEmpty || !digits.all Char.isDigit then none
  else
    let n := digits.foldl (fun n c => 10 * n + (c.toNat - 48)) 0
    if 0 < n ∧ n < Nat.pow 2 64 then some n else none

/-- The seconds in a variable, or a default when it is unset. -/
def seconds (env : Environment) (name : String) (fallback : Nat) : Except ConfigError Nat :=
  match nonBlank env name with
  | none => .ok fallback
  | some value =>
    match positive? value with
    | some n => .ok n
    | none => .error ⟨name, value⟩

def ofEnvironment (env : Environment) : Except ConfigError Config := do
  let reconcileInterval ← seconds env "RECONCILE_INTERVAL_SECS" 300
  let errorRequeue ← seconds env "ERROR_REQUEUE_SECS" 60
  return {
    policyApiUrl := nonBlank env "POLICY_API_URL"
    policyApiToken := nonBlank env "POLICY_API_TOKEN"
    logLevel := (nonBlank env "LOG_LEVEL").getD "info"
    logFormat := if nonBlank env "LOG_FORMAT" = some "json" then .json else .text
    bindAddress := (nonBlank env "BIND_ADDRESS").getD "0.0.0.0:8080"
    reconcileInterval
    errorRequeue }

def optionText : Option String → String
  | none => "None"
  | some s => "Some(" ++ Display.quote s ++ ")"

/-- The settings as they may be logged: the token does not show. -/
def text (c : Config) : String :=
  "Config \x7b policy_api_url: " ++ optionText c.policyApiUrl ++
    ", policy_api_token: " ++ optionText (c.policyApiToken.map fun _ => "<redacted>") ++
    ", log_level: " ++ Display.quote c.logLevel ++ ", log_format: " ++ c.logFormat.name ++
    ", bind_address: " ++ Display.quote c.bindAddress ++
    ", reconcile_interval: " ++ toString c.reconcileInterval ++ "s" ++
    ", error_requeue: " ++ toString c.errorRequeue ++ "s \x7d"

end Config

end PolicySync
