import PolicySync.Json.Printer
import PolicySync.Reconcile
import PolicySync.Time.Timestamp

/-!
# Diagnostics

The counters and the time of the last success, as they are shown to the outside.
-/

namespace PolicySync

structure Diagnostics where
  lastEvent : Time.Timestamp
  counters : Counters
  deriving DecidableEq

namespace Diagnostics

def text (d : Diagnostics) : String :=
  "\x7b\"lastEvent\":" ++ Text.Quoted.quote d.lastEvent.text ++
    ",\"policyWrites\":" ++ toString d.counters.policyWrites ++
    ",\"reconcileFailures\":" ++ toString d.counters.reconcileFailures ++ "\x7d"

end Diagnostics

end PolicySync
