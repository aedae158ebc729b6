import SourceAudit.Monitor.Log
import SourceAudit.Pattern.Parser

/-!
# Network activity

Connections that a monitored run made, read from its log.
-/

namespace SourceAudit.Monitor

open Outside
open SourceAudit.Pattern (Pattern)

structure NetworkActivity where
  kind : String
  target : String
  timestamp : String
  line : String
  address : Value

namespace NetworkActivity

def toValue (activity : NetworkActivity) : Value :=
  .record [("type", .text activity.kind), ("target", .text activity.target),
    ("timestamp", .text activity.timestamp), ("line", .text activity.line),
    ("raw_address", activity.address)]

end NetworkActivity

def networkPattern : Pattern :=
  Pattern.ofText ("\\[([^\\]]+)\\]\\s+\\[ALERT\\]\\s+NETWORK:\\s+socket\\." ++
    "(connect|connect_ex|bind|create_connection)\\s+called\\s+with\\s+" ++
    "address=['\"]([^'\"]+)['\"]")

def pairPattern : Pattern := Pattern.ofText "\\(([^,]+),\\s*(\\d+)\\)"

def targetOf (address : String) : String × Value :=
  match pairPattern.matchStart? address.toList with
  | some pair =>
    let host := pair.group 1
    let port := pair.group 2
    (host ++ ":" ++ port, .tuple [.text host, .int ((Value.readInteger port).getD 0)])
  | none => (address, .text address)

def networkActivity? (line : String) : Option NetworkActivity :=
  (networkPattern.search? line.toList).map fun found =>
    let (target, address) := targetOf (found.group 3)
    { kind := found.group 2, target, timestamp := found.group 1, line := Str.trim line, address }

def networkActivities (lines : List Value) : Outcome (List NetworkActivity) := do
  let found ← lines.mapM fun line =>
    match line with
    | .text content => .ok (networkActivity? content)
    | .bytes _ => .error (.mistyped "cannot use a string pattern on a bytes-like object")
    | other => .error (.notSearchable other.kind)
  return found.filterMap id

def analyzeNetwork (source : Value) : Audit (List NetworkActivity) := do
  Audit.ofOutcome (networkActivities (← logLines source))

def summarizeNetwork (activities : Value) : Outcome Value := do
  if !activities.truthy then
    return summary 0 [] 0 0
  let items ← activities.items
  let read ← items.mapM fun activity => do
    let target ← (← activity.need "target").asKey
    return (target, ← activity.need "type")
  let targets := read.foldl
    (fun known (target, _) => if target.among known then known else known ++ [target]) []
  let count (kind : String) : Nat :=
    (read.filter fun (_, found) => found.same (.text kind)).length
  let total ← activities.length
  return summary total (← Value.sorted targets) (count "connect") (count "bind")
where
  summary (total : Nat) (targets : List Value) (connects binds : Nat) : Value :=
    .record [("total_connections", .ofNat total), ("unique_targets", .list targets),
      ("connect_count", .ofNat connects), ("bind_count", .ofNat binds)]

end SourceAudit.Monitor
