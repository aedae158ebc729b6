import SourceAudit.Value.Access

/-!
# Severity and risk

Threats are counted by severity, and the counts are weighed into a score from 0 to 100.
-/

namespace SourceAudit.Findings

inductive Severity where
  | critical
  | high
  | medium
  | low
deriving DecidableEq, Repr

namespace Severity

def name : Severity → String
  | .critical => "critical"
  | .high => "high"
  | .medium => "medium"
  | .low => "low"

def ofWord (w : String) : Severity :=
  if w == "critical" then .critical
  else if w == "high" then .high
  else if w == "medium" then .medium
  else .low

def weight : Severity → Int
  | .critical => 30
  | .high => 15
  | .medium => 5
  | .low => 1

end Severity

structure Breakdown where
  critical : Int := 0
  high : Int := 0
  medium : Int := 0
  low : Int := 0
deriving DecidableEq, Repr

namespace Breakdown

def add (counts : Breakdown) (sev : Severity) (n : Int) : Breakdown :=
  match sev with
  | .critical => { counts with critical := counts.critical + n }
  | .high => { counts with high := counts.high + n }
  | .medium => { counts with medium := counts.medium + n }
  | .low => { counts with low := counts.low + n }

def total (counts : Breakdown) : Int :=
  counts.critical + counts.high + counts.medium + counts.low

def weighed (counts : Breakdown) : Int :=
  counts.critical * Severity.critical.weight + counts.high * Severity.high.weight +
    counts.medium * Severity.medium.weight + counts.low * Severity.low.weight

def score (counts : Breakdown) : Int :=
  min counts.weighed 100

def plus (a b : Breakdown) : Breakdown :=
  { critical := a.critical + b.critical, high := a.high + b.high,
    medium := a.medium + b.medium, low := a.low + b.low }

def toValue (counts : Breakdown) : Value :=
  .record [("critical", .int counts.critical), ("high", .int counts.high),
    ("medium", .int counts.medium), ("low", .int counts.low)]

end Breakdown

def riskLevel (score : Int) : Severity :=
  if score ≥ 80 then .critical
  else if score ≥ 50 then .high
  else if score ≥ 20 then .medium
  else .low

structure Risk where
  breakdown : Breakdown
  threats : Int
deriving DecidableEq, Repr

namespace Risk

def score (risk : Risk) : Int :=
  risk.breakdown.score

def level (risk : Risk) : Severity :=
  riskLevel risk.score

def toValue (risk : Risk) : Value :=
  .record [("risk_score", .int risk.score), ("risk_level", .text risk.level.name),
    ("threat_count", .int risk.threats), ("breakdown", risk.breakdown.toValue)]

end Risk

def statedSeverity (fnd : Value) : Outcome Severity := do
  let w ← (← fnd.getD "severity" (.text "medium")).lower
  return Severity.ofWord w

def countStated (counts : Breakdown) : List Value → Outcome Breakdown
  | [] => .ok counts
  | fnd :: tl => do
    let sev ← statedSeverity fnd
    countStated (counts.add sev 1) tl

def assess (ths : Value) : Outcome Risk := do
  let xs ← ths.items
  let breakdown ← countStated {} xs
  return { breakdown, threats := (← ths.length) }

def assessCounts (counts : Value) : Outcome Risk := do
  let n (k : String) : Outcome Int := do (← counts.getD k (.int 0)).toInteger
  let breakdown : Breakdown :=
    { critical := ← n "critical", high := ← n "high", medium := ← n "medium", low := ← n "low" }
  return { breakdown, threats := breakdown.total }

end SourceAudit.Findings
